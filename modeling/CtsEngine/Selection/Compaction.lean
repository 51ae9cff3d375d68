import CtsEngine.Foundation.Comparison
import CtsEngine.Foundation.NumberText
import CtsEngine.Foundation.TopK
import Mathlib.Data.List.Induction

/-!
# Compaction of the pools of Sets

`compact` of `lib/sets-compaction.ts`, applied after every push to a pool.  It does nothing below a
ceiling, and then brings the pool back to its floor: the newest entries, or those with the highest
profit factors in the order of their timestamps.
-/

namespace CtsEngine

open List Comparison TopK Nat

/-! ## The policy -/

structure CompactionConfig where
  floor : ℕ
  thresholdPct : Double

/-- `pct` of `compactionCeiling`, `none` for `NaN`. -/
def compactionPct (thresholdPct : Double) : Option ℚ :=
  match thresholdPct with
  | .finite q => some (max 0 (min 500 q))
  | .infinity negative => some (if negative then 0 else 500)
  | .nan => none

/-- `compactionCeiling`, `none` for `NaN`.  The result of every operation is rounded. -/
def compactionCeiling (round : ℚ → ℚ) (cfg : CompactionConfig) : Option ℕ :=
  (compactionPct cfg.thresholdPct).map fun pct =>
    max cfg.floor ⌈round (cfg.floor * round (1 + round (pct / 100)))⌉.toNat

inductive CompactionMode
  | recent
  | best

inductive EntryTimestamp
  | number (t : ℚ)
  | text (s : String)
  | date (t : ℚ)
  | other

/-- The fields of an entry that `compact` reads; a profit factor that is not a number is `none`. -/
structure CompactableEntry where
  profitFactor : Option ℚ
  timestamp : EntryTimestamp

/-- `tsOf`, with `Date.parse` as a parameter. -/
def tsOf (parseDate : String → Option ℚ) (e : CompactableEntry) : ℚ :=
  match e.timestamp with
  | .number t => t
  | .text s => (parseDate s).getD 0
  | .date t => t
  | .other => 0

variable {T : Type*}

/-- What `compact` is called with: the accessors of the entries, and the arithmetic. -/
structure Compactor (T : Type*) where
  round : ℚ → ℚ
  parseDate : String → Option ℚ
  fields : T → CompactableEntry
  getProfitFactor : Option (T → ℚ)
  cfg : CompactionConfig

namespace Compactor

variable (c : Compactor T)

def pfOf (e : T) : ℚ :=
  match c.getProfitFactor with
  | some getProfitFactor => getProfitFactor e
  | none => numOrConst (c.fields e).profitFactor 0

/-- `tsOf` of an entry. -/
def timestamp (e : T) : ℚ := tsOf c.parseDate (c.fields e)

/-- `entries.length < ceiling`. -/
def belowCeiling (entries : List T) : Bool :=
  match compactionCeiling c.round c.cfg with
  | some ceiling => decide (entries.length < ceiling)
  | none => false

variable (mode : CompactionMode)

/-- `compact`.  A slice from `-0` is the whole list. -/
def compact (entries : List T) : List T :=
  if c.belowCeiling entries then entries
  else
    match mode with
    | .recent =>
      if c.cfg.floor = 0 then entries else entries.drop (entries.length - c.cfg.floor)
    | .best =>
      sortBy (fun a b => c.timestamp a - c.timestamp b)
        ((sortBy (fun a b => c.pfOf b - c.pfOf a) entries).take c.cfg.floor)

/-- The pool after some pushes, each of them followed by `compact`. -/
def pool (pushed : List T) : List T :=
  pushed.foldl (fun entries e => c.compact mode (entries ++ [e])) []

/-- The greatest length of a pool: the floor, or one below the ceiling. -/
def bound : ℕ :=
  match compactionCeiling c.round c.cfg with
  | some ceiling => max c.cfg.floor (ceiling - 1)
  | none => c.cfg.floor

/-- What a pool of the best entries promises. -/
structure KeepsBest (pushed entries : List T) : Prop where
  subperm : entries.Subperm pushed
  best : (topK c.cfg.floor (pushed.map c.pfOf)).Subperm (entries.map c.pfOf)
  ordered : pushed.Pairwise (c.timestamp · ≤ c.timestamp ·) →
    entries.Pairwise (c.timestamp · ≤ c.timestamp ·)
  bounded : entries.length ≤ c.bound

/-- What a pool of the recent entries promises. -/
structure KeepsRecent (pushed entries : List T) : Prop where
  suffix : entries <:+ pushed
  recent : pushed.drop (pushed.length - c.cfg.floor) <:+ entries

variable {c} {pushed entries : List T}

lemma pool_append_singleton (pushed : List T) (e : T) :
    c.pool mode (pushed ++ [e]) = c.compact mode (c.pool mode pushed ++ [e]) := by
  rw [pool, foldl_append]
  rfl

/-! ## The best entries -/

/-- The invariant: what was forgotten is reached by as many entries as the floor asks for. -/
structure Holds (c : Compactor T) (pushed entries : List T) : Prop where
  forgotten : ∃ forgotten, pushed.Perm (entries ++ forgotten) ∧
    ∀ e ∈ forgotten, Reached c.cfg.floor (entries.map c.pfOf) (c.pfOf e)
  ordered : pushed.Pairwise (c.timestamp · ≤ c.timestamp ·) →
    entries.Pairwise (c.timestamp · ≤ c.timestamp ·)
  bounded : entries.length ≤ c.bound

lemma holds_nil (c : Compactor T) : c.Holds [] [] :=
  ⟨⟨[], Perm.refl _, nofun⟩, fun _ => List.Pairwise.nil, zero_le _⟩

lemma Holds.keepsBest (h : c.Holds pushed entries) : c.KeepsBest pushed entries := by
  obtain ⟨forgotten, hperm, hreach⟩ := h.forgotten
  refine ⟨(sublist_append_left ..).subperm.trans hperm.symm.subperm, ?_, h.ordered, h.bounded⟩
  rw [topK_perm (hperm.map c.pfOf), map_append, topK_append_of_reached]
  · exact topK_subperm _ _
  · intro x hx
    obtain ⟨e, he, rfl⟩ := mem_map.mp hx
    exact hreach e he

lemma Holds.push (h : c.Holds pushed entries) (e : T)
    (hbelow : c.belowCeiling (entries ++ [e]) = true) :
    c.Holds (pushed ++ [e]) (entries ++ [e]) := by
  obtain ⟨forgotten, hperm, hreach⟩ := h.forgotten
  refine ⟨⟨forgotten, ?_, fun f hf => ?_⟩, fun hord => ?_, ?_⟩
  · refine (hperm.append_right [e]).trans ?_
    rw [append_assoc, append_assoc]
    exact Perm.append_left _ perm_append_comm
  · rw [map_append]
    exact (hreach f hf).append _
  · obtain ⟨hold, -, hnew⟩ := pairwise_append.mp hord
    refine pairwise_append.mpr ⟨h.ordered hold, pairwise_singleton _ _, ?_⟩
    intro a ha
    exact hnew a (hperm.symm.subset (mem_append_left _ ha))
  · rw [belowCeiling] at hbelow
    rw [bound]
    cases hceil : compactionCeiling c.round c.cfg with
    | none =>
      rw [hceil] at hbelow
      cases hbelow
    | some ceiling =>
      rw [hceil] at hbelow
      have hlt : (entries ++ [e]).length < ceiling := of_decide_eq_true hbelow
      exact le_max_of_le_right (by omega)

lemma pf_comparison (c : Compactor T) : IsComparison fun a b => c.pfOf b - c.pfOf a where
  sign a b := by rw [sub_neg, sub_pos]
  trans a b d hab hbd := by linarith

/-- A compaction keeps the best of all that was pushed. -/
lemma Holds.compacted (h : c.Holds pushed entries) (e : T) :
    c.Holds (pushed ++ [e]) (sortBy (fun a b => c.timestamp a - c.timestamp b)
      ((sortBy (fun a b => c.pfOf b - c.pfOf a) (entries ++ [e])).take c.cfg.floor)) := by
  obtain ⟨forgotten, hperm, hreach⟩ := h.forgotten
  have hsort := sortBy_pairwise c.pf_comparison (entries ++ [e])
  have hents := sortBy_perm (fun a b => c.pfOf b - c.pfOf a) (entries ++ [e])
  generalize sortBy (fun a b => c.pfOf b - c.pfOf a) (entries ++ [e]) = sorted at *
  have hkept := sortBy_perm (fun a b => c.timestamp a - c.timestamp b) (sorted.take c.cfg.floor)
  have hlen : sorted.drop c.cfg.floor ≠ [] → (sorted.take c.cfg.floor).length = c.cfg.floor := by
    intro hne
    have hlong := length_pos_of_ne_nil hne
    rw [length_drop] at hlong
    rw [length_take]
    omega
  have hbelow : ∀ a ∈ sorted.take c.cfg.floor, ∀ b ∈ sorted.drop c.cfg.floor,
      c.pfOf b ≤ c.pfOf a := by
    rw [← take_append_drop c.cfg.floor sorted] at hsort
    intro a ha b hb
    exact sub_nonpos.mp ((pairwise_append.mp hsort).2.2 a ha b hb)
  have hvals : ∀ y ∈ (sorted.take c.cfg.floor).map c.pfOf,
      ∀ z ∈ (sorted.drop c.cfg.floor).map c.pfOf, z ≤ y := by
    intro y hy z hz
    obtain ⟨a, ha, rfl⟩ := mem_map.mp hy
    obtain ⟨b, hb, rfl⟩ := mem_map.mp hz
    exact hbelow a ha b hb
  have hcnt : (sorted.drop c.cfg.floor).map c.pfOf ≠ [] →
      ((sorted.take c.cfg.floor).map c.pfOf).length = c.cfg.floor := by
    intro hne
    rw [length_map]
    exact hlen fun hemp => hne (by rw [hemp, map_nil])
  refine ⟨⟨sorted.drop c.cfg.floor ++ forgotten, ?_, fun f hf => ?_⟩, fun _ => ?_, ?_⟩
  · have hpush : (pushed ++ [e]).Perm ((entries ++ [e]) ++ forgotten) := by
      refine (hperm.append_right [e]).trans ?_
      rw [append_assoc, append_assoc]
      exact Perm.append_left _ perm_append_comm
    refine hpush.trans ((hents.symm.append_right forgotten).trans ?_)
    rw [← append_assoc]
    refine Perm.append_right _ ?_
    have hsplit := Perm.of_eq (take_append_drop c.cfg.floor sorted).symm
    exact hsplit.trans (hkept.symm.append_right _)
  · refine Reached.perm ?_ (hkept.symm.map c.pfOf)
    rcases mem_append.mp hf with hdrop | hforg
    · exact reached_of_dropped hcnt hvals _ (mem_map_of_mem hdrop)
    · refine Reached.of_kept ?_ hcnt hvals
      rw [← map_append, take_append_drop]
      refine Reached.perm ?_ (hents.symm.map c.pfOf)
      rw [map_append]
      exact (hreach f hforg).append _
  · exact (sortBy_pairwise (.of_number c.timestamp) _).imp sub_nonpos.mp
  · rw [hkept.length_eq, length_take, bound]
    cases compactionCeiling c.round c.cfg with
    | none => exact min_le_left _ _
    | some ceiling => exact (min_le_left _ _).trans (le_max_left _ _)

lemma Holds.compact (h : c.Holds pushed entries) (e : T) :
    c.Holds (pushed ++ [e]) (c.compact .best (entries ++ [e])) := by
  rw [Compactor.compact]
  split_ifs with hbelow
  · exact h.push e hbelow
  · exact h.compacted e

lemma pool_holds (c : Compactor T) (pushed : List T) : c.Holds pushed (c.pool .best pushed) := by
  induction pushed using reverseRecOn with
  | nil => exact c.holds_nil
  | append_singleton pushed e ih =>
    rw [pool_append_singleton]
    exact ih.compact e

lemma pool_recent (c : Compactor T) (pushed : List T) : c.pool .recent pushed <:+ pushed ∧
      min pushed.length c.cfg.floor ≤ (c.pool .recent pushed).length := by
  induction pushed using reverseRecOn with
  | nil => exact ⟨suffix_rfl, zero_le _⟩
  | append_singleton pushed e ih =>
    obtain ⟨hsuff, hlen⟩ := ih
    obtain ⟨before, hbef⟩ := hsuff
    have hpush : c.pool .recent pushed ++ [e] <:+ pushed ++ [e] :=
      ⟨before, by rw [← append_assoc, hbef]⟩
    rw [pool_append_singleton, Compactor.compact]
    split_ifs with hbelow hzero
    · refine ⟨hpush, ?_⟩
      rw [length_append, length_append]
      omega
    · refine ⟨hpush, ?_⟩
      rw [hzero, min_zero]
      exact zero_le _
    · refine ⟨(drop_suffix _ _).trans hpush, ?_⟩
      rw [length_drop, length_append, length_append]
      omega

end Compactor

/-- **Compaction is a streaming top-k.** Whatever is pushed, the pool of the best entries has the
highest profit factors of all, in the order of the timestamps, and keeps to its bound, and the pool
of the recent entries ends with the last ones. -/
theorem pool_streams (c : Compactor T) (pushed : List T) :
    c.KeepsBest pushed (c.pool .best pushed) ∧ c.KeepsRecent pushed (c.pool .recent pushed) := by
  refine ⟨(c.pool_holds pushed).keepsBest, ?_⟩
  obtain ⟨hsuffix, hlength⟩ := c.pool_recent pushed
  refine ⟨hsuffix, suffix_of_suffix_length_le (drop_suffix _ _) hsuffix ?_⟩
  rw [length_drop]
  omega

end CtsEngine
