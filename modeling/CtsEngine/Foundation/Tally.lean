import CtsEngine.Foundation.Keyed

/-!
# Tallies

A tally is a record to whose values amounts are added; a key without an entry counts as zero.  What
a tally holds in the end does not depend on the order of the amounts: the amount of a key is the
sum of what was added under it, and so is every additive reading of the whole record.
-/

namespace Keyed

open List Prod

variable {K : Type*} {M : Type*} {N : Type*} [DecidableEq K] [AddCommMonoid M] [AddCommMonoid N]

variable (record entries : List (K × M)) (key : K)

/-- The amount of a key. -/
def amountAt : M := (get? record key).getD 0

/-- Add an amount under a key. -/
def tally (amount : M) : List (K × M) := put record key (amountAt record key + amount)

/-- Add amounts one after another. -/
def tallyAll : List (K × M) :=
  entries.foldl (fun record entry => tally record entry.1 entry.2) record

/-- What entries add up to under a key. -/
def sumAt : M := ((entries.filter (·.1 = key)).map snd).sum

@[simp] lemma sumAt_nil : sumAt ([] : List (K × M)) key = 0 := rfl

lemma sumAt_cons (entry : K × M) (entries : List (K × M)) (key : K) :
    sumAt (entry :: entries) key = (if entry.1 = key then entry.2 else 0) + sumAt entries key := by
  unfold sumAt
  by_cases h : entry.1 = key <;> simp [h]

lemma sumAt_map_neg {G : Type*} [AddCommGroup G] (entries : List (K × G)) (key : K) :
    sumAt (entries.map fun entry => (entry.1, -entry.2)) key = -sumAt entries key := by
  induction entries with
  | nil => simp
  | cons entry entries ih =>
    rw [map_cons, sumAt_cons, sumAt_cons, ih, neg_add]
    split_ifs
    · rfl
    · rw [neg_zero]

lemma sumAt_of_mem {record : List (K × M)} (hu : KeysUnique record) {key : K} {amount : M}
    (h : (key, amount) ∈ record) : sumAt record key = amount := by
  induction record with
  | nil => cases h
  | cons entry rest ih =>
    obtain ⟨hnew, hrest⟩ := nodup_cons.mp hu
    rw [sumAt_cons]
    rcases mem_cons.mp h with rfl | hmem
    · have hnone : rest.filter (·.1 = key) = [] := by
        refine filter_eq_nil_iff.mpr fun other hoth heq => hnew ?_
        exact mem_map.mpr ⟨other, hoth, of_decide_eq_true heq⟩
      rw [if_pos rfl, sumAt, hnone]
      exact add_zero amount
    · rw [if_neg, zero_add, ih hrest hmem]
      rintro rfl
      exact hnew (mem_map.mpr ⟨_, hmem, rfl⟩)

lemma amountAt_tally (amount : M) (other : K) : amountAt (tally record key amount) other =
      amountAt record other + if key = other then amount else 0 := by
  by_cases h : key = other
  · subst h
    simp [amountAt, tally]
  · simp [amountAt, tally, get?_put_of_ne _ _ (Ne.symm h), h]

/-- **Tallies.** The amount of a key is what was there and what was added. -/
theorem amountAt_tallyAll :
    amountAt (tallyAll record entries) key = amountAt record key + sumAt entries key := by
  induction entries generalizing record with
  | nil => exact (add_zero _).symm
  | cons entry entries ih =>
    have hstep : tallyAll record (entry :: entries) =
        tallyAll (tally record entry.1 entry.2) entries := rfl
    rw [hstep, ih, amountAt_tally, sumAt_cons, add_assoc]

lemma mem_keys_tallyAll : key ∈ (tallyAll record entries).map fst ↔
      key ∈ record.map fst ∨ key ∈ entries.map fst := by
  induction entries generalizing record with
  | nil => exact (or_iff_left not_mem_nil).symm
  | cons entry entries ih =>
    have hstep : tallyAll record (entry :: entries) =
        tallyAll (tally record entry.1 entry.2) entries := rfl
    rw [hstep, ih, tally, mem_keys_put, map_cons, mem_cons, or_assoc]

lemma KeysUnique.tallyAll {record : List (K × M)} (h : KeysUnique record)
    (entries : List (K × M)) : KeysUnique (Keyed.tallyAll record entries) := by
  induction entries generalizing record with
  | nil => exact h
  | cons entry entries ih => exact ih (h.put ..)

lemma sum_map_put {f : K → M →+ N} (record : List (K × M)) (key : K) (amount : M) :
    ((put record key (amountAt record key + amount)).map fun entry => f entry.1 entry.2).sum =
      (record.map fun entry => f entry.1 entry.2).sum + f key amount := by
  induction record with
  | nil => simp [put, amountAt, get?]
  | cons entry rest ih =>
    by_cases h : entry.1 = key
    · have hamt : amountAt (entry :: rest) key = entry.2 := by simp [amountAt, get?, h]
      rw [hamt, put, if_pos h, map_cons, map_cons, sum_cons, sum_cons, map_add, h, add_right_comm]
    · have hamt : amountAt (entry :: rest) key = amountAt rest key := by
        simp [amountAt, get?, h]
      rw [hamt, put, if_neg h, map_cons, map_cons, sum_cons, sum_cons, ih, add_assoc]

/-- **Readings.** What is read additively off the entries of a tally is read off the amounts. -/
theorem sum_map_tallyAll (f : K → M →+ N) (record entries : List (K × M)) :
    ((tallyAll record entries).map fun entry => f entry.1 entry.2).sum =
      (record.map fun entry => f entry.1 entry.2).sum +
        (entries.map fun entry => f entry.1 entry.2).sum := by
  induction entries generalizing record with
  | nil => exact (add_zero _).symm
  | cons entry entries ih =>
    have hstep : tallyAll record (entry :: entries) =
        tallyAll (tally record entry.1 entry.2) entries := rfl
    rw [hstep, ih, tally, sum_map_put, map_cons, sum_cons, add_assoc]

/-! ### Writing entries one after another

A record that is filled from a list of entries holds the last value of each key.  The values of the
record and the values that were overwritten add up to the values of the list. -/

section Overwriting

variable {V : Type*}

/-- Write entries one after another. -/
def putAll (record entries : List (K × V)) : List (K × V) :=
  entries.foldl (fun record entry => put record entry.1 entry.2) record

/-- What is lost of the entries: the values whose key is written again. -/
def overwritten : List (K × M) → M
  | [] => 0
  | entry :: rest => (if entry.1 ∈ rest.map fst then entry.2 else 0) + overwritten rest

lemma mem_keys_putAll (record entries : List (K × V)) (key : K) :
    key ∈ (putAll record entries).map fst ↔
      key ∈ record.map fst ∨ key ∈ entries.map fst := by
  induction entries generalizing record with
  | nil => exact (or_iff_left not_mem_nil).symm
  | cons entry rest ih =>
    have hstep : putAll record (entry :: rest) = putAll (put record entry.1 entry.2) rest := rfl
    rw [hstep, ih, mem_keys_put, map_cons, mem_cons, or_assoc]

lemma KeysUnique.putAll {record : List (K × V)} (h : KeysUnique record) (entries : List (K × V)) :
    KeysUnique (Keyed.putAll record entries) := by
  induction entries generalizing record with
  | nil => exact h
  | cons entry rest ih => exact ih (h.put ..)

lemma mem_putAll {record entries : List (K × V)} {entry : K × V}
    (h : entry ∈ putAll record entries) : entry ∈ record ∨ entry ∈ entries := by
  induction entries generalizing record with
  | nil => exact .inl h
  | cons first rest ih =>
    rcases ih h with hold | hrest
    · rcases mem_put hold with rfl | hold
      · exact .inr (mem_cons_self ..)
      · exact .inl hold
    · exact .inr (mem_cons_of_mem _ hrest)

lemma sum_put {record : List (K × M)} (h : KeysUnique record) (key : K) (value : M) :
    ((put record key value).map snd).sum =
      ((record.filter fun entry => decide (entry.1 ≠ key)).map snd).sum + value := by
  induction record with
  | nil => simp [put]
  | cons first rest ih =>
    obtain ⟨hfst, hrest⟩ := nodup_cons.mp h
    by_cases hk : first.1 = key
    · have hkeep : rest.filter (fun entry => decide (entry.1 ≠ key)) = rest := by
        refine filter_eq_self.mpr fun entry hent => decide_eq_true fun heq => hfst ?_
        exact mem_map.mpr ⟨entry, hent, heq.trans hk.symm⟩
      rw [put, if_pos hk, filter_cons_of_neg (by simp [hk]), hkeep, map_cons, sum_cons, add_comm]
    · rw [put, if_neg hk, filter_cons_of_pos (by simp [hk]), map_cons, map_cons,
        sum_cons, sum_cons, ih hrest, add_assoc]

lemma sum_putAll_add_overwritten {record : List (K × M)} (h : KeysUnique record)
    (entries : List (K × M)) :
    ((putAll record entries).map snd).sum + overwritten entries =
      ((record.filter fun entry => decide (entry.1 ∉ entries.map fst)).map snd).sum +
        (entries.map snd).sum := by
  induction entries generalizing record with
  | nil => simp [putAll, overwritten]
  | cons entry rest ih =>
    have hstep : putAll record (entry :: rest) = putAll (put record entry.1 entry.2) rest := rfl
    rw [hstep, overwritten, map_cons, map_cons, sum_cons]
    by_cases hlate : entry.1 ∈ rest.map fst
    · -- The value is overwritten by a later one.
      have hkept := filter_put_of_neg (p := fun key => decide (key ∉ rest.map fst)) record
        entry.2 (decide_eq_false (not_not.mpr hlate))
      have hsame : (record.filter fun e => decide (e.1 ∉ entry.1 :: rest.map fst)) =
          record.filter fun e => decide (e.1 ∉ rest.map fst) := by
        refine filter_congr fun e _ => ?_
        rw [decide_eq_decide, mem_cons, not_or, and_iff_right_iff_imp]
        exact fun hnot heq => hnot (heq ▸ hlate)
      have hrest := ih (h.put entry.1 entry.2)
      rw [hkept] at hrest
      rw [if_pos hlate, hsame, add_left_comm, hrest, add_left_comm]
    · have hkept := filter_put_of_pos (p := fun key => decide (key ∉ rest.map fst)) record
        entry.2 (decide_eq_true hlate)
      have huniq : KeysUnique (record.filter fun e => decide (e.1 ∉ rest.map fst)) :=
        h.sublist (filter_sublist.map fst)
      have hsame : (record.filter fun e => decide (e.1 ∉ entry.1 :: rest.map fst)) =
          (record.filter fun e => decide (e.1 ∉ rest.map fst)).filter
            fun e => decide (e.1 ≠ entry.1) := by
        rw [filter_filter]
        refine filter_congr fun e _ => ?_
        rw [← Bool.decide_and, decide_eq_decide, mem_cons, not_or]
      have hrest := ih (h.put entry.1 entry.2)
      rw [hkept, sum_put huniq] at hrest
      rw [if_neg hlate, zero_add, hrest, hsame, add_assoc]

/-- **Overwriting.** What a record filled from entries holds, and what was overwritten, add up to
the values of the entries. -/
theorem sum_putAll_nil : ((putAll [] entries).map snd).sum + overwritten entries =
      (entries.map snd).sum := by
  have huniq : KeysUnique ([] : List (K × M)) := nodup_nil
  simpa using sum_putAll_add_overwritten huniq entries

lemma overwritten_append_singleton (value other : M) :
    overwritten (entries ++ [(key, value)]) = overwritten (entries ++ [(key, other)]) := by
  induction entries with
  | nil => simp [overwritten]
  | cons entry rest ih =>
    simp only [cons_append, overwritten, ih, map_append, map_cons]

variable {entries : List (K × M)}

/-- Nothing is lost when the entries whose key is written again have no value. -/
lemma overwritten_of_pairwise
    (h : entries.Pairwise fun entry later => entry.1 = later.1 → entry.2 = 0) :
    overwritten entries = 0 := by
  induction entries with
  | nil => rfl
  | cons entry rest ih =>
    obtain ⟨hfst, hrest⟩ := pairwise_cons.mp h
    rw [overwritten, ih hrest, add_zero, ite_eq_right_iff]
    intro hmem
    obtain ⟨later, hlater, hkey⟩ := mem_map.mp hmem
    exact hfst later hlater hkey.symm

lemma overwritten_of_nodup (h : (entries.map fst).Nodup) :
    overwritten entries = 0 :=
  overwritten_of_pairwise ((pairwise_map.mp h).imp fun hne heq => absurd heq hne)

/-- What is lost is at least each value that is written over. -/
lemma le_overwritten [PartialOrder M] [IsOrderedAddMonoid M]
    (h : ∀ entry ∈ entries, 0 ≤ entry.2) : 0 ≤ overwritten entries ∧
      entries.Pairwise fun entry later => entry.1 = later.1 → entry.2 ≤ overwritten entries := by
  induction entries with
  | nil => exact ⟨le_rfl, Pairwise.nil⟩
  | cons entry rest ih =>
    obtain ⟨hfst, hrest⟩ := forall_mem_cons.mp h
    obtain ⟨hnn, hpair⟩ := ih hrest
    have hlost : 0 ≤ if entry.1 ∈ rest.map fst then entry.2 else 0 := by
      split_ifs
      · exact hfst
      · exact le_rfl
    refine ⟨add_nonneg hlost hnn, pairwise_cons.mpr ⟨fun later hlater hkey => ?_, ?_⟩⟩
    · rw [overwritten, if_pos (hkey ▸ mem_map_of_mem hlater)]
      exact le_add_of_nonneg_right hnn
    · exact hpair.imp fun hle hkey => (hle hkey).trans (le_add_of_nonneg_left hlost)

end Overwriting

end Keyed
