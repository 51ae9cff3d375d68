import Mathlib.Algebra.Order.BigOperators.Group.List
import Mathlib.Tactic.Abel

/-!
# Keyed records

A record with arbitrary keys is a list of entries in the order of their first write.  Writing a key
replaces its entry in place and appends an entry when the key is new.  Sums over the entries change
by the difference between the new value and the value it replaces.
-/

namespace Keyed

open List Prod

variable {K : Type*} {V : Type*} [DecidableEq K]

/-- The value of a key. -/
def get? : List (K × V) → K → Option V
  | [], _ => none
  | (k, v) :: rest, key => if k = key then some v else get? rest key

/-- Write the value of a key. -/
def put : List (K × V) → K → V → List (K × V)
  | [], key, value => [(key, value)]
  | (k, v) :: rest, key, value =>
    if k = key then (k, value) :: rest else (k, v) :: put rest key value

/-- The sum of `f` over the values. -/
def total {M : Type*} [AddCommMonoid M] (f : V → M) (record : List (K × V)) : M :=
  (record.map fun entry => f entry.2).sum

@[simp] lemma get?_put_self (record : List (K × V)) (key : K) (value : V) :
    get? (put record key value) key = some value := by
  induction record with
  | nil => simp [put, get?]
  | cons entry rest ih =>
    by_cases h : entry.1 = key
    · simp [put, get?, h]
    · simp [put, get?, h, ih]

variable {key : K} {record entries : List (K × V)} {value : V}

lemma get?_put_of_ne (record : List (K × V)) {other : K} (value : V) (h : other ≠ key) :
    get? (put record key value) other = get? record other := by
  induction record with
  | nil => simp [put, get?, h.symm]
  | cons entry rest ih =>
    by_cases hk : entry.1 = key
    · simp [put, get?, hk, h.symm]
    · simp [put, get?, hk, ih]

lemma put_of_get? (h : get? record key = some value) : put record key value = record := by
  induction record with
  | nil => cases h
  | cons entry rest ih =>
    by_cases hk : entry.1 = key
    · simp only [get?, hk, if_true, Option.some.injEq] at h
      simp [put, hk, ← h, Prod.ext_iff]
    · simp only [get?, hk] at h
      simp [put, hk, ih h]

/-- No key has two entries. -/
def KeysUnique (record : List (K × V)) : Prop := (record.map fst).Nodup

lemma mem_keys_put (record : List (K × V)) (key : K) (value : V) (other : K) :
    other ∈ (put record key value).map fst ↔ other ∈ record.map fst ∨ other = key := by
  induction record with
  | nil => simp [put]
  | cons entry rest ih =>
    by_cases h : entry.1 = key
    · rw [put, if_pos h, map_cons, map_cons, mem_cons, h]
      tauto
    · rw [put, if_neg h, map_cons, map_cons, mem_cons, mem_cons, ih, or_assoc]

lemma mem_put {entry : K × V} (h : entry ∈ put record key value) :
    entry = (key, value) ∨ entry ∈ record := by
  induction record with
  | nil => exact .inl (mem_singleton.mp h)
  | cons first rest ih =>
    by_cases hk : first.1 = key
    · rw [put, if_pos hk] at h
      rcases mem_cons.mp h with rfl | hmem
      · exact .inl (by rw [hk])
      · exact .inr (mem_cons_of_mem _ hmem)
    · rw [put, if_neg hk] at h
      rcases mem_cons.mp h with rfl | hmem
      · exact .inr (mem_cons_self ..)
      · exact (ih hmem).imp_right (mem_cons_of_mem _)

lemma KeysUnique.put (hu : KeysUnique record) (key : K) (value : V) :
    KeysUnique (Keyed.put record key value) := by
  induction record with
  | nil => simp [KeysUnique, Keyed.put]
  | cons first rest ih =>
    obtain ⟨hfst, hrest⟩ := nodup_cons.mp hu
    by_cases hk : first.1 = key
    · rw [Keyed.put, if_pos hk]
      exact nodup_cons.mpr ⟨hfst, hrest⟩
    · rw [Keyed.put, if_neg hk]
      refine nodup_cons.mpr ⟨fun hmem => ?_, ih hrest⟩
      obtain ⟨entry, hent, heq⟩ := mem_map.mp hmem
      rcases mem_put hent with rfl | hold
      · exact hk heq.symm
      · exact hfst (mem_map.mpr ⟨entry, hold, heq⟩)

lemma KeysUnique.mem_put (hu : KeysUnique record) {entry : K × V}
    (h : entry ∈ Keyed.put record key value) :
    entry = (key, value) ∨ entry ∈ record ∧ entry.1 ≠ key := by
  by_cases hk : entry.1 = key
  · refine .inl ?_
    induction record with
    | nil => exact mem_singleton.mp h
    | cons first rest ih =>
      obtain ⟨hfst, hrest⟩ := nodup_cons.mp hu
      by_cases hf : first.1 = key
      · rw [Keyed.put, if_pos hf] at h
        rcases mem_cons.mp h with rfl | hmem
        · rw [hf]
        · exact absurd (mem_map.mpr ⟨entry, hmem, hk.trans hf.symm⟩) hfst
      · rw [Keyed.put, if_neg hf] at h
        rcases mem_cons.mp h with rfl | hmem
        · exact absurd hk hf
        · exact ih hrest hmem
  · rcases Keyed.mem_put h with rfl | hold
    · exact absurd rfl hk
    · exact .inr ⟨hold, hk⟩

lemma mem_of_get? (h : get? record key = some value) : (key, value) ∈ record := by
  induction record with
  | nil => cases h
  | cons entry rest ih =>
    by_cases hk : entry.1 = key
    · simp only [get?, hk, if_true, Option.some.injEq] at h
      rw [← h, ← hk]
      exact mem_cons_self ..
    · simp only [get?, hk] at h
      exact mem_cons_of_mem _ (ih h)

lemma get?_of_mem (hu : KeysUnique record) (h : (key, value) ∈ record) :
    get? record key = some value := by
  induction record with
  | nil => exact absurd h not_mem_nil
  | cons first rest ih =>
    obtain ⟨hfst, hrest⟩ := nodup_cons.mp hu
    rcases mem_cons.mp h with rfl | hmem
    · simp [get?]
    · have hne : first.1 ≠ key := by
        intro heq
        exact hfst (heq ▸ mem_map_of_mem (f := fst) hmem)
      rw [get?, if_neg hne]
      exact ih hrest hmem

variable {W : Type*} {p : K → Bool} {M : Type*}

variable (record)

lemma get?_map_entry (f : K × V → W) (key : K) :
    get? (record.map fun entry => (entry.1, f entry)) key =
      (get? record key).map fun value => f (key, value) := by
  induction record with
  | nil => rfl
  | cons entry rest ih =>
    by_cases hk : entry.1 = key
    · simp [get?, ← hk]
    · simp [get?, hk, ih]

lemma get?_map_value (f : V → W) (key : K) :
    get? (record.map fun entry => (entry.1, f entry.2)) key = (get? record key).map f :=
  get?_map_entry record (fun entry => f entry.2) key

lemma put_map_value (f : V → W) (key : K) (value : V) :
    put (record.map fun entry => (entry.1, f entry.2)) key (f value) =
      (put record key value).map fun entry => (entry.1, f entry.2) := by
  induction record with
  | nil => rfl
  | cons first rest ih =>
    by_cases hk : first.1 = key
    · simp [put, hk]
    · simp [put, hk, ih]

lemma filter_put_of_pos (value : V) (hp : p key = true) :
    (put record key value).filter (fun entry => p entry.1) =
      put (record.filter fun entry => p entry.1) key value := by
  induction record with
  | nil => simp [put, hp]
  | cons entry rest ih =>
    by_cases hk : entry.1 = key
    · simp [put, hk, hp]
    · by_cases hent : p entry.1 = true
      · simp [put, hk, hent, ih]
      · simp [put, hk, hent, ih]

lemma filter_put_of_neg (value : V) (hp : p key = false) :
    (put record key value).filter (fun entry => p entry.1) =
      record.filter fun entry => p entry.1 := by
  induction record with
  | nil => simp [put, hp]
  | cons entry rest ih =>
    by_cases hk : entry.1 = key
    · simp [put, hk, hp]
    · simp [put, hk, filter_cons, ih]

lemma get?_filter_key (p : K → Bool) (key : K) :
    get? (record.filter fun entry => p entry.1) key = if p key then get? record key else none := by
  induction record with
  | nil => simp [get?]
  | cons entry rest ih =>
    by_cases hent : entry.1 = key
    · cases hp : p key <;> simp [get?, hent, hp, ih]
    · cases hp : p entry.1 <;> simp [get?, hent, hp, ih]

lemma get?_filter_ne (key other : K) :
    get? (record.filter fun entry => entry.1 ≠ key) other =
      if other = key then none else get? record other := by
  rw [get?_filter_key record fun other => decide (other ≠ key)]
  by_cases hoth : other = key
  · simp [hoth]
  · simp [hoth]

variable {record}

omit [DecidableEq K] in
lemma KeysUnique.filter (hu : KeysUnique record) (p : K × V → Bool) :
    KeysUnique (record.filter p) :=
  List.Nodup.sublist ((filter_sublist ..).map _) hu

lemma length_filter_ne (hu : KeysUnique record) (h : key ∈ record.map fst) :
    (record.filter fun entry => entry.1 ≠ key).length + 1 = record.length := by
  induction record with
  | nil => cases h
  | cons entry rest ih =>
    obtain ⟨hnew, hrest⟩ := nodup_cons.mp hu
    by_cases hent : entry.1 = key
    · have hall : rest.filter (fun other => other.1 ≠ key) = rest := by
        refine filter_eq_self.mpr fun other hoth => ?_
        refine decide_eq_true fun hkey => hnew ?_
        rw [hent, ← hkey]
        exact mem_map_of_mem hoth
      rw [filter_cons_of_neg (by simpa using hent), hall, length_cons]
    · have hmem : key ∈ rest.map fst := (mem_cons.mp h).resolve_left fun hkey => hent hkey.symm
      rw [filter_cons_of_pos (by simpa using hent), length_cons, length_cons, ih hrest hmem]

lemma get?_filter_of_pos {p : K × V → Bool} (h : get? record key = some value)
    (hp : p (key, value) = true) : get? (record.filter p) key = some value := by
  induction record with
  | nil => cases h
  | cons entry rest ih =>
    obtain ⟨other, held⟩ := entry
    by_cases hkey : other = key
    · rw [get?, if_pos hkey] at h
      cases h
      subst hkey
      rw [filter_cons_of_pos hp, get?, if_pos rfl]
    · rw [get?, if_neg hkey] at h
      by_cases hent : p (other, held) = true
      · rw [filter_cons_of_pos hent, get?, if_neg hkey, ih h]
      · rw [filter_cons_of_neg hent, ih h]

lemma isSome_get?_iff : (get? record key).isSome = true ↔ key ∈ record.map fst := by
  induction record with
  | nil => simp [get?]
  | cons entry rest ih =>
    by_cases hk : entry.1 = key
    · simp [get?, hk]
    · simp only [get?, if_neg hk, ih, map_cons, mem_cons, Ne.symm hk, false_or]

lemma put_of_new (value : V) (h : key ∉ record.map fst) :
    put record key value = record ++ [(key, value)] := by
  induction record with
  | nil => rfl
  | cons entry rest ih =>
    rw [map_cons, mem_cons, not_or] at h
    rw [put, if_neg (Ne.symm h.1), ih h.2, cons_append]

lemma length_put_of_mem (value : V) (h : key ∈ record.map fst) :
    (put record key value).length = record.length := by
  induction record with
  | nil => exact absurd h not_mem_nil
  | cons entry rest ih =>
    by_cases hk : entry.1 = key
    · rw [put, if_pos hk, length_cons, length_cons]
    · rw [map_cons, mem_cons] at h
      rw [put, if_neg hk, length_cons, length_cons, ih (h.resolve_left fun heq => hk heq.symm)]

lemma length_put_le (record : List (K × V)) (key : K) (value : V) :
    (put record key value).length ≤ record.length + 1 := by
  by_cases h : key ∈ record.map fst
  · rw [length_put_of_mem value h]
    exact Nat.le_succ _
  · rw [put_of_new value h, length_append, length_singleton]

lemma foldl_put_of_new (h : ((record ++ entries).map fst).Nodup) :
    entries.foldl (fun record entry => put record entry.1 entry.2) record = record ++ entries := by
  induction entries generalizing record with
  | nil => rw [foldl_nil, append_nil]
  | cons entry entries ih =>
    have hnew : entry.1 ∉ record.map fst := by
      rw [map_append, nodup_append] at h
      exact fun hmem => h.2.2 entry.1 hmem entry.1 (mem_cons_self ..) rfl
    rw [foldl_cons, put_of_new entry.2 hnew, ih (by rwa [← append_cons]), ← append_cons]

lemma foldl_put_of_unique (h : KeysUnique entries) :
    entries.foldl (fun record entry => put record entry.1 entry.2) [] = entries := by
  have hnodup : ((([] : List (K × V)) ++ entries).map fst).Nodup := h
  exact foldl_put_of_new hnodup

lemma get?_foldl_put_of_not_mem (h : key ∉ entries.map fst) (record : List (K × V)) :
    get? (entries.foldl (fun record entry => put record entry.1 entry.2) record) key =
      get? record key := by
  induction entries generalizing record with
  | nil => rfl
  | cons entry entries ih =>
    rw [map_cons, mem_cons, not_or] at h
    rw [foldl_cons, ih h.2, get?_put_of_ne _ _ h.1]

lemma get?_foldl_put_of_agree (hmem : (key, value) ∈ entries)
    (hagree : ∀ entry ∈ entries, entry.1 = key → entry.2 = value) (record : List (K × V)) :
    get? (entries.foldl (fun record entry => put record entry.1 entry.2) record) key =
      some value := by
  induction entries generalizing record with
  | nil => exact absurd hmem not_mem_nil
  | cons entry entries ih =>
    rw [foldl_cons]
    have hrest : ∀ e ∈ entries, e.1 = key → e.2 = value :=
      fun e he => hagree e (mem_cons_of_mem _ he)
    by_cases hkey : key ∈ entries.map fst
    · obtain ⟨e, he, heq⟩ := mem_map.mp hkey
      have hval := hrest e he heq
      exact ih (by rwa [← heq, ← hval]) hrest _
    · rw [get?_foldl_put_of_not_mem hkey]
      rcases mem_cons.mp hmem with rfl | hin
      · exact get?_put_self ..
      · exact absurd (mem_map_of_mem (f := fst) hin) hkey

/-- **Sums over a record.** A write changes the sum by the difference of the values. -/
lemma total_put [AddCommGroup M] (f : V → M) (record : List (K × V)) (key : K)
    (value : V) :
    total f (put record key value) =
      total f record + f value - ((get? record key).map f).getD 0 := by
  induction record with
  | nil => simp [put, get?, total]
  | cons entry rest ih =>
    by_cases hk : entry.1 = key
    · simp only [put, get?, hk, if_true, total, map_cons, sum_cons, Option.map_some,
        Option.getD_some]
      abel
    · simp only [total] at ih
      simp only [put, get?, hk, if_false, total, map_cons, sum_cons, ih]
      abel

/-- One non-negative summand is at most the sum of non-negative summands. -/
lemma le_total_of_get? [AddCommMonoid M] [PartialOrder M] [IsOrderedAddMonoid M]
    {f : V → M} (h0 : ∀ e ∈ record, 0 ≤ f e.2) (h : get? record key = some value) :
    f value ≤ total f record :=
  single_le_sum (by
    intro x hx
    obtain ⟨e, he, rfl⟩ := mem_map.mp hx
    exact h0 e he) _ (mem_map_of_mem (f := fun e : K × V => f e.2) (mem_of_get? h))

end Keyed
