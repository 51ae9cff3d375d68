import CtsEngine.Foundation.Keyed
import Mathlib.Data.List.Induction
import Mathlib.Data.List.Nodup

/-!
# Collecting a list by keys

A pass over a list that keeps one value for each key, made from the first element with the key and
then folded over all elements with it.  The record it leaves has one entry for each first element,
in order, and the value of the entry is the fold over the elements with its key.
-/

namespace Keyed

open List

variable {A : Type*} {K : Type*} {V : Type*} [DecidableEq K]

/-- The first element with each key. -/
def firsts (key : A → K) (xs : List A) : List A :=
  xs.foldl (fun found x => if found.any (key · = key x) then found else found ++ [x]) []

/-- One pass: the value of a key is created by the first element with it. -/
def collect (key : A → K) (create : A → V) (add : V → A → V) (xs : List A) : List (K × V) :=
  xs.foldl (fun record x =>
    put record (key x) (add ((get? record (key x)).getD (create x)) x)) []

variable {key : A → K} {create : A → V} {add : V → A → V}

lemma firsts_append_singleton (xs : List A) (x : A) :
    firsts key (xs ++ [x]) =
      if (firsts key xs).any (key · = key x) then firsts key xs else firsts key xs ++ [x] := by
  unfold firsts
  rw [foldl_append]
  rfl

lemma collect_append_singleton (xs : List A) (x : A) : collect key create add (xs ++ [x]) =
      put (collect key create add xs) (key x)
        (add ((get? (collect key create add xs) (key x)).getD (create x)) x) := by
  unfold collect
  rw [foldl_append]
  rfl

variable (key) in
lemma firsts_spec (xs : List A) : (∀ y ∈ firsts key xs, y ∈ xs) ∧ ((firsts key xs).map key).Nodup ∧
      ∀ x ∈ xs, ∃ y ∈ firsts key xs, key y = key x := by
  induction xs using reverseRecOn with
  | nil => exact ⟨fun y hy => hy, nodup_nil, nofun⟩
  | append_singleton xs x ih =>
    obtain ⟨hmem, hnodup, hkeys⟩ := ih
    rw [firsts_append_singleton]
    split
    · rename_i hany
      obtain ⟨y, hy, hkey⟩ := any_eq_true.mp hany
      refine ⟨fun z hz => mem_append_left _ (hmem z hz), hnodup, fun z hz => ?_⟩
      rcases mem_append.mp hz with hz | hz
      · exact hkeys z hz
      · rw [mem_singleton.mp hz]
        exact ⟨y, hy, of_decide_eq_true hkey⟩
    · rename_i hany
      refine ⟨fun z hz => ?_, ?_, fun z hz => ?_⟩
      · rcases mem_append.mp hz with hz | hz
        · exact mem_append_left _ (hmem z hz)
        · exact mem_append_right _ hz
      · rw [map_append, nodup_append]
        refine ⟨hnodup, nodup_singleton _, ?_⟩
        intro k hk other hoth heq
        obtain ⟨y, hy, rfl⟩ := mem_map.mp hk
        rw [map_singleton, mem_singleton] at hoth
        exact hany (any_eq_true.mpr ⟨y, hy, decide_eq_true (heq.trans hoth)⟩)
      · rcases mem_append.mp hz with hz | hz
        · obtain ⟨y, hy, hkey⟩ := hkeys z hz
          exact ⟨y, mem_append_left _ hy, hkey⟩
        · rw [mem_singleton.mp hz]
          exact ⟨x, mem_concat_self, rfl⟩

variable {xs ys : List A}

lemma firsts_of_nodup (h : (xs.map key).Nodup) : firsts key xs = xs := by
  induction xs using reverseRecOn with
  | nil => rfl
  | append_singleton xs x ih =>
    rw [map_append, nodup_append] at h
    rw [firsts_append_singleton, ih h.1, if_neg]
    intro hany
    obtain ⟨y, hy, hkey⟩ := any_eq_true.mp hany
    exact h.2.2 _ (mem_map_of_mem hy) _ (mem_singleton_self _) (of_decide_eq_true hkey)

lemma filter_of_nodup (h : (xs.map key).Nodup) {x : A} (hx : x ∈ xs) :
    xs.filter (key · = key x) = [x] := by
  induction xs with
  | nil => cases hx
  | cons y xs ih =>
    obtain ⟨hy, hrest⟩ := nodup_cons.mp h
    rcases mem_cons.mp hx with rfl | hx
    · have hself : decide (key x = key x) = true := decide_eq_true rfl
      have hnone : xs.filter (key · = key x) = [] :=
        filter_eq_nil_iff.mpr fun z hz hkey =>
          hy (of_decide_eq_true hkey ▸ mem_map_of_mem hz)
      rw [filter_cons, hself, hnone, if_pos rfl]
    · rw [filter_cons_of_neg, ih hrest hx]
      intro hkey
      exact hy (of_decide_eq_true hkey ▸ mem_map_of_mem hx)

variable (key) in
lemma head?_filter_of_mem_firsts {y : A} (hy : y ∈ firsts key xs) :
    (xs.filter (key · = key y)).head? = some y := by
  induction xs using reverseRecOn with
  | nil => cases hy
  | append_singleton xs x ih =>
    have hold : y ∈ firsts key xs → ((xs ++ [x]).filter (key · = key y)).head? = some y := by
      intro hy
      rw [filter_append, head?_append, ih hy, Option.some_or]
    rw [firsts_append_singleton] at hy
    split at hy
    · exact hold hy
    · rename_i hany
      rcases mem_append.mp hy with hy | hy
      · exact hold hy
      · obtain rfl := mem_singleton.mp hy
        have hnone : xs.filter (key · = key y) = [] := by
          refine filter_eq_nil_iff.mpr fun z hz heq => ?_
          obtain ⟨w, hw, hkey⟩ := (firsts_spec key xs).2.2 z hz
          exact hany (any_eq_true.mpr ⟨w, hw, decide_eq_true (hkey.trans (of_decide_eq_true heq))⟩)
        rw [filter_append, hnone, nil_append, filter_cons_of_pos (by simp)]
        rfl

variable (value : A → V)

lemma get?_map (hnodup : (ys.map key).Nodup) {y : A} (hy : y ∈ ys) :
    get? (ys.map fun z => (key z, value z)) (key y) = some (value y) := by
  induction ys with
  | nil => cases hy
  | cons z ys ih =>
    rw [map_cons, nodup_cons] at hnodup
    rcases mem_cons.mp hy with rfl | hy
    · simp [get?]
    · have hne : key z ≠ key y := fun heq => hnodup.1 (heq ▸ mem_map.mpr ⟨y, hy, rfl⟩)
      simp [get?, hne, ih hnodup.2 hy]

lemma get?_map_of_not_mem {k : K} (hk : ∀ y ∈ ys, key y ≠ k) :
    get? (ys.map fun z => (key z, value z)) k = none := by
  induction ys with
  | nil => rfl
  | cons z ys ih =>
    have hrest := ih fun y hy => hk y (mem_cons_of_mem z hy)
    simp [get?, hk z (mem_cons_self ..), hrest]

lemma put_map (hnodup : (ys.map key).Nodup) {k : K} (v : V) (hk : ∃ y ∈ ys, key y = k) :
    put (ys.map fun z => (key z, value z)) k v =
      ys.map fun z => (key z, if key z = k then v else value z) := by
  induction ys with
  | nil =>
    obtain ⟨y, hy, -⟩ := hk
    cases hy
  | cons z ys ih =>
    rw [map_cons, nodup_cons] at hnodup
    by_cases hz : key z = k
    · have hrest : ∀ y ∈ ys, key y ≠ k := fun y hy heq =>
        hnodup.1 (mem_map.mpr ⟨y, hy, heq.trans hz.symm⟩)
      have hsame : (ys.map fun z => (key z, value z)) =
          ys.map fun z => (key z, if key z = k then v else value z) :=
        map_congr_left fun y hy => by rw [if_neg (hrest y hy)]
      simp [put, hz, hsame]
    · obtain ⟨y, hy, hkey⟩ := hk
      rcases mem_cons.mp hy with rfl | hy
      · exact absurd hkey hz
      · simp [put, hz, ih hnodup.2 ⟨y, hy, hkey⟩]

lemma put_map_of_not_mem {k : K} (v : V) (hk : ∀ y ∈ ys, key y ≠ k) :
    put (ys.map fun z => (key z, value z)) k v =
      (ys.map fun z => (key z, value z)) ++ [(k, v)] := by
  induction ys with
  | nil => rfl
  | cons z ys ih =>
    have hrest := ih fun y hy => hk y (mem_cons_of_mem z hy)
    simp [put, hk z (mem_cons_self ..), hrest]

/-- **Collecting.** The record has one entry for each first element, with the fold over all the
elements of its key. -/
theorem collect_eq (xs : List A) : collect key create add xs =
    (firsts key xs).map fun y => (key y, (xs.filter (key · = key y)).foldl add (create y)) := by
  induction xs using reverseRecOn with
  | nil => rfl
  | append_singleton xs x ih =>
    obtain ⟨-, hnodup, hkeys⟩ := firsts_spec key xs
    rw [collect_append_singleton, firsts_append_singleton, ih]
    split
    · rename_i hany
      obtain ⟨y, hy, hkey⟩ := any_eq_true.mp hany
      have hkey : key y = key x := of_decide_eq_true hkey
      have hget := get?_map (fun z => (xs.filter (key · = key z)).foldl add (create z)) hnodup hy
      rw [← hkey, hget, put_map _ hnodup _ ⟨y, hy, rfl⟩]
      refine map_congr_left fun z hz => ?_
      by_cases hzy : key z = key y
      · have hsame : z = y := inj_on_of_nodup_map hnodup hz hy hzy
        rw [hsame]
        simp [hkey]
      · have hne : key x ≠ key z := fun heq => hzy (heq ▸ hkey.symm)
        rw [if_neg hzy]
        simp [hne]
    · rename_i hany
      have hnew : ∀ y ∈ firsts key xs, key y ≠ key x := fun y hy heq =>
        hany (any_eq_true.mpr ⟨y, hy, decide_eq_true heq⟩)
      rw [get?_map_of_not_mem _ hnew, put_map_of_not_mem _ _ hnew, map_append]
      have hnone : xs.filter (key · = key x) = [] := by
        refine filter_eq_nil_iff.mpr fun z hz => ?_
        obtain ⟨y, hy, hkey⟩ := hkeys z hz
        rw [decide_eq_true_eq, ← hkey]
        exact hnew y hy
      congr 1
      · refine map_congr_left fun z hz => ?_
        have hne : key x ≠ key z := fun heq => hnew z hz heq.symm
        simp [hne]
      · rw [map_singleton, filter_append, hnone]
        simp

/-- Collecting lists collects, for each key, the elements with it. -/
theorem mem_collect_lists {entry : K × List A} :
    entry ∈ collect key (fun _ => []) (fun found x => found ++ [x]) xs ↔
      entry.2 = xs.filter (key · = entry.1) ∧ entry.2 ≠ [] := by
  obtain ⟨hmem, -, hkeys⟩ := firsts_spec key xs
  have hfold : ∀ found : List A, found.foldl (fun found x => found ++ [x]) [] = found := by
    intro found
    rw [foldl_append_eq_append, nil_append, ← flatMap_def, flatMap_singleton']
  rw [collect_eq, mem_map]
  simp only [hfold]
  constructor
  · rintro ⟨y, hy, rfl⟩
    exact ⟨rfl, ne_nil_of_mem (mem_filter.mpr ⟨hmem y hy, decide_eq_true rfl⟩)⟩
  · rintro ⟨hfnd, hne⟩
    obtain ⟨x, hx⟩ := exists_mem_of_ne_nil _ hne
    rw [hfnd] at hx
    obtain ⟨hx, hkey⟩ := mem_filter.mp hx
    obtain ⟨y, hy, hsame⟩ := hkeys x hx
    have hent : key y = entry.1 := hsame.trans (of_decide_eq_true hkey)
    exact ⟨y, hy, Prod.ext hent (by rw [hfnd, hent])⟩

lemma put_flatMap_perm (record : List (K × List A)) (k : K) (x : A) :
    ((put record k ((get? record k).getD [] ++ [x])).flatMap Prod.snd).Perm
      (record.flatMap Prod.snd ++ [x]) := by
  induction record with
  | nil => exact List.Perm.refl _
  | cons entry rest ih =>
    by_cases h : entry.1 = k
    · simp only [put, get?, h, if_true, flatMap_cons, append_assoc]
      exact perm_append_comm.append_left _
    · simp only [put, get?, h, flatMap_cons, append_assoc]
      exact ih.append_left _

/-- **Groups.** The groups of a list hold its elements, each as often as the list. -/
theorem collect_lists_perm (xs : List A) :
    ((collect key (fun _ => []) (fun found x => found ++ [x]) xs).flatMap Prod.snd).Perm xs := by
  induction xs using reverseRecOn with
  | nil => exact List.Perm.refl _
  | append_singleton xs x ih =>
    rw [collect_append_singleton]
    exact (put_flatMap_perm _ _ _).trans (ih.append_right [x])

end Keyed
