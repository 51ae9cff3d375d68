import Mathlib.Data.List.Nodup
import Mathlib.Data.List.TakeDrop

/-!
# Iterators of maps that change

A map keeps its keys in the order in which they were added, and an iterator over them sees what is
deleted and what is added while it is under way: it is given by the number of keys that it has
passed.  The keys that an iterator has before it lose a key that is deleted and get a key that is
added as their last.
-/

namespace MapIterator

open List

variable {K : Type*} [DecidableEq K]

/-- The keys after one was added. -/
def insert (keys : List K) (key : K) : List K := if key ∈ keys then keys else keys ++ [key]

/-- The keys after one was deleted. -/
def erase (keys : List K) (key : K) : List K := keys.filter (· ≠ key)

/-- The position of an iterator after a key was deleted: one less where the key was passed. -/
def moved (keys : List K) (passed : ℕ) (key : K) : ℕ :=
  if key ∈ keys.take passed then passed - 1 else passed

variable {keys : List K} {passed : ℕ}

@[simp] lemma mem_insert {key other : K} :
    other ∈ insert keys key ↔ other ∈ keys ∨ other = key := by
  unfold insert
  split_ifs with h
  · exact ⟨.inl, fun hoth => hoth.elim id fun heq => heq ▸ h⟩
  · rw [mem_append, mem_singleton]

@[simp] lemma mem_erase {key other : K} : other ∈ erase keys key ↔ other ∈ keys ∧ other ≠ key := by
  rw [erase, mem_filter, decide_eq_true_iff]

lemma nodup_insert (h : keys.Nodup) (key : K) : (insert keys key).Nodup := by
  unfold insert
  split_ifs with hmem
  · exact h
  · refine nodup_append.mpr ⟨h, nodup_singleton key, fun a ha b hb => ?_⟩
    rw [mem_singleton] at hb
    rintro rfl
    exact hmem (hb ▸ ha)

lemma nodup_erase (h : keys.Nodup) (key : K) : (erase keys key).Nodup := h.filter _

lemma length_le_insert (keys : List K) (key : K) : keys.length ≤ (insert keys key).length := by
  unfold insert
  split_ifs
  · exact Nat.le_refl _
  · exact (length_append ▸ Nat.le_add_right ..)

lemma drop_insert (h : passed ≤ keys.length) (key : K) :
    (insert keys key).drop passed = keys.drop passed ++ if key ∈ keys then [] else [key] := by
  unfold insert
  split_ifs
  · exact (append_nil _).symm
  · exact drop_append_of_le_length h

section

variable (hnodup : keys.Nodup) (h : passed ≤ keys.length) (key : K)

include hnodup h key

lemma length_erase_take : (erase (keys.take passed) key).length = moved keys passed key := by
  have hlen : (keys.take passed).length = passed := length_take_of_le h
  unfold moved
  split_ifs with hmem
  · have herase : erase (keys.take passed) key = (keys.take passed).erase key := by
      rw [(hnodup.sublist (take_sublist ..)).erase_eq_filter key]
      exact filter_congr fun other _ => by
        rw [Bool.eq_iff_iff, decide_eq_true_iff, bne_iff_ne]
    rw [herase, length_erase_of_mem hmem, hlen]
  · have hall : erase (keys.take passed) key = keys.take passed := by
      refine filter_eq_self.mpr fun other hoth => decide_eq_true ?_
      rintro rfl
      exact hmem hoth
    rw [hall, hlen]

lemma drop_erase :
    (erase keys key).drop (moved keys passed key) = erase (keys.drop passed) key := by
  have hsplit : erase keys key = erase (keys.take passed) key ++ erase (keys.drop passed) key := by
    rw [erase, erase, erase, ← filter_append, take_append_drop]
  rw [hsplit, ← length_erase_take hnodup h key, drop_left]

lemma moved_le : moved keys passed key ≤ (erase keys key).length := by
  rw [← length_erase_take hnodup h key]
  exact ((take_sublist ..).filter _).length_le

end

end MapIterator
