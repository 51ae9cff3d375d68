import CtsEngine.Foundation.IndexRange
import CtsEngine.InlineRedis.Commands

/-!
# Ranges of a list and of a sorted set

`lrange`, `ltrim`, `zrange` and `zrevrange` clip the start of a range, and hand the place after its
last element to `slice`.  That place is negative when `stop` lies more than one place before the
first element, and `slice` then counts it from the end once more.
-/

namespace CtsEngine

open List IndexRange Prod

/-- `start < 0 ? Math.max(0, len + start) : start`. -/
def normalizedStart (len : ℕ) (start : ℤ) : ℤ := if start < 0 then max 0 (len + start) else start

/-- `stop < 0 ? len + stop : stop`. -/
def normalizedStop (len : ℕ) (stop : ℤ) : ℤ := if stop < 0 then len + stop else stop

/-- The slice that `lrange` returns and `ltrim` stores. -/
def listRange (list : List String) (start stop : ℤ) : List String :=
  slice list (normalizedStart list.length start) (normalizedStop list.length stop + 1)

variable (entries : List (String × Double))

/-- The slice of the members in their order that `zrange` and `zrevrange` return. -/
def memberRange (start stop : ℤ) : List String :=
  let stop := if stop < 0 then entries.length + stop + 1 else stop + 1
  (slice entries (if start < 0 then max 0 (entries.length + start) else start) stop).map fst

namespace InlineStore

variable (s : InlineStore)

def lrange (now : ℚ) (key : String) (start stop : ℤ) : List String :=
  listRange ((s.read now .list key).getD []) start stop

/-- `ltrim`: a key keeps its list when nothing remains of it. -/
def ltrim (key : String) (start stop : ℤ) : InlineStore :=
  match s.data .list key with
  | none => s
  | some list => s.put .list key (some (listRange list start stop))

/-- The entries that a sorted-set query sees. -/
def entriesAt (now : ℚ) (key : String) : List (String × Double) :=
  ((s.read now .zset key).getD {}).entries

def zrange (now : ℚ) (key : String) (start stop : ℤ) : List String :=
  memberRange (s.entriesAt now key) start stop

def zrevrange (now : ℚ) (key : String) (start stop : ℤ) : List String :=
  memberRange (s.entriesAt now key).reverse start stop

/-- What `LTRIM` does: the elements of the range stay, and the key goes with the last of them. -/
def trimmed (key : String) (start stop : ℤ) : InlineStore :=
  match s.data .list key with
  | none => s
  | some list =>
    s.put .list key (if closed list start stop = [] then none else some (closed list start stop))

end InlineStore

/-! ## Agreement with the closed ranges -/

lemma normalizedStart_eq (len : ℕ) (start : ℤ) :
    normalizedStart len start = max 0 (place len start) := by
  rw [normalizedStart, place]
  split_ifs with h
  · rfl
  · rw [max_eq_right (not_lt.mp h)]

lemma listRange_eq_closed_iff (list : List String) (start stop : ℤ) :
    listRange list start stop = closed list start stop ↔ ReadsEnd list.length start stop := by
  rw [listRange, normalizedStart_eq]
  exact slice_eq_closed_iff list start stop

lemma memberRange_eq_listRange (start stop : ℤ) :
    memberRange entries start stop = listRange (entries.map fst) start stop := by
  have hstop : (if stop < 0 then (entries.length : ℤ) + stop + 1 else stop + 1) =
      normalizedStop entries.length stop + 1 := by
    rw [normalizedStop]
    split_ifs <;> rfl
  simp only [memberRange, listRange, slice, hstop, normalizedStart, length_map, map_drop, map_take]

lemma memberRange_eq_closed_iff (start stop : ℤ) :
    memberRange entries start stop = closed (entries.map fst) start stop ↔
      ReadsEnd entries.length start stop := by
  rw [memberRange_eq_listRange, listRange_eq_closed_iff, length_map]

namespace InlineStore

lemma put_injective (s : InlineStore) (kind : KeyKind) (key : String)
    {a b : Option (Payload kind)} (h : s.put kind key a = s.put kind key b) : a = b := by
  have hdata := congrFun (congrFun (congrArg InlineStore.data h) kind) key
  simpa [put] using hdata

lemma ltrim_eq_trimmed_iff (s : InlineStore) (key : String) (start stop : ℤ) :
    s.ltrim key start stop = s.trimmed key start stop ↔ ∀ list, s.data .list key = some list →
        ∃ i < list.length, place list.length start ≤ i ∧ (i : ℤ) ≤ place list.length stop := by
  unfold ltrim trimmed
  rcases hdata : s.data .list key with - | list
  · simp
  simp only [Option.some.injEq, forall_eq']
  rw [← closed_ne_nil_iff]
  constructor
  · intro h hnil
    have hput := s.put_injective .list key h
    rw [if_pos hnil] at hput
    cases hput
  · intro hne
    obtain ⟨i, -, hst, hstop⟩ := (closed_ne_nil_iff list start stop).mp hne
    have hreads : ReadsEnd list.length start stop := by
      refine .inl ?_
      rw [place] at hstop
      split_ifs at hstop <;> omega
    rw [if_neg hne, (listRange_eq_closed_iff list start stop).mpr hreads]

/-- Ranges of a list and of a sorted set are the closed ranges exactly when they read their end from
the right side, and a trim is right exactly when a list keeps an element. -/
theorem indexRanges_closed_iff (s : InlineStore) (now : ℚ) (key : String) (start stop : ℤ) :
    (s.lrange now key start stop = closed ((s.read now .list key).getD []) start stop ↔
      ReadsEnd ((s.read now .list key).getD []).length start stop) ∧
    (s.zrange now key start stop = closed ((s.entriesAt now key).map fst) start stop ↔
      ReadsEnd (s.entriesAt now key).length start stop) ∧
    (s.zrevrange now key start stop =
        closed ((s.entriesAt now key).map fst).reverse start stop ↔
      ReadsEnd (s.entriesAt now key).length start stop) ∧
    (s.ltrim key start stop = s.trimmed key start stop ↔ ∀ list, s.data .list key = some list →
        ∃ i < list.length, place list.length start ≤ i ∧ (i : ℤ) ≤ place list.length stop) := by
  refine ⟨listRange_eq_closed_iff _ start stop, memberRange_eq_closed_iff _ start stop, ?_,
    s.ltrim_eq_trimmed_iff key start stop⟩
  rw [zrevrange, ← map_reverse, memberRange_eq_closed_iff, length_reverse]

/-- With two elements, the range from the first to four before the end contains the first. -/
theorem indexRanges_not_closed : ¬ ∀ (s : InlineStore) (now : ℚ) (key : String) (start stop : ℤ),
      s.lrange now key start stop = closed ((s.read now .list key).getD []) start stop ∧
      s.zrange now key start stop = closed ((s.entriesAt now key).map fst) start stop ∧
      s.zrevrange now key start stop =
        closed ((s.entriesAt now key).map fst).reverse start stop ∧
      s.ltrim key start stop = s.trimmed key start stop := by
  intro h
  have hrange := (h (({} : InlineStore).put .list "k" (some ["a", "b"])) 0 "k" 0 (-4)).1
  revert hrange
  decide

end InlineStore

end CtsEngine
