import CtsEngine.Foundation.Keyed
import Mathlib.Data.List.Flatten
import Mathlib.Data.List.Nodup
import Mathlib.Data.List.Perm.Subperm

/-!
# Round robin

Queues that are served in turn: every round takes the next element of each queue that has one left,
until a limit is reached or nothing is left.  A cursor for each queue says how much was taken.
-/

namespace RoundRobin

open List Keyed Prod

variable {K : Type*} {A : Type*} [DecidableEq K]

/-- The cursors, what was chosen, and whether the present round has chosen anything. -/
structure Turn (K : Type*) (A : Type*) where
  cursors : List (K × ℕ)
  chosen : List A
  added : Bool

namespace Turn

/-- How much was taken of a queue. -/
def cursor (s : Turn K A) (k : K) : ℕ := (get? s.cursors k).getD 0

/-- Take an element of a queue. -/
def serve (s : Turn K A) (k : K) (x : A) : Turn K A :=
  ⟨put s.cursors k (s.cursor k + 1), s.chosen ++ [x], true⟩

variable (s : Turn K A) (x : A)

@[simp] lemma cursor_serve_self (k : K) : (s.serve k x).cursor k = s.cursor k + 1 := by
  rw [cursor, serve, get?_put_self, Option.getD_some]

lemma cursor_serve_of_ne {k other : K} (h : other ≠ k) :
    (s.serve k x).cursor other = s.cursor other := by
  rw [cursor, serve, get?_put_of_ne _ _ h]
  rfl

end Turn

/-- One round over the queues that are left in it. -/
def round (limit : ℕ) : List (K × List A) → Turn K A → Turn K A
  | [], s => s
  | (k, queue) :: rest, s =>
    match queue[s.cursor k]? with
    | none => round limit rest s
    | some x =>
      if limit ≤ (s.serve k x).chosen.length then s.serve k x else round limit rest (s.serve k x)

/-- Rounds until the limit is reached or one of them chooses nothing. -/
def rounds (limit : ℕ) (queues : List (K × List A)) : ℕ → Turn K A → Turn K A
  | 0, s => s
  | fuel + 1, s =>
    if s.chosen.length < limit then
      let t := round limit queues { s with added := false }
      if t.added then rounds limit queues fuel t else t
    else s

/-- What the rounds choose.  Every round but the last one chooses something, so that there are no
more rounds than the limit. -/
def roundRobin (limit : ℕ) (queues : List (K × List A)) : List A :=
  (rounds limit queues limit ⟨[], [], false⟩).chosen

variable {keyOf : A → K} {limit r : ℕ} {queues done todo : List (K × List A)} {s t : Turn K A}

/-- The elements chosen are those before the cursors, in the order of each queue. -/
structure Serves (keyOf : A → K) (queues : List (K × List A)) (s : Turn K A) : Prop where
  perm : s.chosen.Perm (queues.flatMap fun entry => entry.2.take (s.cursor entry.1))
  inOrder : ∀ entry ∈ queues, s.chosen.filter (keyOf · = entry.1) = entry.2.take (s.cursor entry.1)

lemma serves_nil (keyOf : A → K) (queues : List (K × List A)) (added : Bool) :
    Serves keyOf queues ⟨[], [], added⟩ where
  perm := by simp [Turn.cursor, get?]
  inOrder _ _ := by simp [Turn.cursor, get?]

lemma Serves.serve (hs : Serves keyOf queues s) (hnodup : (queues.map fst).Nodup)
    (hkeys : ∀ entry ∈ queues, ∀ x ∈ entry.2, keyOf x = entry.1) {entry : K × List A} {x : A}
    (hent : entry ∈ queues) (hx : entry.2[s.cursor entry.1]? = some x) :
    Serves keyOf queues (s.serve entry.1 x) := by
  have hsame : ∀ other ∈ queues, other.1 = entry.1 → other = entry := fun other hoth =>
    inj_on_of_nodup_map hnodup hoth hent
  have htake : entry.2.take (s.cursor entry.1 + 1) = entry.2.take (s.cursor entry.1) ++ [x] := by
    rw [take_add_one, hx, Option.toList_some]
  have hkey : keyOf x = entry.1 := hkeys entry hent x (mem_of_getElem? hx)
  refine ⟨?_, fun other hoth => ?_⟩
  · obtain ⟨before, after, rfl⟩ := append_of_mem hent
    have hapart : ∀ other ∈ before ++ after, (s.serve entry.1 x).cursor other.1 =
        s.cursor other.1 := by
      intro other hoth
      refine s.cursor_serve_of_ne x fun heq => ?_
      rw [map_append, map_cons, nodup_middle, nodup_cons, ← map_append] at hnodup
      exact hnodup.1 (heq ▸ mem_map_of_mem hoth)
    have hold : ∀ part, part ⊆ before ++ after →
        (part.flatMap fun other => other.2.take ((s.serve entry.1 x).cursor other.1)) =
          part.flatMap fun other => other.2.take (s.cursor other.1) := by
      intro part hpart
      exact flatMap_congr fun other hoth => by rw [hapart other (hpart hoth)]
    have hperm := hs.perm
    rw [flatMap_append, flatMap_cons] at hperm ⊢
    rw [hold before (subset_append_left ..), hold after (subset_append_right ..),
      Turn.cursor_serve_self, htake]
    refine (hperm.append_right [x]).trans ?_
    rw [append_assoc, append_assoc, append_assoc]
    exact List.Perm.append_left _ (List.Perm.append_left _ perm_append_comm)
  · change (s.chosen ++ [x]).filter _ = _
    rw [filter_append, hs.inOrder other hoth]
    by_cases heq : other.1 = entry.1
    · obtain rfl := hsame other hoth heq
      rw [Turn.cursor_serve_self, htake, filter_cons_of_pos (by simp [hkey]), filter_nil]
    · rw [s.cursor_serve_of_ne x heq, filter_cons_of_neg (by simp [hkey, Ne.symm heq]),
        filter_nil, append_nil]

/-! ## Rounds -/

/-- In the middle of a round, the queues that were served have been so once more than the others,
as far as they go. -/
structure Level (r : ℕ) (done todo : List (K × List A)) (s : Turn K A) : Prop where
  served : ∀ entry ∈ done, s.cursor entry.1 = min (r + 1) entry.2.length
  waiting : ∀ entry ∈ todo, s.cursor entry.1 = min r entry.2.length

lemma Level.next {entry : K × List A} (hlvl : Level r done (entry :: todo) s)
    (hnodup : ((done ++ entry :: todo).map fst).Nodup)
    (hsame : ∀ other, other ≠ entry.1 → t.cursor other = s.cursor other)
    (hcurso : t.cursor entry.1 = min (r + 1) entry.2.length) :
    Level r (done ++ [entry]) todo t := by
  rw [map_append, map_cons, nodup_middle, nodup_cons, ← map_append]
    at hnodup
  have hoth : ∀ other ∈ done ++ todo, t.cursor other.1 = s.cursor other.1 := fun other hmem =>
    hsame _ fun heq => hnodup.1 (heq ▸ mem_map_of_mem hmem)
  constructor
  · intro other hmem
    rcases mem_append.mp hmem with hdone | hlast
    · rw [hoth other (mem_append_left _ hdone)]
      exact hlvl.served other hdone
    · rw [mem_singleton.mp hlast]
      exact hcurso
  · intro other hmem
    rw [hoth other (mem_append_right _ hmem)]
    exact hlvl.waiting other (mem_cons_of_mem _ hmem)

/-- What a round leaves: `done` was served in it, and `todo` is not empty only at the limit. -/
structure AfterRound (keyOf : A → K) (limit r : ℕ) (queues todo : List (K × List A))
    (s t : Turn K A) : Prop where
  serves : Serves keyOf queues t
  level : ∃ done left, done ++ left = queues ∧ Level r done left t ∧
    (t.chosen.length < limit → left = [])
  le_limit : t.chosen.length ≤ limit
  longer : s.chosen.length ≤ t.chosen.length
  added : t.added = true → s.added = true ∨ s.chosen.length < t.chosen.length
  exhausted : t.added = false → t = s ∧ ∀ entry ∈ todo, s.cursor entry.1 = entry.2.length

/-- **A round** serves the queues that are left in it, up to the limit. -/
lemma round_spec (hkeys : ∀ entry ∈ done ++ todo, ∀ x ∈ entry.2, keyOf x = entry.1)
    (hnodup : ((done ++ todo).map fst).Nodup) (hs : Serves keyOf (done ++ todo) s)
    (hlvl : Level r done todo s) (hlt : s.chosen.length < limit) :
    AfterRound keyOf limit r (done ++ todo) todo s (round limit todo s) := by
  induction todo generalizing done s with
  | nil =>
    exact ⟨hs, ⟨done, [], rfl, hlvl, fun _ => rfl⟩, hlt.le, le_rfl, .inl,
      fun _ => ⟨rfl, fun _ => nofun⟩⟩
  | cons entry rest ih =>
    have hassoc : done ++ entry :: rest = (done ++ [entry]) ++ rest := by simp
    have hwait := hlvl.waiting entry (mem_cons_self ..)
    rw [round]
    cases hx : entry.2[s.cursor entry.1]? with
    | none =>
      have hlen := List.getElem?_eq_none_iff.mp hx
      have hnext := hlvl.next hnodup (t := s) (fun _ _ => rfl) (by omega)
      rw [hassoc] at hs hkeys hnodup ⊢
      have hafter := ih hkeys hnodup hs hnext hlt
      refine { hafter with exhausted := fun hadded => ?_ }
      obtain ⟨hsame, hrest⟩ := hafter.exhausted hadded
      refine ⟨hsame, fun other hoth => ?_⟩
      rcases mem_cons.mp hoth with rfl | hmem
      · omega
      · exact hrest other hmem
    | some x =>
      dsimp only
      have hlen := (List.getElem?_eq_some_iff.mp hx).1
      have hnext := hlvl.next hnodup (t := s.serve entry.1 x)
        (fun other hoth => s.cursor_serve_of_ne x hoth)
        (by rw [Turn.cursor_serve_self]; omega)
      have hserv := hs.serve hnodup hkeys (mem_append_right _ (mem_cons_self ..)) hx
      have hchos : (s.serve entry.1 x).chosen.length = s.chosen.length + 1 := length_append
      rw [hassoc] at hkeys hnodup hserv ⊢
      split_ifs with hlimit
      · exact ⟨hserv, ⟨done ++ [entry], rest, rfl, hnext, fun hless => absurd hless (by omega)⟩,
          by omega, by omega, fun _ => .inr (by omega), nofun⟩
      · have hafter := ih hkeys hnodup hserv hnext (by omega)
        have hlong := hafter.longer
        refine { hafter with
          longer := by omega
          added := fun _ => .inr (by omega)
          exhausted := fun hadded => ?_ }
        have hserve := (hafter.exhausted hadded).1
        rw [hserve] at hadded
        cases hadded

lemma rounds_of_full {fuel : ℕ} (hfull : limit ≤ s.chosen.length) :
    rounds limit queues fuel s = s := by
  cases fuel with
  | zero => rfl
  | succ fuel => exact if_neg (not_lt.mpr hfull)

lemma rounds_spec (hkeys : ∀ entry ∈ queues, ∀ x ∈ entry.2, keyOf x = entry.1)
    (hnodup : (queues.map fst).Nodup) (fuel : ℕ) (hs : Serves keyOf queues s)
    (hlvl : Level r [] queues s) (hle : s.chosen.length ≤ limit)
    (hfuel : limit ≤ s.chosen.length + fuel) :
    let t := rounds limit queues fuel s
    Serves keyOf queues t ∧ (∃ r done left, done ++ left = queues ∧ Level r done left t) ∧
      t.chosen.length ≤ limit ∧
      (t.chosen.length < limit → ∀ entry ∈ queues, t.cursor entry.1 = entry.2.length) := by
  induction fuel generalizing r s with
  | zero =>
    exact ⟨hs, ⟨r, [], queues, rfl, hlvl⟩, hle, fun hless => absurd hless (not_lt.mpr hfuel)⟩
  | succ fuel ih =>
    rw [rounds]
    split_ifs with hlt
    · have hfresh : Serves keyOf ([] ++ queues) { s with added := false } := ⟨hs.perm, hs.inOrder⟩
      have hst : Level r [] queues { s with added := false } := ⟨hlvl.served, hlvl.waiting⟩
      have hafter : AfterRound keyOf limit r ([] ++ queues) queues { s with added := false }
          (round limit queues { s with added := false }) :=
        round_spec hkeys hnodup hfresh hst hlt
      dsimp only
      generalize round limit queues { s with added := false } = t at hafter ⊢
      obtain ⟨done, left, heq, hdone, hleft⟩ := hafter.level
      cases hadded : t.added with
      | false =>
        refine ⟨hafter.serves, ⟨r, done, left, heq, hdone⟩, hafter.le_limit, fun _ => ?_⟩
        obtain ⟨rfl, hexh⟩ := hafter.exhausted hadded
        exact hexh
      | true =>
        have hlong : s.chosen.length < t.chosen.length := by
          rcases hafter.added hadded with hold | hless
          · cases hold
          · exact hless
        rcases hafter.le_limit.lt_or_eq with hless | hfull
        · obtain rfl := hleft hless
          obtain rfl : done = queues := by simpa using heq
          exact ih hafter.serves ⟨nofun, hdone.served⟩ hless.le (by omega)
        · rw [rounds_of_full hfull.ge]
          exact ⟨hafter.serves, ⟨r, done, left, heq, hdone⟩, hafter.le_limit,
            fun hless => absurd hless hfull.not_lt⟩
    · exact ⟨hs, ⟨r, [], queues, rfl, hlvl⟩, hle, fun hless => absurd hless hlt⟩

/-- A fair choice from queues: as many elements as the limit allows, the first ones of each queue,
and no queue more than one ahead of a queue that has something left. -/
structure Fair (keyOf : A → K) (limit : ℕ) (queues : List (K × List A)) (chosen : List A) :
    Prop where
  length : chosen.length = min limit (queues.flatMap snd).length
  subperm : chosen.Subperm (queues.flatMap snd)
  first : ∀ entry ∈ queues, chosen.filter (keyOf · = entry.1) <+: entry.2
  even : ∀ entry ∈ queues, ∀ other ∈ queues,
    (chosen.filter (keyOf · = entry.1)).length + 1 < (chosen.filter (keyOf · = other.1)).length →
      chosen.filter (keyOf · = entry.1) = entry.2

/-- **Round robin is fair.** -/
theorem roundRobin_fair (hkeys : ∀ entry ∈ queues, ∀ x ∈ entry.2, keyOf x = entry.1)
    (hnodup : (queues.map fst).Nodup) :
    Fair keyOf limit queues (roundRobin limit queues) := by
  have hst : Level 0 [] queues (⟨[], [], false⟩ : Turn K A) :=
    ⟨nofun, fun entry _ => (Nat.zero_min _).symm⟩
  obtain ⟨hserv, ⟨r, done, left, heq, hlvl⟩, hle, hexh⟩ :=
    rounds_spec hkeys hnodup limit (serves_nil keyOf queues false) hst (Nat.zero_le limit)
      (Nat.le_add_left limit _)
  rw [roundRobin]
  generalize rounds limit queues limit ⟨[], [], false⟩ = t at *
  have hcurso : ∀ entry ∈ queues, t.cursor entry.1 = min (r + 1) entry.2.length ∨
      t.cursor entry.1 = min r entry.2.length := by
    intro entry hent
    rcases mem_append.mp (heq ▸ hent) with hdone | hleft
    · exact .inl (hlvl.served entry hdone)
    · exact .inr (hlvl.waiting entry hleft)
  have hlen : ∀ entry ∈ queues,
      (t.chosen.filter (keyOf · = entry.1)).length = t.cursor entry.1 := by
    intro entry hent
    rw [hserv.inOrder entry hent, length_take]
    have := hcurso entry hent
    omega
  have hsubl : (queues.flatMap fun entry => entry.2.take (t.cursor entry.1)).Sublist
      (queues.flatMap snd) :=
    .flatMap_right queues fun _ _ => take_sublist _ _
  refine ⟨?_, ⟨_, hserv.perm.symm, hsubl⟩, ?_, ?_⟩
  · rcases hle.lt_or_eq with hless | hfull
    · have hall : (queues.flatMap fun entry => entry.2.take (t.cursor entry.1)) =
          queues.flatMap snd :=
        flatMap_congr fun entry hent => by
          rw [hexh hless entry hent, take_length]
      have htot := hserv.perm.length_eq
      rw [hall] at htot
      omega
    · have htot := hserv.perm.length_eq.trans_le hsubl.length_le
      omega
  · intro entry hent
    rw [hserv.inOrder entry hent]
    exact take_prefix _ _
  · intro entry hent other hoth hless
    rw [hlen entry hent, hlen other hoth] at hless
    rw [hserv.inOrder entry hent, take_eq_self_iff]
    have hhere := hcurso entry hent
    have hthere := hcurso other hoth
    omega

end RoundRobin
