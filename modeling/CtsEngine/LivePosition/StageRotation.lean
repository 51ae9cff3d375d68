import CtsEngine.Concurrency.Pools
import Mathlib.Data.List.Induction

/-!
# The rotation of paper positions

A stage holds the open paper positions of a connection and a cursor.  A tick picks the rows behind
the cursor and moves the cursor past them; a picked row that is closed afterwards is taken out of
the list, and the rows behind it move up.  A row that stands at the cursor then falls behind it and
waits for the next sweep.
-/

namespace CtsEngine.StageRotation

open List Prod Nat

/-- A stage, as `simulatedPositionStages` holds it. -/
structure Stage (P : Type) where
  positions : List P
  cursor : ℕ

variable {P I : Type} [DecidableEq I] (id : P → I) (terminal : P → Bool)

/-- `SIMULATED_POSITION_STAGE_BATCH_SIZE`. -/
def batchSize : ℕ := 96

/-- The limit of a tick over `n` rows, with the number that the environment has for it. -/
def stageLimit (raw : Double) (n : ℕ) : ℕ := clampConcurrency raw batchSize 256 n

/-- The ids of the rows. -/
def Stage.ids (s : Stage P) : List I := s.positions.map id

/-- `updateSimulatedPositionStageRow`. -/
def updateRow (s : Stage P) (position : P) : Stage P :=
  let index := (s.ids id).idxOf (id position)
  let positions :=
    if terminal position then s.positions.eraseIdx index
    else if index < s.positions.length then s.positions.set index position
    else position :: s.positions
  ⟨positions, if 0 < positions.length then s.cursor % positions.length else 0⟩

/-- `selectSimulatedPositionStageRows`. -/
def selectRows (raw : Double) (s : Stage P) : List P × Stage P :=
  let n := s.positions.length
  if n ≤ batchSize then (s.positions, s)
  else
    let limit := stageLimit raw n
    let cursor := s.cursor % n
    ((List.range limit).filterMap fun offset => s.positions[(cursor + offset) % n]?,
      ⟨s.positions, (cursor + limit) % n⟩)

/-- The rows that ticks pick, each tick with the updates after it. -/
def picks (raw : Double) : Stage P → List (List P) → List (List P)
  | _, [] => []
  | s, updates :: ticks =>
    (selectRows raw s).1 ::
      picks raw (updates.foldl (updateRow id terminal) (selectRows raw s).2) ticks

/-- Updates after a tick, each of a picked row that the stage still holds and none of which closes
the row `i`. -/
def Updates (picked : List I) (i : I) : Stage P → List P → Prop
  | _, [] => True
  | s, position :: updates =>
    (id position ∈ picked ∧ id position ∈ s.ids id ∧ (terminal position = true → id position ≠ i)) ∧
      Updates picked i (updateRow id terminal s position) updates

/-- No update closes a row before the cursor while the row `i` stands at the cursor. -/
def KeepsPlace (i : I) : Stage P → List P → Prop
  | _, [] => True
  | s, position :: updates =>
    ¬ (terminal position = true ∧ (s.ids id).idxOf (id position) < s.cursor ∧
      (s.ids id).idxOf i = s.cursor) ∧ KeepsPlace i (updateRow id terminal s position) updates

/-- A condition on the rows that a tick picks, the stage after it and the updates that follow, for
every tick of a run. -/
def EachTick (raw : Double) (C : List P → Stage P → List P → Prop) : Stage P → List (List P) → Prop
  | _, [] => True
  | s, updates :: ticks =>
    C (selectRows raw s).1 (selectRows raw s).2 updates ∧
      EachTick raw C (updates.foldl (updateRow id terminal) (selectRows raw s).2) ticks

/-- The ticks of a sweep over the rows of a stage. -/
def sweepTicks (raw : Double) (s : Stage P) : ℕ :=
  let limit := stageLimit raw s.positions.length
  (s.positions.length + limit - 1) / limit

/-! ## The way to a row -/

instance (picked : List I) (i : I) : ∀ (s : Stage P) (updates : List P),
    Decidable (Updates id terminal picked i s updates)
  | _, [] => .isTrue trivial
  | s, position :: updates =>
    have := instDecidableUpdates picked i (updateRow id terminal s position) updates
    inferInstanceAs (Decidable (_ ∧ _))

/-- How far a row is from the cursor, going on at the start after the end. -/
def ahead (cursor n index : ℕ) : ℕ := if cursor ≤ index then index - cursor else index + n - cursor

/-- How far a row is from the cursor of a stage. -/
def Stage.ahead (s : Stage P) (i : I) : ℕ :=
  StageRotation.ahead (s.cursor % s.positions.length) s.positions.length ((s.ids id).idxOf i)

section Numbers

variable {cursor n index : ℕ} (hcursor : cursor < n) (hindex : index < n)
include hindex

lemma ahead_lt : ahead cursor n index < n := by
  unfold ahead
  split <;> omega

include hcursor

lemma ahead_advance {limit : ℕ} (hfar : limit ≤ ahead cursor n index) :
    ahead ((cursor + limit) % n) n index + limit = ahead cursor n index := by
  have hlt : ahead cursor n index < n := ahead_lt hindex
  rcases lt_or_ge (cursor + limit) n with hbef | hrnd
  · rw [mod_eq_of_lt hbef]
    unfold ahead at *
    split_ifs at * <;> omega
  · rw [mod_eq_sub_mod hrnd, mod_eq_of_lt (by omega)]
    unfold ahead at *
    split_ifs at * <;> omega

lemma ahead_erase {j : ℕ} (hj : j < n) (hne : j ≠ index)
    (hkeeps : ¬ (j < cursor ∧ index = cursor)) :
    ahead (cursor % (n - 1)) (n - 1) (if j < index then index - 1 else index) ≤
      ahead cursor n index := by
  rcases lt_or_ge cursor (n - 1) with hbef | hend
  · rw [mod_eq_of_lt hbef]
    unfold ahead
    split_ifs <;> omega
  · -- a cursor at the end goes on at the start
    obtain rfl : cursor = n - 1 := by omega
    rw [mod_self]
    unfold ahead
    split_ifs <;> omega

end Numbers

variable {id terminal} {s : Stage P} {i : I} {raw : Double} {position : P} {updates : List P}

lemma stageLimit_eq {n : ℕ} (hn : 0 < n) : stageLimit raw n = min (stageLimit raw 256) n := by
  unfold stageLimit clampConcurrency
  dsimp only
  omega

omit [DecidableEq I] in
lemma length_ids : (s.ids id).length = s.positions.length := length_map _

lemma idxOf_erase {a : I} {l : List I} (ha : a ≠ i) :
    (l.erase a).idxOf i = if l.idxOf a < l.idxOf i then l.idxOf i - 1 else l.idxOf i := by
  induction l with
  | nil => simp
  | cons b l ih =>
    by_cases hba : b = a
    · rw [hba, erase_cons_head, idxOf_cons_self, idxOf_cons_ne _ ha]
      simp
    by_cases hbi : b = i
    · rw [erase_cons_tail (by simpa using hba), hbi, idxOf_cons_self,
        idxOf_cons_self, if_neg (not_lt_zero _)]
    · have hback : l.idxOf a < l.idxOf i → 0 < l.idxOf i := zero_lt_of_lt
      rw [erase_cons_tail (by simpa using hba), idxOf_cons_ne _ hbi,
        idxOf_cons_ne _ hbi, idxOf_cons_ne _ hba, ih]
      split <;> split <;> omega

/-- What an update does to the ids: only a row that is closed goes. -/
lemma ids_updateRow (hmem : id position ∈ s.ids id) : (updateRow id terminal s position).ids id =
    if terminal position then (s.ids id).erase (id position) else s.ids id := by
  have hindex := idxOf_lt_length_of_mem hmem
  unfold updateRow
  dsimp only
  rw [Stage.ids]
  split
  · rw [← eraseIdx_map, ← Stage.ids, eraseIdx_idxOf_eq_erase]
  · rw [if_pos (hindex.trans_eq length_ids), map_set]
    have hself := set_getElem_self hindex
    rwa [getElem_idxOf hindex] at hself

/-- The rows that are picked are those up to the limit from the cursor on. -/
lemma mem_selectRows (hmem : i ∈ s.ids id)
    (hahead : s.ahead id i < stageLimit raw 256) : i ∈ (selectRows raw s).1.map id := by
  have hindex := idxOf_lt_length_of_mem hmem
  have hlen := hindex.trans_eq length_ids
  have hrow : id s.positions[(s.ids id).idxOf i] = i :=
    (getElem_map id).symm.trans (getElem_idxOf hindex)
  unfold selectRows
  dsimp only
  split
  · exact hmem
  · have hcursor := mod_lt s.cursor (zero_lt_of_lt hlen)
    have hplace : (s.cursor % s.positions.length + s.ahead id i) % s.positions.length =
        (s.ids id).idxOf i := by
      unfold Stage.ahead ahead
      split
      · rw [Nat.add_sub_cancel' ‹_›, Nat.mod_eq_of_lt hlen]
      · rw [Nat.add_sub_cancel' (by omega), Nat.add_mod_right, Nat.mod_eq_of_lt hlen]
    refine mem_map.mpr ⟨_, mem_filterMap.mpr ⟨s.ahead id i, ?_, ?_⟩, hrow⟩
    · rw [mem_range, stageLimit_eq (zero_lt_of_lt hlen)]
      exact lt_min hahead (ahead_lt hlen)
    · rw [hplace]
      exact getElem?_eq_getElem hlen

/-- An update brings a row nearer to the cursor or leaves it where it is, unless it pushes it back
over the cursor. -/
lemma ahead_updateRow (hmem : i ∈ s.ids id) (hcursor : s.cursor < s.positions.length)
    (hpres : id position ∈ s.ids id) (hoth : terminal position = true → id position ≠ i)
    (hkeeps : ¬ (terminal position = true ∧ (s.ids id).idxOf (id position) < s.cursor ∧
      (s.ids id).idxOf i = s.cursor)) :
    let next := updateRow id terminal s position
    i ∈ next.ids id ∧ next.cursor < next.positions.length ∧ next.ahead id i ≤ s.ahead id i := by
  intro next
  have hids : next.ids id = _ := ids_updateRow hpres
  have hstays : i ∈ next.ids id := by
    rw [hids]
    split
    · exact (mem_erase_of_ne (hoth ‹_›).symm).mpr hmem
    · exact hmem
  have hindex := (idxOf_lt_length_of_mem hstays).trans_eq length_ids
  have hold := (idxOf_lt_length_of_mem hmem).trans_eq length_ids
  have hnext : next.cursor = s.cursor % next.positions.length := if_pos (zero_lt_of_lt hindex)
  refine ⟨hstays, hnext ▸ mod_lt _ (zero_lt_of_lt hindex), ?_⟩
  have hlen : next.positions.length =
      if terminal position then s.positions.length - 1 else s.positions.length := by
    rw [← show (next.ids id).length = _ from length_ids, hids]
    split
    · rw [length_erase_of_mem hpres, length_ids]
    · exact length_ids
  unfold Stage.ahead
  rw [hnext, hids, mod_mod, mod_eq_of_lt hcursor]
  by_cases hterm : terminal position = true
  · rw [if_pos hterm] at hlen ⊢
    have hplace := idxOf_erase (i := i) (l := s.ids id) (hoth hterm)
    have hne : (s.ids id).idxOf (id position) ≠ (s.ids id).idxOf i := fun heq =>
      hoth hterm (idxOf_inj hpres |>.mp heq)
    have hback := (idxOf_lt_length_of_mem hpres).trans_eq length_ids
    rw [hplace, hlen]
    exact ahead_erase hcursor hold hback hne fun h => hkeeps ⟨hterm, h⟩
  · rw [if_neg hterm] at hlen ⊢
    rw [hlen, mod_eq_of_lt hcursor]

/-! ## Runs -/

lemma ahead_updates {picked : List I} (hmem : i ∈ s.ids id)
    (hcursor : s.cursor < s.positions.length)
    (hupdat : Updates id terminal picked i s updates)
    (hkeeps : KeepsPlace id terminal i s updates) :
    let next := updates.foldl (updateRow id terminal) s
    i ∈ next.ids id ∧ next.cursor < next.positions.length ∧ next.ahead id i ≤ s.ahead id i := by
  induction updates generalizing s with
  | nil => exact ⟨hmem, hcursor, le_rfl⟩
  | cons position updates ih =>
    obtain ⟨⟨-, hpres, hoth⟩, hupdat⟩ := hupdat
    obtain ⟨hstays, hnext, hle⟩ := ahead_updateRow hmem hcursor hpres hoth hkeeps.1
    obtain ⟨hmem', hcurso', hle'⟩ := ih hstays hnext hupdat hkeeps.2
    exact ⟨hmem', hcurso', hle'.trans hle⟩

/-- A row that a tick does not pick is nearer to the cursor by the limit afterwards. -/
lemma ahead_selectRows (hmem : i ∈ s.ids id) (hnot : i ∉ (selectRows raw s).1.map id) :
    let next := (selectRows raw s).2
    i ∈ next.ids id ∧ next.cursor < next.positions.length ∧
      next.ahead id i + stageLimit raw 256 = s.ahead id i := by
  have hlen := (idxOf_lt_length_of_mem hmem).trans_eq length_ids
  have hfar := le_of_not_gt fun h => hnot (mem_selectRows hmem h)
  have hlimit : stageLimit raw _ = _ := stageLimit_eq (zero_lt_of_lt hlen)
  have hahead : s.ahead id i < s.positions.length := ahead_lt hlen
  have hcursor := mod_lt s.cursor (zero_lt_of_lt hlen)
  unfold selectRows at hnot ⊢
  dsimp only at hnot ⊢
  split at hnot
  · exact absurd hmem hnot
  rw [if_neg ‹_›]
  refine ⟨hmem, mod_lt _ (zero_lt_of_lt hlen), ?_⟩
  rw [hlimit, min_eq_left (hfar.trans hahead.le)]
  unfold Stage.ahead
  dsimp only
  rw [mod_mod]
  exact ahead_advance hcursor hlen hfar

lemma picked_of_ahead_lt {ticks : List (List P)} (hmem : i ∈ s.ids id)
    (hupdat : EachTick id terminal raw (fun rows => Updates id terminal (rows.map id) i) s ticks)
    (hkeeps : EachTick id terminal raw (fun _ => KeepsPlace id terminal i) s ticks)
    (hahead : s.ahead id i < ticks.length * stageLimit raw 256) :
    ∃ rows ∈ picks id terminal raw s ticks, i ∈ rows.map id := by
  induction ticks generalizing s with
  | nil => simp at hahead
  | cons updates ticks ih =>
    by_cases hpick : i ∈ (selectRows raw s).1.map id
    · exact ⟨_, mem_cons_self, hpick⟩
    obtain ⟨hstays, hcursor, hnear⟩ := ahead_selectRows hmem hpick
    obtain ⟨hmem', -, hle⟩ := ahead_updates hstays hcursor hupdat.1 hkeeps.1
    rw [length_cons, succ_mul] at hahead
    obtain ⟨rows, hrows, hi⟩ := ih hmem' hupdat.2 hkeeps.2 (by omega)
    exact ⟨rows, mem_cons_of_mem _ hrows, hi⟩

/-- **Rotation.**  A row that stays open is picked within one sweep if no row before the cursor is
closed while it stands at the cursor. -/
theorem picked_within_sweep {P I : Type} [DecidableEq I] (id : P → I) (terminal : P → Bool)
    (raw : Double) (s : Stage P) (i : I) (ticks : List (List P)) (hmem : i ∈ s.ids id)
    (hupdat : EachTick id terminal raw (fun rows => Updates id terminal (rows.map id) i) s ticks)
    (hkeeps : EachTick id terminal raw (fun _ => KeepsPlace id terminal i) s ticks)
    (hticks : ticks.length = sweepTicks raw s) :
    ∃ rows ∈ picks id terminal raw s ticks, i ∈ rows.map id := by
  have hlen := (idxOf_lt_length_of_mem hmem).trans_eq length_ids
  refine picked_of_ahead_lt hmem hupdat hkeeps (lt_of_lt_of_le (ahead_lt hlen) ?_)
  have hlimit : stageLimit raw _ = _ := stageLimit_eq (zero_lt_of_lt hlen)
  have hpos : 0 < stageLimit raw s.positions.length := clampConcurrency_pos ..
  rw [hticks, sweepTicks]
  have hceil := lt_div_mul_add hpos
    (a := s.positions.length + stageLimit raw s.positions.length - 1)
  refine le_trans ?_ (mul_le_mul_left _ (hlimit ▸ min_le_left _ _))
  omega

/-- A row of a stage with ids from 0 on, open or closed. -/
def numbered (n : ℕ) : List (ℕ × Bool) := (List.range n).map fun i => (i, false)

/-- Rows from an index on, closed. -/
def closedRows (first n : ℕ) : List (ℕ × Bool) := (List.range n).map fun i => (first + i, true)

/-- A row is picked in the second of two ticks, after a row that stands before the cursor is closed.
-/
theorem picked_within_sweep_closed :
    ∃ rows ∈ picks fst snd (.finite 50) ⟨numbered 100, 0⟩ [closedRows 0 1, []],
      70 ∈ rows.map fst :=
  picked_within_sweep fst snd (.finite 50) ⟨numbered 100, 0⟩ 70 [closedRows 0 1, []]
    (by decide +kernel) ⟨by decide +kernel, by decide +kernel, trivial⟩
    ⟨⟨by decide +kernel, trivial⟩, trivial, trivial⟩ (by decide +kernel)

/-- Of 192 rows, the row 142 is not picked in three ticks. -/
theorem not_picked_skipped :
    ¬ ∀ (raw : Double) (s : Stage (ℕ × Bool)) (i : ℕ) (ticks : List (List (ℕ × Bool))),
      i ∈ s.ids fst →
      EachTick fst snd raw (fun rows => Updates fst snd (rows.map fst) i) s
        ticks →
      ticks.length = sweepTicks raw s + 1 →
      ∃ rows ∈ picks fst snd raw s ticks, i ∈ rows.map fst := by
  intro h
  have hpick := h .nan ⟨numbered 192, 0⟩ 142 [closedRows 0 48, closedRows 48 47, []]
    (by decide +kernel) ⟨by decide +kernel, by decide +kernel, trivial, trivial⟩ (by decide +kernel)
  revert hpick
  decide +kernel

/-- A row of the stage comes from before the update, or is the updated one. -/
lemma mem_updateRow (hnodup : (s.ids id).Nodup) :
    ((updateRow id terminal s position).ids id).Nodup ∧
      ∀ row, row ∈ (updateRow id terminal s position).positions ↔
        id row ≠ id position ∧ row ∈ s.positions ∨ row = position ∧ terminal position = false := by
  by_cases hmem : id position ∈ s.ids id
  · refine ⟨?_, fun row => ?_⟩
    · rw [ids_updateRow hmem]
      split
      · exact hnodup.erase _
      · exact hnodup
    obtain ⟨first, last, hids, hnew⟩ := eq_append_cons_of_mem hmem
    obtain ⟨before, rest, hrows, hfirst, hrest⟩ := map_eq_append_iff.mp hids
    obtain ⟨old, after, rfl, hold, hafter⟩ := map_eq_cons_iff.mp hrest
    have hindex : (s.ids id).idxOf (id position) = before.length := by
      rw [hids, idxOf_append_of_notMem hnew, idxOf_cons_self, ← hfirst, length_map, add_zero]
    have hlater : id position ∉ last := by
      rw [hids, nodup_append, nodup_cons] at hnodup
      exact hnodup.2.1.1
    have hbefore : ∀ other ∈ before ++ after, id other ≠ id position := by
      intro other hother heq
      rcases mem_append.mp hother with hother | hother
      · exact hnew (hfirst ▸ heq ▸ mem_map_of_mem hother)
      · exact hlater (hafter ▸ heq ▸ mem_map_of_mem hother)
    unfold updateRow
    dsimp only
    rw [hindex, hrows]
    cases hterm : terminal position <;> simp [eraseIdx_append] <;> grind
  · have hindex : s.positions.length ≤ (s.ids id).idxOf (id position) :=
      (idxOf_eq_length hmem).trans length_ids |>.ge
    have hother : ∀ row ∈ s.positions, id row ≠ id position := fun row hrow heq =>
      hmem (heq ▸ mem_map_of_mem hrow)
    unfold updateRow
    dsimp only
    rw [eraseIdx_of_length_le hindex, if_neg hindex.not_gt]
    cases hterm : terminal position
    · exact ⟨nodup_cons.mpr ⟨hmem, hnodup⟩, fun row => by simp; grind⟩
    · exact ⟨hnodup, fun row => by simp; grind⟩

variable (id terminal) in
/-- The stage after ticks, each with the updates after it. -/
def afterTicks (raw : Double) (s : Stage P) (ticks : List (List P)) : Stage P :=
  ticks.foldl (fun s updates => updates.foldl (updateRow id terminal) (selectRows raw s).2) s

variable (id terminal) in
/-- The row is open and the last version of its id among updates, or it is in the stage and there is
no update of its id. -/
def IsLatest (s : Stage P) (updates : List P) (row : P) : Prop :=
  match (updates.filter fun position => id position = id row).getLast? with
  | some position => row = position ∧ terminal position = false
  | none => row ∈ s.positions

lemma mem_updates (hnodup : (s.ids id).Nodup) (updates : List P) :
    ((updates.foldl (updateRow id terminal) s).ids id).Nodup ∧ ∀ row,
      row ∈ (updates.foldl (updateRow id terminal) s).positions ↔
        IsLatest id terminal s updates row := by
  induction updates using reverseRecOn with
  | nil => exact ⟨hnodup, fun row => Iff.rfl⟩
  | append_singleton updates position ih =>
    rw [foldl_append]
    refine ⟨(mem_updateRow ih.1).1, fun row => ((mem_updateRow ih.1).2 row).trans ?_⟩
    rw [ih.2 row, IsLatest, IsLatest, filter_append, getLast?_append]
    by_cases hid : id position = id row
    · simp [hid]
    · have hne : row ≠ position := fun heq => hid (heq ▸ rfl)
      simp [hid, hne, Ne.symm hid]

/-- **The stage is a map.**  After any ticks and updates a row stands in the stage exactly when it
is open and the last version of its id, and no id stands in it twice; a tick picks from these rows.
-/
theorem mem_afterTicks_iff (raw : Double) (s : Stage P) (ticks : List (List P))
    (hnodup : (s.ids id).Nodup) :
    ((afterTicks id terminal raw s ticks).ids id).Nodup ∧
      (∀ row, row ∈ (afterTicks id terminal raw s ticks).positions ↔
        IsLatest id terminal s ticks.flatten row) ∧
      (selectRows raw (afterTicks id terminal raw s ticks)).1 ⊆
        (afterTicks id terminal raw s ticks).positions := by
  have hkept : ∀ s : Stage P, (selectRows raw s).2.positions = s.positions := by
    intro s
    unfold selectRows
    dsimp only
    split <;> rfl
  have hpicked : ∀ s : Stage P, (selectRows raw s).1 ⊆ s.positions := by
    intro s row hrow
    unfold selectRows at hrow
    dsimp only at hrow
    split at hrow
    · exact hrow
    · obtain ⟨offset, -, hat⟩ := mem_filterMap.mp hrow
      exact mem_of_getElem? hat
  rw [← and_assoc]
  refine ⟨?_, hpicked _⟩
  induction ticks generalizing s with
  | nil => exact ⟨hnodup, fun row => Iff.rfl⟩
  | cons updates ticks ih =>
    have hnodup' : ((selectRows raw s).2.ids id).Nodup := by rwa [Stage.ids, hkept]
    obtain ⟨hnext, hmem⟩ := @mem_updates _ _ _ _ terminal _ hnodup' updates
    obtain ⟨hlast, hmem'⟩ := ih _ hnext
    refine ⟨hlast, fun row => (hmem' row).trans ?_⟩
    rw [IsLatest, IsLatest, flatten_cons, filter_append, getLast?_append]
    cases (ticks.flatten.filter fun position => id position = id row).getLast? with
    | some position => rfl
    | none => rw [hmem row, IsLatest, hkept]; rfl

/-- Of 100 rows the first one is closed and comes back open. -/
theorem mem_afterTicks_reopened : (0, false) ∈
    (afterTicks fst snd .nan ⟨numbered 100, 0⟩ [closedRows 0 1, [(0, false)]]).positions :=
  ((mem_afterTicks_iff .nan ⟨numbered 100, 0⟩ [closedRows 0 1, [(0, false)]]
    (by decide +kernel)).2.1 _).mpr ⟨rfl, rfl⟩

end CtsEngine.StageRotation
