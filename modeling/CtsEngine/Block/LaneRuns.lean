import CtsEngine.Block.CloseRuns
import Mathlib.Data.List.Induction

/-!
# What a lane goes through

Between two results of its own a lane is only consumed, pruned or left alone; a result replaces it.
`closeChanges_cases` splits the change of one field accordingly, and `LaneLed` is what every lane
that the closes have written keeps: it pauses at the first step with nothing counted, or it
recovers with no pause left.
-/

namespace CtsEngine

open Option List Transition Transition.Optimistic

/-- The field that a leg settles, or `none` when the close skips the leg. -/
def legField (call : CloseCall) (leg : BlockLeg) : Option String :=
  if strOrEmpty leg.setKey = "" ∨ leg.targetSatisfied = some false ∨
      ¬ 0 < leg.blockCount.getD 0 ∨ reductionPrecedesLeg call.position leg = true then none
  else some (symbolKey call.position.symbol ++ "|" ++
    strOrEmpty (strOr leg.lifecycleKey leg.setKey))

/-- The result of a leg as the lifecycle takes it. -/
def legResult (call : CloseCall) (now : ℚ) (direction : Direction) (pnl : ℚ) (leg : BlockLeg) :
    LifecycleInput :=
  let lifecycleKey := strOrEmpty (strOr leg.lifecycleKey leg.setKey)
  { setKey := lifecycleKey
    symbol := symbolKey call.position.symbol
    direction := direction.toString
    sourceKey := splitFirst blockSuffix lifecycleKey
    blockCount := leg.blockCount.getD 0
    incrementSteps := numOrConst leg.incrementSteps 2
    executedIncrementStep := numOrConst leg.effectiveIncrementStep 1
    pauseCount := max 1 (numOrConst (numOr leg.pauseCount leg.blockCount) 1)
    netPnl := settledLegPnl call.position direction pnl leg
    updatedAt := now }

lemma legChange_eq (call : CloseCall) (now : ℚ) (direction : Direction) (pnl : ℚ)
    (stored : String → Option StoredLane) (leg : BlockLeg) :
    legChange call now direction pnl stored leg = (legField call leg).map fun field =>
      (field, .store (.lane (advanceBlockCountLifecycle ((stored field).bind parseState)
        (legResult call now direction pnl leg)).toLane)) := by
  unfold legChange legField
  by_cases hskip : strOrEmpty leg.setKey = "" ∨ leg.targetSatisfied = some false ∨
      ¬ 0 < leg.blockCount.getD 0
  · have hskip' : strOrEmpty leg.setKey = "" ∨ leg.targetSatisfied = some false ∨
        ¬ 0 < leg.blockCount.getD 0 ∨ reductionPrecedesLeg call.position leg = true := by tauto
    rw [if_pos hskip, if_pos hskip']
    rfl
  · by_cases hred : reductionPrecedesLeg call.position leg = true
    · rw [if_neg hskip, if_pos hred, if_pos (by tauto)]
      rfl
    · rw [if_neg hskip, if_neg hred, if_neg (by tauto)]
      rfl

variable {call : CloseCall} {now : ℚ} {direction : Direction} {pnl : ℚ}
  {stored : String → Option StoredLane} {field : String}

lemma closeChanges_of_no_leg (hdir : call.position.closeDirection = some direction)
    (hpnl : call.position.realizedPnL = some pnl)
    (hno : ∀ leg ∈ call.position.blockLegs, legField call leg ≠ some field) :
    closeChanges call now stored field = (stored field).bind (laneChange call now field) := by
  unfold closeChanges
  rw [hdir, hpnl]
  dsimp only
  generalize call.position.blockLegs = legs at hno
  induction legs using reverseRecOn with
  | nil => rfl
  | append_singleton legs leg ih =>
    have hlegs : ∀ l ∈ legs, legField call l ≠ some field :=
      fun l hl => hno l (mem_append_left _ hl)
    have hleg : legField call leg ≠ some field := hno leg (by simp)
    rw [foldl_append, foldl_cons, foldl_nil, legChange_eq]
    rcases hfield : legField call leg with _ | other
    · exact ih hlegs
    · have hne : field ≠ other := fun heq => hleg (by rw [hfield, heq])
      simp only [map_some, Function.update_of_ne hne]
      exact ih hlegs

lemma closeChanges_of_last_leg (hdir : call.position.closeDirection = some direction)
    (hpnl : call.position.realizedPnL = some pnl) {legs₁ legs₂ : List BlockLeg} {leg : BlockLeg}
    (hlegs : call.position.blockLegs = legs₁ ++ leg :: legs₂)
    (hleg : legField call leg = some field) (hno : ∀ l ∈ legs₂, legField call l ≠ some field) :
    closeChanges call now stored field =
      some (.store (.lane (advanceBlockCountLifecycle ((stored field).bind parseState)
        (legResult call now direction pnl leg)).toLane)) := by
  unfold closeChanges
  rw [hdir, hpnl, hlegs]
  dsimp only
  clear hlegs
  induction legs₂ using reverseRecOn with
  | nil =>
    rw [foldl_append, foldl_cons, legChange_eq, hleg]
    simp
  | append_singleton legs₂ l ih =>
    have hl : legField call l ≠ some field := hno l (by simp)
    have hrest := ih fun l' hl' => hno l' (mem_append_left _ hl')
    rw [← cons_append, ← append_assoc, foldl_append, foldl_cons, foldl_nil, legChange_eq]
    rcases hfield : legField call l with _ | other
    · exact hrest
    · have hne : field ≠ other := fun heq => hl (by rw [hfield, heq])
      simp only [map_some, Function.update_of_ne hne]
      exact hrest

lemma closeChanges_cases {change : LaneChange}
    (h : closeChanges call now stored field = some change) :
    (∃ leg ∈ call.position.blockLegs, ∃ direction pnl, legField call leg = some field ∧
      change = .store (.lane (advanceBlockCountLifecycle ((stored field).bind parseState)
        (legResult call now direction pnl leg)).toLane)) ∨
      (stored field).bind (laneChange call now field) = some change := by
  rcases hdir : call.position.closeDirection with _ | direction
  · simp [closeChanges, hdir] at h
  rcases hpnl : call.position.realizedPnL with _ | pnl
  · simp [closeChanges, hpnl] at h
  by_cases hno : ∀ leg ∈ call.position.blockLegs, legField call leg ≠ some field
  · right
    rwa [closeChanges_of_no_leg hdir hpnl hno] at h
  · left
    push Not at hno
    -- the last leg of the field is the one that decides
    obtain ⟨leg, legs₁, legs₂, hlegs, hleg, hlast⟩ : ∃ leg legs₁ legs₂,
        call.position.blockLegs = legs₁ ++ leg :: legs₂ ∧ legField call leg = some field ∧
          ∀ l ∈ legs₂, legField call l ≠ some field := by
      generalize call.position.blockLegs = legs at hno
      induction legs using reverseRecOn with
      | nil => simp at hno
      | append_singleton legs leg ih =>
        by_cases hleg : legField call leg = some field
        · exact ⟨leg, legs, [], rfl, hleg, by simp⟩
        · obtain ⟨l, hl, hfield⟩ := hno
          have hmem : l ∈ legs := by
            rcases mem_append.mp hl with hmem | hmem
            · exact hmem
            · obtain rfl : l = leg := by simpa using hmem
              exact absurd hfield hleg
          obtain ⟨l', legs₁, legs₂, rfl, hl', hlast⟩ := ih ⟨l, hmem, hfield⟩
          refine ⟨l', legs₁, legs₂ ++ [leg], by simp, hl', fun x hx => ?_⟩
          rcases mem_append.mp hx with hx | hx
          · exact hlast x hx
          · obtain rfl : x = leg := by simpa using hx
            exact hleg
    rw [closeChanges_of_last_leg hdir hpnl hlegs hleg hlast] at h
    exact ⟨leg, by simp [hlegs], direction, pnl, hleg, (some.inj h).symm⟩

/-! ### What every written lane keeps -/

/-- A lane that a close has written: it pauses at the first step with nothing counted, or it
recovers without a pause. -/
def LaneLed (state : LaneState) : Prop :=
  (0 < state.remaining.getD 0 ∧ state.incrementStep = some 1 ∧ state.nonPositiveCount = some 0 ∧
      state.recovering = some false) ∨
    (state.remaining = some 0 ∧ state.recovering = some true)

lemma laneLed_advance (previous : Option LaneState) (input : LifecycleInput) :
    LaneLed (advanceBlockCountLifecycle previous input).toLane := by
  by_cases hposit : 0 < input.netPnl
  · left
    simp [advanceBlockCountLifecycle, BlockCountLifecycle.toLane, hposit]
  · right
    simp [advanceBlockCountLifecycle, BlockCountLifecycle.toLane, hposit]

lemma laneChange_eq_some {raw : StoredLane} {change : LaneChange}
    (h : laneChange call now field raw = some change) :
    ∃ state, raw = .lane state ∧
      ((laneMatches call.position state = true ∧ 0 < state.remaining.getD 0 - 1 ∧
          change = .store (.lane { state with
            remaining := some (max 0 (state.remaining.getD 0 - 1)), updatedAt := some now })) ∨
        (laneMatches call.position state = true ∧ change = .delete) ∨
        (isBlockPauseStateInactive state now call.activeSetKeys = true ∧ change = .delete)) := by
  unfold laneChange at h
  split at h
  · cases h
  · cases raw with
    | malformed => simp [parseState] at h
    | lane state =>
      refine ⟨state, rfl, ?_⟩
      simp only [parseState] at h
      split at h
      · cases h
      · split at h
        · rename_i hmatch
          split at h
          · rename_i hrem
            left
            refine ⟨hmatch, ?_, (some.inj h).symm⟩
            rcases lt_max_iff.mp hrem with hpos | hpos
            · exact absurd hpos (lt_irrefl 0)
            · exact hpos
          · right; left
            exact ⟨hmatch, (some.inj h).symm⟩
        · split at h
          · rename_i hinact
            right; right
            exact ⟨hinact, (some.inj h).symm⟩
          · cases h

lemma laneMatches_pauses {p : ClosingPosition} {state : LaneState}
    (h : laneMatches p state = true) : 0 < state.remaining.getD 0 := by
  simp only [laneMatches, Bool.and_eq_true, decide_eq_true_eq] at h
  exact h.2

variable {state : LaneState}

lemma LaneLed.consume (h : LaneLed state) (hrem : 0 < state.remaining.getD 0 - 1) :
    LaneLed { state with
      remaining := some (max 0 (state.remaining.getD 0 - 1)), updatedAt := some now } := by
  rcases h with ⟨-, hstep, hcnt, hrecov⟩ | ⟨hzero, -⟩
  · exact .inl ⟨lt_max_of_lt_right hrem, hstep, hcnt, hrecov⟩
  · rw [hzero] at hrem
    norm_num at hrem

/-- Every stored lane is one that a close has written. -/
def LanesLed (d : BlockData) : Prop :=
  ∀ field raw, d.lanes field = some raw → ∃ state, raw = .lane state ∧ LaneLed state

lemma LanesLed.apply {d : BlockData} (h : LanesLed d) (c : BlockCommit) :
    LanesLed (blockProtocol.apply d c) := by
  intro field raw hraw
  simp only [Protocol.apply, blockProtocol, applyLaneChanges] at hraw
  split at hraw
  · exact h field raw hraw
  · cases hraw
  · rename_i value hchg
    obtain rfl : value = raw := by simpa using hraw
    rcases closeChanges_cases hchg with ⟨leg, -, direction, pnl, -, hstore⟩ | hpause
    · exact ⟨_, (LaneChange.store.inj hstore), laneLed_advance _ _⟩
    · obtain ⟨before, hbef, hlane⟩ := bind_eq_some_iff.mp hpause
      obtain ⟨state, rfl, hcases⟩ := laneChange_eq_some hlane
      have hstor : d.lanes field = some (.lane state) := by
        split at hbef
        · exact hbef
        · cases hbef
      obtain ⟨state', hstate, hled⟩ := h field _ hstor
      obtain rfl : state = state' := by simpa using hstate
      rcases hcases with ⟨-, hrem, hstore⟩ | ⟨-, hdelet⟩ | ⟨-, hdelet⟩
      · exact ⟨_, LaneChange.store.inj hstore, hled.consume hrem⟩
      · cases hdelet
      · cases hdelet

/-! ### Removed lanes -/

/-- The lanes that a sequence of results leaves, one after each result. -/
def lifecycles : Option LaneState → List LifecycleInput → List BlockCountLifecycle
  | _, [] => []
  | previous, input :: inputs =>
    let next := advanceBlockCountLifecycle previous input
    next :: lifecycles (some next.toLane) inputs

/-- A lane at the first step with nothing counted advances as a missing lane does. -/
lemma advance_of_first_step (hstep : state.incrementStep = some 1)
    (hcnt : state.nonPositiveCount = some 0) (input : LifecycleInput) :
    advanceBlockCountLifecycle (some state) input = advanceBlockCountLifecycle none input := by
  have hone : numOrConst ((some state).bind LaneState.incrementStep) 1 =
      numOrConst ((none : Option LaneState).bind LaneState.incrementStep) 1 := by
    simp [hstep, numOrConst, numOr]
  have hzero : numOrConst ((some state).bind LaneState.nonPositiveCount) 0 =
      numOrConst ((none : Option LaneState).bind LaneState.nonPositiveCount) 0 := by
    simp [hcnt, numOrConst, numOr]
  unfold advanceBlockCountLifecycle
  rw [hone, hzero]

lemma lifecycles_of_first_step (hstep : state.incrementStep = some 1)
    (hcnt : state.nonPositiveCount = some 0) (inputs : List LifecycleInput) :
    lifecycles (some state) inputs = lifecycles none inputs := by
  cases inputs with
  | nil => rfl
  | cons input inputs =>
    rw [lifecycles, lifecycles, advance_of_first_step hstep hcnt]

variable {W : Type*} [DecidableEq W]

lemma lanesLed_run {conn : String} {redis₀ : BlockRedis} (hemp : ∀ f, redis₀.lanes f = none)
    {acts : List (BlockAction W)} {t : BlockSystem W}
    (h : run (blockStep conn) (BlockSystem.start redis₀) acts = some t) :
    LanesLed t.redis.toStore.data := by
  rw [(blockInvariant_run h).serial.data_eq]
  have hst : LanesLed redis₀.toStore.data := by
    intro f raw hraw
    have hnone : redis₀.toStore.data.lanes f = none := hemp f
    rw [hnone] at hraw
    cases hraw
  generalize redis₀.toStore.data = d at hst
  generalize t.commits = log
  induction log generalizing d with
  | nil => exact hst
  | cons c log ih => exact ih _ (hst.apply c)

/-- A lane that disappears stood at step one, without a loss. -/
lemma LanesLed.removed {conn : String} {t t' : BlockSystem W} (hled : LanesLed t.redis.toStore.data)
    (hok : ∀ w, PhaseOk conn t.redis (t.phase w)) {a : BlockAction W}
    (hstep : blockStep conn t a = some t') {raw : StoredLane}
    (hbef : t.redis.lanes field = some raw) (hafter : t'.redis.lanes field = none) :
    ∃ state, raw = .lane state ∧ state.incrementStep = some 1 ∧
      state.nonPositiveCount = some 0 := by
  rcases blockStep_cases hok hstep with ⟨w, phase, rfl, -⟩ |
    ⟨w, call, now, version, v, redis', -, hfresh, hnew, hver, hstore, rfl⟩
  · rw [BlockSystem.move_redis, hbef] at hafter
    cases hafter
  · rw [hfresh.commit_eq_perform hnew hver] at hstore
    -- the commit is the close performed alone on the lanes of the step
    have hlanes : redis'.lanes = (blockProtocol.apply t.redis.toStore.data ⟨call, now⟩).lanes := by
      have hdata := congrArg (fun st => st.data.lanes) hstore
      simpa [BlockRedis.toStore, Protocol.perform, Protocol.tryCommit, Protocol.commit, hnew,
        Protocol.apply, blockProtocol] using hdata
    rw [hlanes] at hafter
    simp only [Protocol.apply, blockProtocol, applyLaneChanges] at hafter
    have hraw : t.redis.toStore.data.lanes field = some raw := hbef
    split at hafter
    · rw [hraw] at hafter
      cases hafter
    · rename_i hdelet
      rcases closeChanges_cases hdelet with ⟨leg, -, direction, pnl, -, hadvan⟩ | hpause
      · cases hadvan
      obtain ⟨before, hview, hlane⟩ := bind_eq_some_iff.mp hpause
      obtain ⟨state, rfl, hcases⟩ := laneChange_eq_some hlane
      have hsame : raw = .lane state := by
        split at hview
        · rw [hraw] at hview
          exact some.inj hview
        · cases hview
      obtain ⟨state', hstate, hstateLed⟩ := hled field raw hraw
      obtain rfl : state = state' := by
        rw [hsame] at hstate
        exact StoredLane.lane.inj hstate
      rcases hstateLed with ⟨-, hone, hzero, -⟩ | ⟨hzero, hrecov⟩
      · exact ⟨state, hsame, hone, hzero⟩
      · rcases hcases with ⟨-, -, hstor⟩ | ⟨hmatch, -⟩ | ⟨hinact, -⟩
        · cases hstor
        · have hposit := laneMatches_pauses hmatch
          simp [hzero] at hposit
        · simp [isBlockPauseStateInactive, hrecov] at hinact
    · cases hafter

/-- **Removing a lane loses nothing.**  After a step that removes the lane of a field, every
sequence of later results leaves the same lanes from the missing lane as from the removed one, with
whatever pause and time it would have been kept. -/
theorem removedLane_losesNothing (conn : String) (redis₀ : BlockRedis)
    (hempty : ∀ f, redis₀.lanes f = none) (acts : List (BlockAction W)) (t t' : BlockSystem W)
    (h : run (blockStep conn) (BlockSystem.start redis₀) acts = some t) (a : BlockAction W)
    (hstep : blockStep conn t a = some t') (field : String) (raw : StoredLane)
    (hbefore : t.redis.lanes field = some raw) (hafter : t'.redis.lanes field = none) :
    ∃ state, raw = .lane state ∧ ∀ remaining updatedAt inputs, lifecycles none inputs =
        lifecycles (some { state with remaining := remaining, updatedAt := updatedAt }) inputs := by
  obtain ⟨state, hraw, hone, hzero⟩ := (lanesLed_run hempty h).removed
    (blockInvariant_run h).phase_ok hstep hbefore hafter
  refine ⟨state, hraw, fun remaining updatedAt inputs => ?_⟩
  symm
  apply lifecycles_of_first_step
  · exact hone
  · exact hzero

/-- A gain on `BTC-USDT` with one leg of Count 1, which pauses for one close. -/
def pausingClose : CloseCall where
  position :=
    { sampleClose.position with
      realizedPnL := some 4
      blockLegs := [{ setKey := some "btc:a#block:1", lifecycleKey := none, blockCount := some 1
                      quantity := some 1, entryPrice := none, incrementSteps := some 2
                      effectiveIncrementStep := some 1, pauseCount := some 1
                      targetSatisfied := some true, addedAt := none }] }
  activeSetKeys := []

/-- The next close of the same Set, without a Block leg. -/
def plainClose (id : String) : CloseCall where
  position := { sampleClose.position with id := id, blockLegs := [] }
  activeSetKeys := []

/-- The keys of a connection that has settled nothing. -/
def BlockRedis.empty : BlockRedis := ⟨fun _ => none, fun _ _ => false, 0, fun _ => false⟩

theorem removedLane_losesNothing_pauseOver : ∃ (t t' : BlockSystem Unit) (state : LaneState),
      run (blockStep "x02") (.start .empty) (closeAlone () ⟨pausingClose, 5⟩ ++
        [.call () (plainClose "p2"), .getProcessed (), .readStates () 6]) = some t ∧
      blockStep "x02" t (.commit ()) = some t' ∧
      t.redis.lanes "BTCUSDT|btc:a#block:1" = some (.lane state) ∧
      ∀ inputs, lifecycles none inputs = lifecycles (some state) inputs := by
  obtain ⟨t, ht, hbefore⟩ : ∃ t : BlockSystem Unit,
      run (blockStep "x02") (.start .empty) (closeAlone () ⟨pausingClose, 5⟩ ++
        [.call () (plainClose "p2"), .getProcessed (), .readStates () 6]) = some t ∧
      ((t.redis.lanes "BTCUSDT|btc:a#block:1").isSome,
        (blockStep "x02" t (.commit ())).map fun t' =>
          (t'.redis.lanes "BTCUSDT|btc:a#block:1").isNone) = (true, some true) := by
    decide +kernel
  rw [Prod.mk.injEq, isSome_iff_exists, map_eq_some_iff] at hbefore
  obtain ⟨⟨raw, hraw⟩, t', ht', hgone⟩ := hbefore
  obtain ⟨state, rfl, hsame⟩ := removedLane_losesNothing "x02" .empty (fun _ => rfl) _ t t' ht _
    ht' _ _ hraw (isNone_iff_eq_none.mp hgone)
  exact ⟨t, t', state, ht, ht', hraw, hsame state.remaining state.updatedAt⟩

end CtsEngine
