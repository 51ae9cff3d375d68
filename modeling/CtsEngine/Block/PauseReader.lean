import CtsEngine.Block.LaneRuns
import CtsEngine.Foundation.Keyed

/-!
# The readers of the pause hash

`lib/block-count-state.ts`: `getUnavailableBlockSetKeys` and `getBlockCountLifecycleStates` read the
lanes of a symbol through the index that the closes keep, and pass over every field that does not
start with the symbol.  The symbol is spelled twice on the way: the readers trim it, take its upper
case and drop `-` and `_`, while the closes keep only its letters and digits.  The index is found
under either spelling; the fields are not.
-/

namespace CtsEngine

open BlockSystem

open Function List Transition Transition.Optimistic Keyed Char

/-! ### The two spellings of a symbol -/

/-- An upper-case letter or digit, the characters that the closes keep of a symbol. -/
def isKeyChar (c : Char) : Bool := c.isUpper || c.isDigit

/-- `toUpperCase`, one character at a time, as far as its table is needed: ASCII, the letters and
digits of every upper case, and that an upper case is its own upper case. -/
structure UpperCasing where
  upper : Char → List Char
  ascii : ∀ c, c.toNat < 128 → upper c = [c.toUpper]
  alphanumeric : ∀ c, (upper c).filter isKeyChar = upperAlphanumeric c
  stable : ∀ c, ∀ d ∈ upper c, upper d = [d]

/-- The `symbolKey` of `block-count-state.ts`. -/
def readerSymbolKey (js : UpperCasing) (raw : String) : String :=
  String.ofList (((trim raw).toList.flatMap js.upper).filter fun c => c ≠ '-' && c ≠ '_')

lemma isKeyChar_of_mem_upperAlphanumeric {c d : Char} (h : d ∈ upperAlphanumeric c) :
    isKeyChar d = true := by
  by_cases hc : c.toNat < 128
  · have hall : ∀ n : Fin 128, (upperAlphanumeric (ofNat n)).all isKeyChar = true := by
      decide
    exact all_eq_true.mp
      (ascii_of_all (P := fun c => (upperAlphanumeric c).all isKeyChar = true) hall hc) d h
  · obtain ⟨hup, hdigit, hlow⟩ := not_letter_of_not_ascii hc
    unfold upperAlphanumeric at h
    rw [hup, hdigit, hlow] at h
    simp only [Bool.or_self, Bool.false_eq_true, if_false] at h
    split at h
    all_goals
      simp only [mem_cons, not_mem_nil, or_false] at h
      try (rcases h with rfl | rfl | rfl) <;> decide

lemma upperAlphanumeric_of_isKeyChar {c : Char} (h : isKeyChar c = true) :
    upperAlphanumeric c = [c] := by
  exact if_pos h

lemma upperAlphanumeric_of_isJsSpace {c : Char} (h : isJsSpace c = true) :
    upperAlphanumeric c = [] := by
  by_cases hc : c.toNat < 128
  · have hall : ∀ n : Fin 128, isJsSpace (ofNat n) = true →
        upperAlphanumeric (ofNat n) = [] := by decide
    exact ascii_of_all (P := fun c => isJsSpace c = true → upperAlphanumeric c = []) hall hc h
  · obtain ⟨hup, hdigit, hlow⟩ := not_letter_of_not_ascii hc
    unfold upperAlphanumeric
    rw [hup, hdigit, hlow]
    simp only [Bool.or_self, Bool.false_eq_true, if_false]
    split
    all_goals first
      | rfl
      | rename_i heq
        simp [isJsSpace, heq] at h

/-- A casing that leaves alone what has no letter or digit in its upper case. -/
def asciiCasing : UpperCasing where
  upper c := if upperAlphanumeric c = [] then [c] else upperAlphanumeric c
  ascii := by
    intro c hc
    have hall : ∀ n : Fin 128, (if upperAlphanumeric (ofNat n) = [] then [ofNat n]
        else upperAlphanumeric (ofNat n)) = [(ofNat n).toUpper] := by decide
    exact ascii_of_all (P := fun c => (if upperAlphanumeric c = [] then [c]
        else upperAlphanumeric c) = [c.toUpper]) hall hc
  alphanumeric := by
    intro c
    split
    · rename_i hnone
      have hkey : isKeyChar c = false := by
        by_contra hkey
        rw [upperAlphanumeric_of_isKeyChar (by simpa using hkey)] at hnone
        cases hnone
      simp [hkey, hnone]
    · rw [filter_eq_self]
      exact fun d hd => isKeyChar_of_mem_upperAlphanumeric hd
  stable := by
    intro c d hd
    split at hd
    · rename_i hnone
      obtain rfl : d = c := by simpa using hd
      rw [if_pos hnone]
    · rw [upperAlphanumeric_of_isKeyChar (isKeyChar_of_mem_upperAlphanumeric hd)]
      simp

variable {value field conn : String} {call : CloseCall} {leg : BlockLeg} {d : BlockData}
  {c : BlockCommit}

lemma isKeyChar_of_mem_symbolKey {c : Char} (h : c ∈ (symbolKey value).toList) :
    isKeyChar c = true := by
  unfold symbolKey at h
  rw [String.toList_ofList, mem_flatMap] at h
  obtain ⟨d, -, hd⟩ := h
  exact isKeyChar_of_mem_upperAlphanumeric hd

variable (value)

lemma bar_not_mem_symbolKey : '|' ∉ (symbolKey value).toList := by
  intro h
  exact absurd (isKeyChar_of_mem_symbolKey h) (by decide)

lemma flatMap_upperAlphanumeric_of_stable (js : UpperCasing) {cs : List Char}
    (h : ∀ c ∈ cs, js.upper c = [c]) : cs.flatMap upperAlphanumeric = cs.filter isKeyChar := by
  induction cs with
  | nil => rfl
  | cons c cs ih =>
    have hc := js.alphanumeric c
    rw [h c (mem_cons_self ..)] at hc
    rw [flatMap_cons, ← hc, ih fun d hd => h d (mem_cons_of_mem _ hd), ← filter_append]
    rfl

lemma symbolKey_symbolKey : symbolKey (symbolKey value) = symbolKey value := by
  have hkeep : ∀ cs : List Char, (∀ c ∈ cs, isKeyChar c = true) →
      cs.flatMap upperAlphanumeric = cs := by
    intro cs hcs
    induction cs with
    | nil => rfl
    | cons c cs ih =>
      rw [flatMap_cons, upperAlphanumeric_of_isKeyChar (hcs c (mem_cons_self ..)),
        ih fun d hd => hcs d (mem_cons_of_mem _ hd)]
      rfl
  rw [symbolKey, hkeep _ fun c hc => isKeyChar_of_mem_symbolKey hc, String.ofList_toList]

lemma flatMap_dropWhile_isJsSpace (cs : List Char) :
    (cs.dropWhile isJsSpace).flatMap upperAlphanumeric = cs.flatMap upperAlphanumeric := by
  induction cs with
  | nil => rfl
  | cons c cs ih =>
    by_cases hc : isJsSpace c = true
    · rw [dropWhile_cons_of_pos hc, ih, flatMap_cons, upperAlphanumeric_of_isJsSpace hc, nil_append]
    · rw [dropWhile_cons_of_neg hc]

lemma flatMap_trim :
    (trim value).toList.flatMap upperAlphanumeric = value.toList.flatMap upperAlphanumeric := by
  have hback : ∀ cs : List Char, (cs.reverse.dropWhile isJsSpace).reverse.flatMap
      upperAlphanumeric = cs.flatMap upperAlphanumeric := by
    intro cs
    induction cs using reverseRecOn with
    | nil => rfl
    | append_singleton cs c ih =>
      rw [reverse_append, reverse_singleton, singleton_append]
      by_cases hc : isJsSpace c = true
      · rw [dropWhile_cons_of_pos hc, ih, flatMap_append, flatMap_singleton,
          upperAlphanumeric_of_isJsSpace hc, append_nil]
      · rw [dropWhile_cons_of_neg hc, reverse_cons, reverse_reverse]
  rw [trim, String.toList_ofList, hback, flatMap_dropWhile_isJsSpace]

lemma symbolKey_readerSymbolKey (js : UpperCasing) :
    symbolKey (readerSymbolKey js value) = symbolKey value := by
  have hstab : ∀ c ∈ (readerSymbolKey js value).toList, js.upper c = [c] := by
    intro c hc
    rw [readerSymbolKey, String.toList_ofList, mem_filter, mem_flatMap] at hc
    obtain ⟨⟨d, -, hd⟩, -⟩ := hc
    exact js.stable d c hd
  unfold symbolKey
  rw [flatMap_upperAlphanumeric_of_stable js hstab, readerSymbolKey, String.toList_ofList,
    filter_filter, ← flatMap_trim value]
  -- neither `-` nor `_` is a letter or digit
  have hdash : ∀ c : Char,
      (isKeyChar c && (decide (c ≠ '-') && decide (c ≠ '_'))) = isKeyChar c := by
    intro c
    by_cases hc : isKeyChar c = true
    · have hminus : c ≠ '-' := by
        rintro rfl
        exact absurd hc (by decide)
      have hline : c ≠ '_' := by
        rintro rfl
        exact absurd hc (by decide)
      simp [hminus, hline]
    · simp [hc]
  simp only [hdash]
  rw [filter_flatMap]
  simp only [js.alphanumeric]

variable {value}

section Readers

variable (js : UpperCasing) (redis : BlockRedis) (members : List String) (symbol : String)

/-- The lanes that both readers pass on, in the order `members` of the reply: the fields of the
index that start with the reader's key of the symbol and hold a lane with a Set key. -/
def readableLanes : List (String × LaneState) :=
  let normalized := readerSymbolKey js symbol
  let fields := (readSymbolStates redis (symbolKey normalized)).2
  members.filterMap fun field =>
    if hasPrefix (normalized ++ "|") field then
      ((fields field).bind parseState).bind fun state =>
        (strOr state.setKey none).map fun setKey => (setKey, state)
    else none

/-- `getUnavailableBlockSetKeys`, with the keys of the active Block positions. -/
def getUnavailableBlockSetKeys (activeSetKeys : List String) : List String :=
  activeSetKeys ++ ((readableLanes js redis members symbol).filter fun entry =>
    0 < entry.2.remaining.getD 0).map Prod.fst

def getBlockCountLifecycleStates : List (String × LaneState) :=
  (readableLanes js redis members symbol).foldl
    (fun states entry => put states entry.1 entry.2) []

/-- Both readers report the Set key as paused if and only if `paused`, whatever order the index is
read in and whatever positions are active. -/
def ReportsPause (setKey : String) (paused : Prop) : Prop :=
  ∀ members, (∀ field, field ∈ members ↔
      redis.index (symbolKey (readerSymbolKey js symbol)) field = true) →
    (∀ activeSetKeys, setKey ∈ getUnavailableBlockSetKeys js redis members symbol activeSetKeys ↔
      setKey ∈ activeSetKeys ∨ paused) ∧
    ((∃ state, get? (getBlockCountLifecycleStates js redis members symbol) setKey =
      some state ∧ 0 < state.remaining.getD 0) ↔ paused)

end Readers

/-! ### Named lanes -/

def laneField (symbol setKey : String) : String := symbol ++ "|" ++ setKey

lemma laneField_inj {value' setKey setKey' : String}
    (h : laneField (symbolKey value) setKey = laneField (symbolKey value') setKey') :
    symbolKey value = symbolKey value' ∧ setKey = setKey' := by
  have hlists : (symbolKey value).toList ++ '|' :: setKey.toList =
      (symbolKey value').toList ++ '|' :: setKey'.toList := by
    simpa [laneField] using congrArg String.toList h
  obtain ⟨hsym, hkey⟩ := append_cons_inj_of_not_mem (bar_not_mem_symbolKey value)
    (bar_not_mem_symbolKey value') hlists
  exact ⟨String.toList_inj.mp hsym, String.toList_inj.mp hkey⟩

/-- What an indexed field is. -/
def NamedLane (d : BlockData) (symbol field : String) : Prop :=
  ∃ value setKey state, symbol = symbolKey value ∧ field = laneField symbol setKey ∧ setKey ≠ "" ∧
    d.lanes field = some (.lane state) ∧ state.setKey = some setKey ∧ state.symbol = some symbol

/-- Every indexed field is the field of its lane, and the fields of one index can be listed. -/
structure LanesNamed (d : BlockData) : Prop where
  named : ∀ symbol field, d.index symbol field = true → NamedLane d symbol field
  listed : ∀ symbol, ∃ members : List String, ∀ field, field ∈ members ↔ d.index symbol field = true

lemma legField_eq_some (h : legField call leg = some field) :
    strOrEmpty (strOr leg.lifecycleKey leg.setKey) ≠ "" ∧
      field = laneField (symbolKey call.position.symbol)
        (strOrEmpty (strOr leg.lifecycleKey leg.setKey)) := by
  unfold legField at h
  split at h
  · cases h
  · rename_i hskip
    refine ⟨?_, (Option.some.inj h).symm⟩
    rw [not_or] at hskip
    unfold strOr
    split
    · split
      · exact hskip.1
      · rename_i hne
        exact hne
    · exact hskip.1

lemma LanesNamed.changes (h : LanesNamed d) {change : LaneChange}
    (hchg : closeChanges c.call c.now (blockProtocol.view c d) field = some change) :
    ∃ setKey, setKey ≠ "" ∧ field = laneField (symbolKey c.call.position.symbol) setKey ∧
      (change = .delete ∨ ∃ state : LaneState, change = .store (.lane state) ∧
        state.setKey = some setKey ∧ state.symbol = some (symbolKey c.call.position.symbol)) := by
  rcases closeChanges_cases hchg with ⟨leg, -, direction, pnl, hfield, hstore⟩ | hpause
  · obtain ⟨hne, heq⟩ := legField_eq_some hfield
    exact ⟨_, hne, heq, .inr ⟨_, hstore, rfl, rfl⟩⟩
  · obtain ⟨before, hview, hlane⟩ := Option.bind_eq_some_iff.mp hpause
    simp only [blockProtocol] at hview
    split at hview
    · rename_i hidx
      obtain ⟨value, setKey, state, -, heq, hne, hstor, hkey, hsym⟩ := h.named _ _ hidx
      obtain rfl : before = .lane state := by
        rw [hstor] at hview
        exact (Option.some.inj hview).symm
      refine ⟨setKey, hne, heq, ?_⟩
      obtain ⟨state', hstate, hcases⟩ := laneChange_eq_some hlane
      obtain rfl : state = state' := StoredLane.lane.inj hstate
      rcases hcases with ⟨-, -, hstore⟩ | ⟨-, hdelet⟩ | ⟨-, hdelet⟩
      · exact .inr ⟨_, hstore, hkey, hsym⟩
      · exact .inl hdelet
      · exact .inl hdelet
    · cases hview

variable (c)

lemma apply_lanes (d : BlockData) (field : String) :
    (blockProtocol.apply d c).lanes field =
      match closeChanges c.call c.now (blockProtocol.view c d) field with
      | none => d.lanes field
      | some .delete => none
      | some (.store value) => some value := rfl

lemma apply_index (d : BlockData) :
    (blockProtocol.apply d c).index = Function.update d.index (symbolKey c.call.position.symbol)
      (applyIndexChanges (closeChanges c.call c.now (blockProtocol.view c d))
        (d.index (symbolKey c.call.position.symbol))) := rfl

/-- A close keeps indexed fields named after their lanes. -/
lemma LanesNamed.apply (h : LanesNamed d) :
    LanesNamed (blockProtocol.apply d c) where
  named := by
    intro symbol field hidx
    rw [apply_index] at hidx
    rcases hchg : closeChanges c.call c.now (blockProtocol.view c d) field with _ | change
    · have hold : d.index symbol field = true := by
        by_cases hsymbo : symbol = symbolKey c.call.position.symbol
        · subst hsymbo
          simpa [applyIndexChanges, hchg] using hidx
        · simpa [update_of_ne hsymbo] using hidx
      obtain ⟨value, setKey, state, hsymbo, hfield, hne, hlane, hstate⟩ := h.named _ _ hold
      refine ⟨value, setKey, state, hsymbo, hfield, hne, ?_, hstate⟩
      rw [apply_lanes, hchg]
      exact hlane
    · obtain ⟨setKey, hne, hfield, hcases⟩ := h.changes hchg
      -- a changed field belongs to the symbol of the close
      have hsymbo : symbol = symbolKey c.call.position.symbol := by
        by_contra hoth
        rw [update_of_ne hoth] at hidx
        obtain ⟨value, setKey', state, rfl, hfield', -⟩ := h.named _ _ hidx
        exact hoth (laneField_inj (hfield'.symm.trans hfield)).1
      subst hsymbo
      rcases hcases with rfl | ⟨state, rfl, hkey, hsym⟩
      · simp [applyIndexChanges, hchg] at hidx
      · refine ⟨_, setKey, state, rfl, hfield, hne, ?_, hkey, hsym⟩
        rw [apply_lanes, hchg]
  listed := by
    intro symbol
    rw [apply_index]
    by_cases hsymbo : symbol = symbolKey c.call.position.symbol
    · subst hsymbo
      obtain ⟨members, hmems⟩ := h.listed (symbolKey c.call.position.symbol)
      rw [update_self]
      refine ⟨(members ++ c.call.position.blockLegs.filterMap (legField c.call)).filter
        (applyIndexChanges (closeChanges c.call c.now (blockProtocol.view c d))
          (d.index (symbolKey c.call.position.symbol))), fun field => ?_⟩
      rw [mem_filter, mem_append, and_iff_right_iff_imp]
      intro hidx
      rcases hchg : closeChanges c.call c.now (blockProtocol.view c d) field with _ | change
      · left
        rw [hmems]
        simpa [applyIndexChanges, hchg] using hidx
      · rcases closeChanges_cases hchg with ⟨leg, hleg, -, -, hfield, -⟩ | hpause
        · right
          exact mem_filterMap.mpr ⟨leg, hleg, hfield⟩
        · left
          obtain ⟨before, hview, -⟩ := Option.bind_eq_some_iff.mp hpause
          rw [hmems]
          by_contra hold
          simp [blockProtocol, hold] at hview
    · rw [update_of_ne hsymbo]
      exact h.listed symbol

variable {c}

/-! ### A paused lane -/

/-- The Set key of the lane of a leg. -/
def laneKey (leg : BlockLeg) : String := strOrEmpty (strOr leg.lifecycleKey leg.setKey)

/-- The number of closes that the pause of a leg lasts. -/
def pauseWindow (leg : BlockLeg) : ℕ :=
  (max 1 ⌊max 1 (numOrConst (numOr leg.pauseCount leg.blockCount) 1)⌋).toNat

/-- A later close of the same symbol, direction and source. -/
def sharesPause (call : CloseCall) (leg : BlockLeg) (later : BlockCommit) : Bool :=
  symbolKey later.call.position.symbol = symbolKey call.position.symbol &&
    (later.call.position.closeDirection = call.position.closeDirection &&
      later.call.position.sourceKeys.contains (splitFirst blockSuffix (laneKey leg)))

/-- The close settles the leg, as the last one of its lane, with a gain. -/
def SettlesGain (call : CloseCall) (leg : BlockLeg) : Prop :=
  let field := laneField (symbolKey call.position.symbol) (laneKey leg)
  ∃ legs₁ legs₂ direction pnl, call.position.blockLegs = legs₁ ++ leg :: legs₂ ∧
    legField call leg = some field ∧ (∀ l ∈ legs₂, legField call l ≠ some field) ∧
    call.position.closeDirection = some direction ∧ call.position.realizedPnL = some pnl ∧
    0 < settledLegPnl call.position direction pnl leg

/-- The lane that the leg has paused, `left` matching closes before the pause is over. -/
def LaneAt (d : BlockData) (call : CloseCall) (leg : BlockLeg) : ℕ → Prop
  | 0 => d.lanes (laneField (symbolKey call.position.symbol) (laneKey leg)) = none
  | left + 1 => ∃ state,
    d.index (symbolKey call.position.symbol)
      (laneField (symbolKey call.position.symbol) (laneKey leg)) = true ∧
    d.lanes (laneField (symbolKey call.position.symbol) (laneKey leg)) = some (.lane state) ∧
    state.symbol = some (symbolKey call.position.symbol) ∧
    state.direction = call.position.closeDirection.map Direction.toString ∧
    state.sourceKeyOf = splitFirst blockSuffix (laneKey leg) ∧
    state.remaining = some ((left : ℚ) + 1)

lemma hasPrefix_reserved (h : symbolKey value ≠ "") (setKey : String) :
    hasPrefix "__" (laneField (symbolKey value) setKey) = false := by
  rcases hchars : (symbolKey value).toList with _ | ⟨c, cs⟩
  · exact absurd (String.toList_inj.mp hchars) h
  · have hc : isKeyChar c = true := by
      have hmem : c ∈ (symbolKey value).toList := by
        rw [hchars]
        exact mem_cons_self ..
      exact isKeyChar_of_mem_symbolKey hmem
    have hne : '_' ≠ c := by
      rintro rfl
      exact absurd hc (by decide)
    simp [hasPrefix, laneField, hchars, isPrefixOf, hne]

lemma ValidCall.settled (h : ValidCall conn call) : symbolKey call.position.symbol ≠ "" ∧
      ∃ direction pnl, call.position.closeDirection = some direction ∧
        call.position.realizedPnL = some pnl := by
  have hsettl := h.2
  simp only [ClosingPosition.isSettledClose, Bool.and_eq_true, decide_eq_true_eq,
    Option.isSome_iff_exists] at hsettl
  obtain ⟨⟨⟨⟨⟨⟨-, hsym⟩, direction, hdir⟩, -⟩, -⟩, -⟩, pnl, hpnl⟩ := hsettl
  exact ⟨hsym, direction, pnl, hdir, hpnl⟩

lemma SettlesGain.laneAt (h : SettlesGain call leg) (d : BlockData) (now : ℚ) :
    LaneAt (blockProtocol.apply d ⟨call, now⟩) call leg (pauseWindow leg) := by
  obtain ⟨legs₁, legs₂, direction, pnl, hlegs, hfield, hlast, hdir, hpnl, hgain⟩ := h
  have hchg : closeChanges call now (blockProtocol.view ⟨call, now⟩ d) _ = _ :=
    closeChanges_of_last_leg hdir hpnl hlegs hfield hlast
  obtain ⟨left, hleft⟩ : ∃ left, pauseWindow leg = left + 1 := by
    apply Nat.exists_eq_succ_of_ne_zero
    unfold pauseWindow
    omega
  have hwin : max 1 ⌊max 1 (numOrConst (numOr leg.pauseCount leg.blockCount) 1)⌋ =
      (left : ℤ) + 1 := by
    unfold pauseWindow at hleft
    omega
  rw [hleft]
  refine ⟨(advanceBlockCountLifecycle ((blockProtocol.view ⟨call, now⟩ d
    (laneField (symbolKey call.position.symbol) (laneKey leg))).bind parseState)
    (legResult call now direction pnl leg)).toLane, ?_, ?_, rfl, ?_, ?_, ?_⟩
  · rw [apply_index]
    simp [applyIndexChanges, hchg]
  · rw [apply_lanes, hchg]
  · rw [hdir]
    rfl
  · by_cases hsrc : splitFirst blockSuffix (laneKey leg) = ""
    · simp [LaneState.sourceKeyOf, BlockCountLifecycle.toLane, advanceBlockCountLifecycle,
        legResult, strOr, strOrEmpty, laneKey] at hsrc ⊢
      simp [hsrc]
    · simp [LaneState.sourceKeyOf, BlockCountLifecycle.toLane, advanceBlockCountLifecycle,
        legResult, strOr, laneKey] at hsrc ⊢
      simp [hsrc]
  · simp only [advanceBlockCountLifecycle, legResult, hgain, hwin]
    push_cast
    rfl

lemma laneMatches_eq_sharesPause {state : LaneState} (hcall : ValidCall conn call)
    (hc : ValidCall conn c.call)
    (hsame : symbolKey c.call.position.symbol = symbolKey call.position.symbol)
    (hdir : state.direction = call.position.closeDirection.map Direction.toString)
    (hsrc : state.sourceKeyOf = splitFirst blockSuffix (laneKey leg))
    (hrem : 0 < state.remaining.getD 0) :
    laneMatches c.call.position state = sharesPause call leg c := by
  obtain ⟨-, direction, -, hcallDir, -⟩ := hcall.settled
  obtain ⟨-, direction', -, hcDir, -⟩ := hc.settled
  unfold laneMatches sharesPause
  rw [hdir, hsrc, hcallDir, hcDir]
  cases direction <;> cases direction' <;>
    simp [strOr, Direction.toString, hsame, hrem]

/-- **One later close.** A close that does not settle the lane consumes one unit of its pause when
it shares the pause, and leaves it alone otherwise. -/
lemma LaneAt.apply {left : ℕ} (h : LaneAt d call leg left) (hnamed : LanesNamed d)
    (hcall : ValidCall conn call) (hc : ValidCall conn c.call)
    (hno : ∀ l ∈ c.call.position.blockLegs, legField c.call l ≠
      some (laneField (symbolKey call.position.symbol) (laneKey leg))) :
    LaneAt (blockProtocol.apply d c) call leg (left - if sharesPause call leg c then 1 else 0) := by
  obtain ⟨hsym, direction, pnl, hdir, hpnl⟩ := hc.settled
  have hchg : closeChanges c.call c.now (blockProtocol.view c d) _ = _ :=
    closeChanges_of_no_leg hdir hpnl hno
  cases left with
  | zero =>
    have hnone : d.lanes (laneField (symbolKey call.position.symbol) (laneKey leg)) = none := h
    have hview : blockProtocol.view c d
        (laneField (symbolKey call.position.symbol) (laneKey leg)) = none := by
      simp [blockProtocol, hnone]
    rw [hview] at hchg
    rw [Nat.zero_sub, LaneAt, apply_lanes, hchg]
    exact hnone
  | succ left =>
    obtain ⟨state, hidx, hlane, hstatSym, hstatDir, hsrc, hrem⟩ := h
    by_cases hsame : symbolKey c.call.position.symbol = symbolKey call.position.symbol
    · have hpause : 0 < state.remaining.getD 0 := by
        rw [hrem, Option.getD_some]
        positivity
      have hview : blockProtocol.view c d
          (laneField (symbolKey call.position.symbol) (laneKey leg)) = some (.lane state) := by
        simp [blockProtocol, hsame, hidx, hlane]
      have hresv := hasPrefix_reserved hcall.settled.1 (laneKey leg)
      have hstate : symbolKey (strOrEmpty state.symbol) = symbolKey c.call.position.symbol := by
        rw [hstatSym, strOrEmpty, Option.getD_some, symbolKey_symbolKey, hsame]
      have hmatch := laneMatches_eq_sharesPause hcall hc hsame hstatDir hsrc hpause
      have hact : isBlockPauseStateInactive state c.now c.call.activeSetKeys = false := by
        simp [isBlockPauseStateInactive, hpause]
      rw [hview, Option.bind_some] at hchg
      simp only [laneChange, hresv, Bool.false_eq_true, if_false, parseState, hstate, ne_eq,
        not_true_eq_false, hmatch, hact] at hchg
      by_cases hshare : sharesPause call leg c = true
      · rw [if_pos hshare] at hchg ⊢
        rw [hrem, Option.getD_some, add_sub_cancel_right] at hchg
        cases left with
        | zero =>
          rw [LaneAt, apply_lanes, hchg]
          simp
        | succ left =>
          have hpos : (0 : ℚ) < ((left + 1 : ℕ) : ℚ) := by positivity
          rw [max_eq_right hpos.le, if_pos hpos] at hchg
          refine ⟨{ state with remaining := some ((left + 1 : ℕ) : ℚ), updatedAt := some c.now },
            ?_, ?_, hstatSym, hstatDir, hsrc, ?_⟩
          · rw [apply_index, hsame]
            simp [applyIndexChanges, hchg]
          · rw [apply_lanes, hchg]
          · push_cast
            rfl
      · rw [if_neg hshare] at hchg ⊢
        refine ⟨state, ?_, ?_, hstatSym, hstatDir, hsrc, hrem⟩
        · rw [apply_index, hsame]
          simp [applyIndexChanges, hchg, hidx]
        · rw [apply_lanes, hchg]
          exact hlane
    · -- the close of another symbol does not see the lane
      have hoth : d.index (symbolKey c.call.position.symbol)
          (laneField (symbolKey call.position.symbol) (laneKey leg)) = false := by
        by_contra hidxd
        obtain ⟨value, setKey, -, hval, hfield, -⟩ := hnamed.named _ _ (by simpa using hidxd)
        rw [hval] at hfield
        exact hsame (hval.trans (laneField_inj hfield).1.symm)
      have hview : blockProtocol.view c d
          (laneField (symbolKey call.position.symbol) (laneKey leg)) = none := by
        simp [blockProtocol, hoth]
      have hshare : sharesPause call leg c = false := by
        simp [sharesPause, hsame]
      rw [hview] at hchg
      rw [hshare]
      refine ⟨state, ?_, ?_, hstatSym, hstatDir, hsrc, hrem⟩
      · rw [apply_index, update_of_ne (Ne.symm hsame)]
        exact hidx
      · rw [apply_lanes, hchg]
        exact hlane

/-- **Later closes.** The pause lasts as many sharing closes as its window has. -/
lemma LaneAt.foldl (hcall : ValidCall conn call) {later : List BlockCommit}
    (hlate : ∀ c ∈ later, ValidCall conn c.call)
    (hno : ∀ c ∈ later, ∀ l ∈ c.call.position.blockLegs, legField c.call l ≠
      some (laneField (symbolKey call.position.symbol) (laneKey leg))) (hnamed : LanesNamed d)
    {left : ℕ} (h : LaneAt d call leg left) :
    LaneAt (later.foldl blockProtocol.apply d) call leg
      (left - (later.filter (sharesPause call leg)).length) := by
  induction later generalizing d left with
  | nil => exact h
  | cons c later ih =>
    have hnext := h.apply hnamed hcall (hlate c (mem_cons_self ..)) (hno c (mem_cons_self ..))
    have hrest := ih (fun c' hc' => hlate c' (mem_cons_of_mem c hc'))
      (fun c' hc' => hno c' (mem_cons_of_mem c hc')) (hnamed.apply c) hnext
    by_cases hshare : sharesPause call leg c = true
    · rw [if_pos hshare, Nat.sub_sub] at hrest
      rwa [filter_cons_of_pos hshare, length_cons, Nat.add_comm]
    · rw [if_neg hshare] at hrest
      rwa [filter_cons_of_neg hshare]

lemma LanesNamed.foldl (h : LanesNamed d) (log : List BlockCommit) :
    LanesNamed (log.foldl blockProtocol.apply d) := by
  induction log generalizing d with
  | nil => exact h
  | cons c log ih => exact ih (h.apply c)

lemma lanesNamed_of_empty {redis : BlockRedis} (hidx : ∀ symbol f, redis.index symbol f = false) :
    LanesNamed redis.toStore.data where
  named := by
    intro symbol field h
    exact absurd h (by simp [BlockRedis.toStore, hidx])
  listed := by
    intro symbol
    exact ⟨[], by simp [BlockRedis.toStore, hidx]⟩

section Reports

variable {js : UpperCasing} {redis : BlockRedis} {symbol : String}

lemma mem_readableLanes (hnamed : LanesNamed redis.toStore.data) {members : List String}
    (hmems : ∀ field, field ∈ members ↔
      redis.index (symbolKey (readerSymbolKey js symbol)) field = true)
    {setKey : String} {state : LaneState} :
    (setKey, state) ∈ readableLanes js redis members symbol ↔
      hasPrefix (readerSymbolKey js symbol ++ "|") (laneField (symbolKey symbol) setKey) = true ∧
        redis.index (symbolKey symbol) (laneField (symbolKey symbol) setKey) = true ∧
        redis.lanes (laneField (symbolKey symbol) setKey) = some (.lane state) := by
  unfold readableLanes readSymbolStates
  simp only [symbolKey_readerSymbolKey, mem_filterMap, hmems]
  constructor
  · rintro ⟨field, hidx, hent⟩
    obtain ⟨value, key, state', -, hfield, hne, hstor, hkey, -⟩ := hnamed.named _ _ hidx
    have hlane : redis.lanes field = some (.lane state') := hstor
    rw [hlane] at hent
    split at hent
    · rename_i hst
      obtain ⟨rfl, rfl⟩ : key = setKey ∧ state' = state := by
        simpa [parseState, strOr, hkey, hne] using hent
      subst hfield
      exact ⟨hst, hidx, hlane⟩
    · cases hent
  · rintro ⟨hst, hidx, hlane⟩
    refine ⟨_, hidx, ?_⟩
    obtain ⟨value, key, state', hval, hfield, hne, hstor, hkey, -⟩ := hnamed.named _ _ hidx
    obtain rfl : state = state' := by
      have hsame := hlane.symm.trans hstor
      simpa using hsame
    obtain ⟨-, rfl⟩ := laneField_inj (hval ▸ hfield)
    rw [if_pos hst, if_pos hidx, hlane]
    simp [parseState, strOr, hkey, hne]

/-- **What a lane looks like to the readers**: it is paused if some of its pause is left and if its
field starts with the reader's symbol. -/
lemma reportsPause_of_laneAt (hnamed : LanesNamed redis.toStore.data) {call : CloseCall}
    {leg : BlockLeg} {left : ℕ} (hlane : LaneAt redis.toStore.data call leg left) :
    ReportsPause js redis call.position.symbol (laneKey leg)
      (hasPrefix (readerSymbolKey js call.position.symbol ++ "|")
        (laneField (symbolKey call.position.symbol) (laneKey leg)) = true ∧ 0 < left) := by
  intro members hmems
  have hread : ∀ state, (laneKey leg, state) ∈
      readableLanes js redis members call.position.symbol ↔ _ :=
    fun _ => mem_readableLanes hnamed hmems
  -- at most one lane is read under the Set key, and it is paused if the window is not over
  have hpaus : (∃ state, (laneKey leg, state) ∈
      readableLanes js redis members call.position.symbol ∧ 0 < state.remaining.getD 0) ↔
        hasPrefix (readerSymbolKey js call.position.symbol ++ "|")
          (laneField (symbolKey call.position.symbol) (laneKey leg)) = true ∧ 0 < left := by
    simp only [hread]
    cases left with
    | zero =>
      have hnone : redis.lanes (laneField (symbolKey call.position.symbol) (laneKey leg)) = none :=
        hlane
      simp [hnone]
    | succ left =>
      obtain ⟨state, hidx, hstor, -, -, -, hrem⟩ := hlane
      have hpos : 0 < state.remaining.getD 0 := by
        rw [hrem, Option.getD_some]
        positivity
      constructor
      · rintro ⟨state', ⟨hst, -⟩, -⟩
        exact ⟨hst, Nat.succ_pos left⟩
      · rintro ⟨hst, -⟩
        exact ⟨state, ⟨hst, hidx, hstor⟩, hpos⟩
  have hagree : ∀ state, (laneKey leg, state) ∈
      readableLanes js redis members call.position.symbol →
        get? (getBlockCountLifecycleStates js redis members call.position.symbol)
          (laneKey leg) = some state := by
    intro state hmem
    apply get?_foldl_put_of_agree hmem
    rintro ⟨key, state'⟩ hent rfl
    have hstor := ((hread state).mp hmem).2.2
    rw [((hread state').mp hent).2.2] at hstor
    simpa using hstor
  refine ⟨fun activeSetKeys => ?_, ?_⟩
  · rw [← hpaus]
    simp [getUnavailableBlockSetKeys]
  · rw [← hpaus]
    refine exists_congr fun state => and_congr_left fun _ => ⟨fun hget => ?_, hagree state⟩
    by_cases hkey : laneKey leg ∈ (readableLanes js redis members call.position.symbol).map Prod.fst
    · obtain ⟨⟨key, state'⟩, hent, rfl⟩ := mem_map.mp hkey
      rw [hagree state' hent] at hget
      obtain rfl : state' = state := Option.some.inj hget
      exact hent
    · rw [getBlockCountLifecycleStates, get?_foldl_put_of_not_mem hkey] at hget
      cases hget

lemma ReportsPause.unique (hnamed : LanesNamed redis.toStore.data) {setKey : String} {p q : Prop}
    (hp : ReportsPause js redis symbol setKey p) (hq : ReportsPause js redis symbol setKey q) :
    p ↔ q := by
  obtain ⟨members, hmems⟩ := hnamed.listed (symbolKey (readerSymbolKey js symbol))
  exact (hp members hmems).2.symm.trans (hq members hmems).2

end Reports

/-! ### A committed pause -/

variable {W : Type*} [DecidableEq W]

lemma lanesNamed_run {redis₀ : BlockRedis}
    (hidx : ∀ symbol field, redis₀.index symbol field = false) {acts : List (BlockAction W)}
    {t : BlockSystem W} (h : run (blockStep conn) (start redis₀) acts = some t) :
    LanesNamed t.redis.toStore.data := by
  rw [(blockInvariant_run h).serial.data_eq]
  exact (lanesNamed_of_empty hidx).foldl t.commits

lemma reportsPause_run (js : UpperCasing) {redis₀ : BlockRedis}
    (hidx : ∀ symbol field, redis₀.index symbol field = false) {acts : List (BlockAction W)}
    {t : BlockSystem W} (h : run (blockStep conn) (start redis₀) acts = some t)
    {before later : List BlockCommit} {now : ℚ}
    (hcomm : t.commits = before ++ [⟨call, now⟩] ++ later) (hgain : SettlesGain call leg)
    (hno : ∀ c ∈ later, ∀ l ∈ c.call.position.blockLegs, legField c.call l ≠
      some (laneField (symbolKey call.position.symbol) (laneKey leg))) :
    ReportsPause js t.redis call.position.symbol (laneKey leg)
      (hasPrefix (readerSymbolKey js call.position.symbol ++ "|")
          (laneField (symbolKey call.position.symbol) (laneKey leg)) = true ∧
        (later.filter (sharesPause call leg)).length < pauseWindow leg) := by
  have hI := blockInvariant_run h
  have hdata := hI.serial.data_eq
  rw [hcomm, foldl_append, foldl_append] at hdata
  have hbef : LanesNamed (before.foldl blockProtocol.apply redis₀.toStore.data) :=
    (lanesNamed_of_empty hidx).foldl before
  have hcall : ValidCall conn call := hI.valid ⟨call, now⟩ (by simp [hcomm])
  have hlate : ∀ c ∈ later, ValidCall conn c.call := fun c hc => hI.valid c (by simp [hcomm, hc])
  have hlane := (hgain.laneAt (before.foldl blockProtocol.apply redis₀.toStore.data) now).foldl
    hcall hlate hno (hbef.apply ⟨call, now⟩)
  rw [← Nat.sub_pos_iff_lt]
  apply reportsPause_of_laneAt (lanesNamed_run hidx h)
  rw [hdata]
  exact hlane

/-- **A committed pause is visible under the writer's spelling.**  After a commit that settles a
leg with a gain, both readers report the lane as paused until as many later closes of its source and
direction are committed as the pause counts, while no close settles the lane again, if and only if
the stored field starts with the reader's spelling of the symbol. -/
theorem committedPause_visible_iff (js : UpperCasing) (conn : String) (redis₀ : BlockRedis)
    (hindex : ∀ symbol field, redis₀.index symbol field = false) (acts : List (BlockAction W))
    (s : BlockSystem W) (hs : run (blockStep conn) (start redis₀) acts = some s)
    (before : List BlockCommit) (call : CloseCall) (now : ℚ)
    (hcommits : s.commits = before ++ [⟨call, now⟩]) (leg : BlockLeg)
    (hgain : SettlesGain call leg) :
    (∀ acts' t later, run (blockStep conn) s acts' = some t → t.commits = s.commits ++ later →
      (∀ c ∈ later, ∀ l ∈ c.call.position.blockLegs, legField c.call l ≠
        some (laneField (symbolKey call.position.symbol) (laneKey leg))) →
      ReportsPause js t.redis call.position.symbol (laneKey leg)
        ((later.filter (sharesPause call leg)).length < pauseWindow leg)) ↔
      hasPrefix (readerSymbolKey js call.position.symbol ++ "|")
        (laneField (symbolKey call.position.symbol) (laneKey leg)) = true := by
  constructor
  · intro hall
    have hclaimed := hall [] s [] rfl (by simp) (by simp)
    have hlast : s.commits = before ++ [⟨call, now⟩] ++ [] := by simpa using hcommits
    have hreported := reportsPause_run js hindex hs hlast hgain (by simp)
    have hwindow : 0 < pauseWindow leg := by
      unfold pauseWindow
      omega
    exact (((hclaimed.unique (lanesNamed_run hindex hs) hreported).mp hwindow)).1
  · intro hstarts acts' t later ht hlater hno
    have hreported := reportsPause_run js hindex (run_append_of_eq_some hs ht)
      (by rw [hlater, hcommits]) hgain hno
    simpa only [hstarts, true_and] using hreported

/-- The leg of `pausingClose`. -/
def pausingLeg : BlockLeg where
  setKey := some "btc:a#block:1"
  lifecycleKey := none
  blockCount := some 1
  quantity := some 1
  entryPrice := none
  incrementSteps := some 2
  effectiveIncrementStep := some 1
  pauseCount := some 1
  targetSatisfied := some true
  addedAt := none

theorem committedPause_visible_iff_hyphen :
    ∃ s : BlockSystem Unit, run (blockStep "x02") (.start .empty)
        (closeAlone () ⟨pausingClose, 5⟩) = some s ∧
      ReportsPause asciiCasing s.redis pausingClose.position.symbol (laneKey pausingLeg) True := by
  have hvalid : ValidCall "x02" pausingClose := ⟨rfl, by decide⟩
  obtain ⟨redis, hs, -⟩ := run_closeAlone (s := start .empty) () ⟨pausingClose, 5⟩
    hvalid rfl rfl
  have hgain : SettlesGain pausingClose pausingLeg :=
    ⟨[], [], .long, 4, rfl, by decide, by simp, by decide, rfl, by decide +kernel⟩
  have hvisible := (committedPause_visible_iff asciiCasing "x02" .empty (fun _ _ => rfl) _ _ hs []
    pausingClose 5 rfl pausingLeg hgain).mpr (by decide +kernel) [] _ [] rfl (by simp) (by simp)
  have hwindow : ([].filter (sharesPause pausingClose pausingLeg)).length <
      pauseWindow pausingLeg := by decide +kernel
  exact ⟨_, hs, by simpa only [hwindow] using hvisible⟩

/-- The same gain on a symbol with a slash. -/
def slashClose : CloseCall where
  position := { pausingClose.position with symbol := "BTC/USDT" }
  activeSetKeys := []

/-- The pause of `BTC/USDT` is stored under `BTCUSDT|btc:a#block:1` and read as `BTC/USDT|…`. -/
theorem committedPause_hidden : ∃ s : BlockSystem Unit, run (blockStep "x02") (.start .empty)
        (closeAlone () ⟨slashClose, 5⟩) = some s ∧
      s.commits = [⟨slashClose, 5⟩] ∧ SettlesGain slashClose pausingLeg ∧
      0 < pauseWindow pausingLeg ∧
      ¬ ReportsPause asciiCasing s.redis "BTC/USDT" "btc:a#block:1"
        (0 < pauseWindow pausingLeg) := by
  have hvalid : ValidCall "x02" slashClose := ⟨rfl, by decide⟩
  obtain ⟨redis, hs, -⟩ := run_closeAlone (s := start .empty) () ⟨slashClose, 5⟩
    hvalid rfl rfl
  have hgain : SettlesGain slashClose pausingLeg :=
    ⟨[], [], .long, 4, rfl, by decide, by simp, by decide, rfl, by decide +kernel⟩
  have hwindow : 0 < pauseWindow pausingLeg := by decide +kernel
  have hcommits : ([] : List BlockCommit) ++ [⟨slashClose, 5⟩] = [] ++ [⟨slashClose, 5⟩] ++ [] :=
    rfl
  have hreported := reportsPause_run asciiCasing (fun _ _ => rfl) hs hcommits hgain (by simp)
  refine ⟨_, hs, rfl, hgain, hwindow, fun hclaimed => ?_⟩
  have hstarts := ((hclaimed.unique (lanesNamed_run (fun _ _ => rfl) hs) hreported).mp hwindow).1
  revert hstarts
  decide +kernel

end CtsEngine
