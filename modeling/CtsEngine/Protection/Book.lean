import CtsEngine.Protection.ControlOrders
import Mathlib.Data.List.Dedup
import Mathlib.Data.List.Sort

/-!
# The protection book of one slot

`classifyConnectionOwnedProtectionBook` decides whether an open venue position is protected by
exactly one take profit, one stop loss and one farther security stop of the connection.  Orders of
others do not count, and the order of the list does not matter.
-/

namespace CtsEngine

open List

/-- The position whose protection is classified. -/
structure ProtectionBookInput where
  connectionId : String
  symbol : Option String
  direction : Direction
  venueQuantity : Option ℚ
  entryPrice : Option ℚ

structure ConnectionOwnedProtectionBook where
  safe : Bool
  reason : String
  quantity : ℚ
  positionIdentity : Option String
  stopLossOrder : Option ControlOrder
  takeProfitOrder : Option ControlOrder
  securityStopOrder : Option ControlOrder

variable (env : SystemEnvironment) (input : ProtectionBookInput)

/-- The normalised symbol of the position. -/
def ProtectionBookInput.slotSymbol : String := normalizeProtectionSlotSymbol input.symbol

/-- The quantity of the position, without its sign. -/
def ProtectionBookInput.absQuantity : ℚ := |finite input.venueQuantity|

/-- A refusal. -/
def ProtectionBookInput.empty (reason : String) : ConnectionOwnedProtectionBook :=
  ⟨false, reason, input.absQuantity, none, none, none, none⟩

def stopIdentity (order : ControlOrder) : String :=
  firstText [order.positionID, order.positionId, order.position_id]

/-- Whether the client id calls the order a security stop. -/
def isTaggedSecurity (order : ControlOrder) : Bool :=
  let clientId := toLowerCase (protectionOrderClientId order)
  includes "security" clientId || includes "sec" clientId

variable (direction : Direction)

/-- The comparison of the sort: the farther stop first. -/
def Farther (left right : ControlOrder × ℕ) : Prop :=
  if direction = .long then protectionOrderTrigger left.1 ≤ protectionOrderTrigger right.1
  else protectionOrderTrigger right.1 ≤ protectionOrderTrigger left.1

instance (direction : Direction) : DecidableRel (Farther direction) := fun left right =>
  inferInstanceAs (Decidable (if direction = .long then
    protectionOrderTrigger left.1 ≤ protectionOrderTrigger right.1
    else protectionOrderTrigger right.1 ≤ protectionOrderTrigger left.1))

/-- A trigger lies farther on the loss side than another. -/
def Beyond (x y : ℚ) : Prop := if direction = .long then x < y else y < x

instance (direction : Direction) (x y : ℚ) : Decidable (Beyond direction x y) :=
  inferInstanceAs (Decidable (if direction = .long then x < y else y < x))

/-- The end of the classification: the chosen security stop has to be clearly the farther one. -/
def classifyChosen (takeProfitOrder securityStop rowStop : ControlOrder)
    (identity : Option String) : ConnectionOwnedProtectionBook :=
  let triggerTolerance := max (1 / 10 ^ 12) (finite input.entryPrice * (1 / 10 ^ 10))
  let securityTrigger := protectionOrderTrigger securityStop
  let rowTrigger := protectionOrderTrigger rowStop
  if |securityTrigger - rowTrigger| ≤ triggerTolerance then
    input.empty "security_stop_range_ambiguous"
  else if ¬ Beyond input.direction securityTrigger rowTrigger then
    input.empty "security_stop_not_farther_than_row_stop"
  else
    { safe := true
      reason := "ok"
      quantity := input.absQuantity
      positionIdentity := identity
      stopLossOrder := some rowStop
      takeProfitOrder := some takeProfitOrder
      securityStopOrder := some securityStop }

/-- The position ids that the controls name, each once. -/
def positionIdentities (orders : List ControlOrder) : List String :=
  ((orders.map stopIdentity).filter (· ≠ "")).dedup

/-- The two stops: which one is the security stop, and is it the farther one.  The objects of the
order list are distinct, so each stop is named by its position. -/
def classifyStops (takeProfitOrder : ControlOrder) (stopLossOrders : List ControlOrder) :
    ConnectionOwnedProtectionBook :=
  let stops := stopLossOrders.zipIdx
  let identities := positionIdentities (stopLossOrders ++ [takeProfitOrder])
  if 1 < identities.length then input.empty "control_position_identity_mismatch"
  else
    let taggedSecurity := stops.filter (isTaggedSecurity ·.1)
    if 1 < taggedSecurity.length then input.empty "multiple_security_stop_candidates"
    else
      let sortedStops := stops.insertionSort (Farther input.direction)
      match taggedSecurity.head? <|> sortedStops.head? with
      | none => input.empty "security_stop_selection_failed"
      | some securityStop =>
        match sortedStops.find? fun stop => stop.2 ≠ securityStop.2 with
        | none => input.empty "security_stop_selection_failed"
        | some rowStop =>
          classifyChosen input takeProfitOrder securityStop.1 rowStop.1 identities.head?

/-- Whether a trigger lies on the profit side of the entry, strictly. -/
def onProfitSide (trigger : ℚ) : Bool :=
  if input.direction = .long then decide (finite input.entryPrice < trigger)
  else decide (trigger < finite input.entryPrice)

/-- Whether a trigger lies on the loss side of the entry, strictly. -/
def onLossSide (trigger : ℚ) : Bool :=
  if input.direction = .long then decide (trigger < finite input.entryPrice)
  else decide (finite input.entryPrice < trigger)

/-- The classification of the owned controls of the slot. -/
def classifyOwnedControls (owned : List ControlOrder) : ConnectionOwnedProtectionBook :=
  let kind := fun order => protectionOrderKind order (some input.direction)
  if owned.length ≠ 3 then input.empty "exact_slot_control_count_mismatch"
  else if owned.any fun order => kind order = none then
    input.empty "non_protection_slot_control_present"
  else
    let takeProfitOrders := owned.filter fun order => kind order = some .takeProfit
    let stopLossOrders := owned.filter fun order => kind order = some .stopLoss
    match takeProfitOrders with
    | [takeProfitOrder] =>
      if stopLossOrders.length ≠ 2 then input.empty "protection_leg_count_mismatch"
      else if owned.any fun order => !quantitiesMatch (protectionOrderQuantity order)
          input.absQuantity (max (1 / 10 ^ 10) (input.absQuantity * (1 / 10 ^ 8))) then
        input.empty "protection_quantity_mismatch"
      else if ¬ 0 < protectionOrderTrigger takeProfitOrder ∨
          stopLossOrders.any fun order => !decide (0 < protectionOrderTrigger order) then
        input.empty "protection_trigger_missing"
      else if !onProfitSide input (protectionOrderTrigger takeProfitOrder) ||
          stopLossOrders.any fun order => !onLossSide input (protectionOrderTrigger order) then
        input.empty (if input.direction = .long then "long_protection_range_invalid"
          else "short_protection_range_invalid")
      else classifyStops input takeProfitOrder stopLossOrders
    | _ => input.empty "protection_leg_count_mismatch"

/-- The controls of the slot that the connection owns. -/
def ownedSlotControls (openOrders : List ControlOrder) : List ControlOrder :=
  (openOrders.filter fun order =>
  orderMatchesSlot order input.slotSymbol input.direction false).filter
    fun order => isConnectionOwnedProtectionOrderForSlot env order input.connectionId
      input.slotSymbol input.direction

def classifyConnectionOwnedProtectionBook (openOrders : List ControlOrder) :
    ConnectionOwnedProtectionBook :=
  if input.slotSymbol = "" ∨ ¬ 0 < input.absQuantity ∨ ¬ 0 < finite input.entryPrice then
    input.empty "invalid_slot_inputs"
  else classifyOwnedControls input (ownedSlotControls env input openOrders)

/-- Which of two stops is taken for the security stop. -/
def isSecurityOf (a b : ControlOrder) : Bool :=
  isTaggedSecurity a || (!isTaggedSecurity b && decide (Farther direction (a, 0) (b, 1)))

lemma classifyStops_pair (takeProfitOrder a b : ControlOrder) :
    classifyStops input takeProfitOrder [a, b] =
      if 1 < (positionIdentities [a, b, takeProfitOrder]).length then
        input.empty "control_position_identity_mismatch"
      else if isTaggedSecurity a && isTaggedSecurity b then
        input.empty "multiple_security_stop_candidates"
      else if isSecurityOf input.direction a b then
        classifyChosen input takeProfitOrder a b (positionIdentities [a, b, takeProfitOrder]).head?
      else
        classifyChosen input takeProfitOrder b a
          (positionIdentities [a, b, takeProfitOrder]).head? := by
  unfold classifyStops isSecurityOf
  simp only [cons_append, nil_append]
  by_cases hmany : 1 < (positionIdentities [a, b, takeProfitOrder]).length
  · rw [if_pos hmany, if_pos hmany]
  · cases ha : isTaggedSecurity a <;> cases hb : isTaggedSecurity b <;>
      by_cases hfar : Farther input.direction (a, 0) (b, 1) <;> simp [ha, hb, hfar]

/-! ### The order of the list -/

variable {orders stops owned openOrders : List ControlOrder} {takeProfitOrder a b : ControlOrder}

lemma positionIdentities_perm {orders' : List ControlOrder} (h : orders.Perm orders') :
    (positionIdentities orders).Perm (positionIdentities orders') :=
  ((h.map stopIdentity).filter _).dedup

lemma classifyChosen_of_eq {identity : Option String}
    (h : protectionOrderTrigger a = protectionOrderTrigger b) :
    classifyChosen input takeProfitOrder a b identity =
      input.empty "security_stop_range_ambiguous" := by
  have hzero : |protectionOrderTrigger a - protectionOrderTrigger b| ≤
      max (1 / 10 ^ 12) (finite input.entryPrice * (1 / 10 ^ 10)) := by
    rw [h]
    exact le_max_of_le_left (by norm_num)
  exact if_pos hzero

lemma farther_cases (a b : ControlOrder) :
    (Farther direction (a, 0) (b, 1) ∧ ¬ Farther direction (b, 0) (a, 1)) ∨
      (¬ Farther direction (a, 0) (b, 1) ∧ Farther direction (b, 0) (a, 1)) ∨
      (Farther direction (a, 0) (b, 1) ∧ Farther direction (b, 0) (a, 1) ∧
        protectionOrderTrigger a = protectionOrderTrigger b) := by
  rcases lt_trichotomy (protectionOrderTrigger a) (protectionOrderTrigger b) with h | h | h
  · cases direction
    · exact .inl ⟨h.le, not_le.mpr h⟩
    · exact .inr (.inl ⟨not_le.mpr h, h.le⟩)
  · cases direction
    · exact .inr (.inr ⟨h.le, h.ge, h⟩)
    · exact .inr (.inr ⟨h.ge, h.le, h⟩)
  · cases direction
    · exact .inr (.inl ⟨not_le.mpr h, h.le⟩)
    · exact .inl ⟨h.le, not_le.mpr h⟩

lemma classifyStops_swap (takeProfitOrder a b : ControlOrder) :
    classifyStops input takeProfitOrder [a, b] = classifyStops input takeProfitOrder [b, a] := by
  have hids := positionIdentities_perm (Perm.swap a b [takeProfitOrder])
  rw [classifyStops_pair, classifyStops_pair, hids.length_eq]
  by_cases hmany : 1 < (positionIdentities [a, b, takeProfitOrder]).length
  · rw [if_pos hmany, if_pos hmany]
  · rw [if_neg hmany, if_neg hmany]
    -- a list of at most one id has only one order
    have hsame : positionIdentities [b, a, takeProfitOrder] =
        positionIdentities [a, b, takeProfitOrder] := by
      cases hlist : positionIdentities [a, b, takeProfitOrder] with
      | nil =>
        rw [hlist] at hids
        exact hids.eq_nil
      | cons identity rest =>
        rw [hlist, length_cons] at hmany
        have hrest : rest = [] := length_eq_zero_iff.mp (by omega)
        rw [hlist, hrest] at hids
        rw [hrest]
        exact perm_singleton.mp hids
    rw [hsame]
    unfold isSecurityOf
    cases ha : isTaggedSecurity a <;> cases hb : isTaggedSecurity b
    · rcases farther_cases input.direction a b with ⟨hab, hba⟩ | ⟨hab, hba⟩ | ⟨hab, hba, heq⟩
      · simp [hab, hba]
      · simp [hab, hba]
      · simp [classifyChosen_of_eq input heq, classifyChosen_of_eq input heq.symm]
    · simp
    · simp
    · simp

lemma perm_pair_cases {α : Type*} {l : List α} {a b : α} (h : l.Perm [a, b]) :
    l = [a, b] ∨ l = [b, a] := by
  obtain ⟨c, d, rfl⟩ := length_eq_two.mp h.length_eq
  have hc : c = a ∨ c = b := by
    simpa using h.subset (mem_cons_self ..)
  rcases hc with rfl | rfl
  · have hd : [d] = [b] := perm_singleton.mp (perm_cons c |>.mp h)
    exact .inl (congrArg (c :: ·) hd)
  · have hd : [d] = [a] := perm_singleton.mp ((perm_cons c).mp (h.trans (Perm.swap c a [])))
    exact .inr (congrArg (c :: ·) hd)

lemma classifyStops_perm {stops' : List ControlOrder} (h : stops.Perm stops')
    (hlen : stops'.length = 2) :
    classifyStops input takeProfitOrder stops = classifyStops input takeProfitOrder stops' := by
  obtain ⟨a, b, rfl⟩ := length_eq_two.mp hlen
  rcases perm_pair_cases h with rfl | rfl
  · rfl
  · exact classifyStops_swap input takeProfitOrder b a

lemma classifyOwnedControls_perm {owned' : List ControlOrder} (h : owned.Perm owned') :
    classifyOwnedControls input owned = classifyOwnedControls input owned' := by
  have hkind : ∀ kind, (owned.filter fun order =>
      decide (protectionOrderKind order (some input.direction) = some kind)).Perm
      (owned'.filter fun order =>
        decide (protectionOrderKind order (some input.direction) = some kind)) :=
    fun kind => h.filter _
  have htakes := hkind .takeProfit
  have hstops := hkind .stopLoss
  unfold classifyOwnedControls
  simp only [h.length_eq, h.any_eq, hstops.length_eq, hstops.any_eq]
  cases hlist : owned'.filter fun order =>
      decide (protectionOrderKind order (some input.direction) = some .takeProfit) with
  | nil =>
    rw [hlist] at htakes
    rw [htakes.eq_nil]
  | cons takeProfitOrder rest =>
    rw [hlist] at htakes
    cases rest with
    | nil =>
      rw [perm_singleton.mp htakes]
      dsimp only
      by_cases htwo : (owned'.filter fun order =>
          decide (protectionOrderKind order (some input.direction) = some .stopLoss)).length = 2
      · rw [classifyStops_perm input hstops htwo]
      · simp only [ne_eq, htwo, not_false_eq_true, if_true]
    | cons second rest =>
      -- both lists have at least two take profits
      obtain ⟨x, y, more, hmore⟩ : ∃ x y more, owned.filter (fun order =>
          decide (protectionOrderKind order (some input.direction) = some .takeProfit)) =
            x :: y :: more := by
        obtain ⟨x, tail, htail⟩ := exists_of_length_succ _ htakes.length_eq
        rw [htail] at htakes ⊢
        obtain ⟨y, more, rfl⟩ := exists_of_length_succ _ (Nat.succ.inj htakes.length_eq)
        exact ⟨x, y, more, rfl⟩
      rw [hmore]

/-- **Non-interference.** Books that hold the same orders of the connection are classified alike. -/
lemma classify_of_perm_owned {openOrders' : List ControlOrder}
    (h : (openOrders.filter (hasConnectionClientId env input.connectionId)).Perm
      (openOrders'.filter (hasConnectionClientId env input.connectionId))) :
    classifyConnectionOwnedProtectionBook env input openOrders =
      classifyConnectionOwnedProtectionBook env input openOrders' := by
  -- the owned controls of the slot are a selection of the orders of the connection
  have hselec : ∀ orders : List ControlOrder, ownedSlotControls env input orders =
      (orders.filter (hasConnectionClientId env input.connectionId)).filter fun order =>
        orderMatchesSlot order input.slotSymbol input.direction false &&
          isConnectionOwnedProtectionOrderForSlot env order input.connectionId input.slotSymbol
            input.direction := by
    intro orders
    unfold ownedSlotControls
    rw [filter_filter, filter_filter]
    refine filter_congr fun order _ => ?_
    cases howned : isConnectionOwnedProtectionOrderForSlot env order input.connectionId
        input.slotSymbol input.direction with
    | true => simp [hasConnectionClientId_of_owned howned]
    | false => simp
  have hperm : (ownedSlotControls env input openOrders).Perm
      (ownedSlotControls env input openOrders') := by
    rw [hselec, hselec]
    exact h.filter _
  unfold classifyConnectionOwnedProtectionBook
  rw [classifyOwnedControls_perm input hperm]

/-! ### What a safe book holds -/

/-- What is known of a book that is classified as safe: its three controls are all owned controls
of the slot, each with the quantity of the position, and the triggers lie in order. -/
structure SafeBook (openOrders : List ControlOrder) (book : ConnectionOwnedProtectionBook)
    (takeProfitOrder rowStop securityStop : ControlOrder) : Prop where
  takeProfit : book.takeProfitOrder = some takeProfitOrder
  stopLoss : book.stopLossOrder = some rowStop
  security : book.securityStopOrder = some securityStop
  /-- The owned controls of the slot are these three. -/
  only : (ownedSlotControls env input openOrders).Perm [takeProfitOrder, rowStop, securityStop]
  takeProfitKind : protectionOrderKind takeProfitOrder (some input.direction) = some .takeProfit
  rowStopKind : protectionOrderKind rowStop (some input.direction) = some .stopLoss
  securityKind : protectionOrderKind securityStop (some input.direction) = some .stopLoss
  /-- Within the relative tolerance of the comparison. -/
  quantities : ∀ order ∈ [takeProfitOrder, rowStop, securityStop],
    |protectionOrderQuantity order - input.absQuantity| ≤
      max (1 / 10 ^ 10) (input.absQuantity * (1 / 10 ^ 8))
  triggers : match input.direction with
    | .long => protectionOrderTrigger securityStop < protectionOrderTrigger rowStop ∧
        protectionOrderTrigger rowStop < finite input.entryPrice ∧
        finite input.entryPrice < protectionOrderTrigger takeProfitOrder
    | .short => protectionOrderTrigger takeProfitOrder < finite input.entryPrice ∧
        finite input.entryPrice < protectionOrderTrigger rowStop ∧
        protectionOrderTrigger rowStop < protectionOrderTrigger securityStop

lemma classifyChosen_safe {securityStop rowStop : ControlOrder} {identity : Option String}
    (h : (classifyChosen input takeProfitOrder securityStop rowStop identity).safe = true) :
    Beyond input.direction (protectionOrderTrigger securityStop) (protectionOrderTrigger rowStop) ∧
      classifyChosen input takeProfitOrder securityStop rowStop identity =
        ⟨true, "ok", input.absQuantity, identity, some rowStop, some takeProfitOrder,
          some securityStop⟩ := by
  unfold classifyChosen at h ⊢
  simp only at h ⊢
  split at h
  · cases h
  · rename_i hclear
    rw [if_neg hclear]
    split at h
    · cases h
    · rename_i hbeyon
      rw [if_neg hbeyon]
      exact ⟨not_not.mp hbeyon, rfl⟩

lemma classifyStops_safe (h : (classifyStops input takeProfitOrder [a, b]).safe = true) :
    ∃ securityStop rowStop, [a, b].Perm [rowStop, securityStop] ∧
      Beyond input.direction (protectionOrderTrigger securityStop)
        (protectionOrderTrigger rowStop) ∧
      (classifyStops input takeProfitOrder [a, b]).takeProfitOrder = some takeProfitOrder ∧
      (classifyStops input takeProfitOrder [a, b]).stopLossOrder = some rowStop ∧
      (classifyStops input takeProfitOrder [a, b]).securityStopOrder = some securityStop := by
  rw [classifyStops_pair] at h ⊢
  split at h
  · cases h
  · rename_i hids
    rw [if_neg hids]
    split at h
    · cases h
    · rename_i htagg
      rw [if_neg htagg]
      split at h
      · rename_i hsec
        obtain ⟨hbeyon, heq⟩ := classifyChosen_safe input h
        rw [if_pos hsec, heq]
        exact ⟨a, b, Perm.swap b a [], hbeyon, rfl, rfl, rfl⟩
      · rename_i hsec
        obtain ⟨hbeyon, heq⟩ := classifyChosen_safe input h
        rw [if_neg hsec, heq]
        exact ⟨b, a, Perm.refl _, hbeyon, rfl, rfl, rfl⟩

lemma perm_of_kinds {takes : List ControlOrder} {direction : Direction}
    (hkind : orders.any (fun order => decide (protectionOrderKind order (some direction) = none)) =
      false) (htakes : orders.filter (fun order =>
      decide (protectionOrderKind order (some direction) = some .takeProfit)) = takes)
    (hstops : orders.filter (fun order =>
      decide (protectionOrderKind order (some direction) = some .stopLoss)) = stops) :
    orders.Perm (takes ++ stops) := by
  have hrest : orders.filter (fun order =>
      !decide (protectionOrderKind order (some direction) = some .takeProfit)) = stops := by
    rw [← hstops]
    refine filter_congr fun order hord => ?_
    have hsome := any_eq_false.mp hkind order hord
    cases hcase : protectionOrderKind order (some direction) with
    | none => simp [hcase] at hsome
    | some kind => cases kind <;> rfl
  rw [← htakes, ← hrest]
  exact (filter_append_perm _ _).symm

/-- A safe book is one target and two stops of the full size. -/
lemma classifyOwnedControls_safe (h : (classifyOwnedControls input owned).safe = true) :
    ∃ takeProfitOrder a b, owned.Perm [takeProfitOrder, a, b] ∧
      (∀ order ∈ owned, quantitiesMatch (protectionOrderQuantity order) input.absQuantity
        (max (1 / 10 ^ 10) (input.absQuantity * (1 / 10 ^ 8))) = true) ∧
      onProfitSide input (protectionOrderTrigger takeProfitOrder) = true ∧
      (∀ order ∈ [a, b], onLossSide input (protectionOrderTrigger order) = true) ∧
      protectionOrderKind takeProfitOrder (some input.direction) = some .takeProfit ∧
      (∀ order ∈ [a, b], protectionOrderKind order (some input.direction) = some .stopLoss) ∧
      classifyOwnedControls input owned = classifyStops input takeProfitOrder [a, b] := by
  unfold classifyOwnedControls at h ⊢
  simp only at h ⊢
  split at h
  · cases h
  rename_i hcnt
  rw [if_neg hcnt]
  split at h
  · cases h
  rename_i hkds
  rw [if_neg hkds]
  split at h
  case h_2 => cases h
  rename_i takeProfitOrder htakes
  split at h
  · cases h
  rename_i htwo
  rw [if_neg htwo]
  obtain ⟨a, b, hstops⟩ := length_eq_two.mp (not_not.mp htwo)
  rw [hstops] at h ⊢
  split at h
  · cases h
  rename_i hqty
  rw [if_neg hqty]
  split at h
  · cases h
  rename_i htrig
  rw [if_neg htrig]
  split at h
  · cases h
  rename_i hsides
  rw [if_neg hsides]
  have htake : takeProfitOrder ∈ owned.filter fun order =>
      decide (protectionOrderKind order (some input.direction) = some .takeProfit) := by
    rw [htakes]
    exact mem_singleton_self _
  have hstop : ∀ order ∈ [a, b], order ∈ owned.filter fun order =>
      decide (protectionOrderKind order (some input.direction) = some .stopLoss) := by
    rw [hstops]
    exact fun _ => id
  refine ⟨takeProfitOrder, a, b, perm_of_kinds (by simpa using hkds) htakes hstops,
    fun order hord => ?_, ?_, fun order hord => ?_, ?_, fun order hord => ?_, rfl⟩
  · by_contra hmism
    exact hqty (any_eq_true.mpr ⟨order, hord, by simpa using hmism⟩)
  · by_contra hside
    exact hsides (by simp [hside])
  · by_contra hside
    refine hsides ?_
    rw [Bool.or_eq_true]
    exact .inr (any_eq_true.mpr ⟨order, hord, by simpa using hside⟩)
  · exact of_decide_eq_true (mem_filter.mp htake).2
  · exact of_decide_eq_true (mem_filter.mp (hstop order hord)).2

/-- **Soundness.** A book that is classified as safe holds the three controls of `SafeBook`. -/
lemma classify_safe (h : (classifyConnectionOwnedProtectionBook env input openOrders).safe = true) :
    ∃ takeProfitOrder rowStop securityStop, SafeBook env input openOrders
      (classifyConnectionOwnedProtectionBook env input openOrders)
      takeProfitOrder rowStop securityStop := by
  have hbook : classifyConnectionOwnedProtectionBook env input openOrders =
      classifyOwnedControls input (ownedSlotControls env input openOrders) := by
    unfold classifyConnectionOwnedProtectionBook at h ⊢
    split at h
    · cases h
    · rename_i hvalid
      rw [if_neg hvalid]
  rw [hbook] at h ⊢
  obtain ⟨takeProfitOrder, a, b, hperm, hqty, hprof, hloss, htakeKind, hstopKind, hstops⟩ :=
    classifyOwnedControls_safe input h
  rw [hstops] at h ⊢
  obtain ⟨securityStop, rowStop, hpair, hbeyon, htake, hrow, hsec⟩ := classifyStops_safe input h
  have honly : (ownedSlotControls env input openOrders).Perm
      [takeProfitOrder, rowStop, securityStop] := hperm.trans (hpair.cons takeProfitOrder)
  have hrowMem : rowStop ∈ [a, b] := hpair.symm.subset (by simp)
  have hsecMem : securityStop ∈ [a, b] := hpair.symm.subset (by simp)
  refine ⟨takeProfitOrder, rowStop, securityStop, htake, hrow, hsec, honly, htakeKind,
    hstopKind rowStop hrowMem, hstopKind securityStop hsecMem, fun order hord => ?_, ?_⟩
  · exact (of_decide_eq_true (hqty order (honly.symm.subset hord))).2.2
  · have hrowLoss := hloss rowStop hrowMem
    unfold onProfitSide at hprof
    unfold onLossSide at hrowLoss
    cases hdir : input.direction with
    | long =>
      simp only [hdir, if_true, decide_eq_true_eq] at hprof hrowLoss hbeyon
      exact ⟨hbeyon, hrowLoss, hprof⟩
    | short =>
      simp only [hdir, reduceCtorEq, if_false, decide_eq_true_eq] at hprof hrowLoss hbeyon
      exact ⟨hprof, hrowLoss, hbeyon⟩

/-- The classification does not depend on orders of others or on the order of the list, and a safe
book holds exactly one take profit, one row stop and one farther security stop of the connection. -/
theorem protectionBook_sound (env : SystemEnvironment) (input : ProtectionBookInput) :
    (∀ openOrders openOrders' : List ControlOrder,
      (openOrders.filter (hasConnectionClientId env input.connectionId)).Perm
          (openOrders'.filter (hasConnectionClientId env input.connectionId)) →
        classifyConnectionOwnedProtectionBook env input openOrders =
          classifyConnectionOwnedProtectionBook env input openOrders') ∧
    ∀ openOrders, (classifyConnectionOwnedProtectionBook env input openOrders).safe = true →
      ∃ takeProfitOrder rowStop securityStop, SafeBook env input openOrders
        (classifyConnectionOwnedProtectionBook env input openOrders)
        takeProfitOrder rowStop securityStop :=
  ⟨fun _ _ h => classify_of_perm_owned env input h, fun _ h => classify_safe env input h⟩

/-- A control of a long position in BTC-USDT. -/
def longControl (clientOrderId type : String) (stopPrice origQty : ℚ) : ControlOrder where
  orderId := some clientOrderId
  clientOrderId := some clientOrderId
  symbol := some "BTC-USDT"
  type := some type
  stopPrice := some stopPrice
  origQty := some origQty
  side := some "SELL"
  positionSide := some "LONG"

/-- A long position of one unit, entered at `100`. -/
def longInput : ProtectionBookInput := ⟨"bingx-x01", some "BTC-USDT", .long, some 1, some 100⟩

/-- A safe book, and the same book with a foreign stop in it. -/
theorem protectionBook_sound_foreignStop :
    let takeProfit := longControl "ctsbingxx01tp" "TAKE_PROFIT" 110 1
    let stop := longControl "ctsbingxx01sl" "STOP_MARKET" 95 1
    let security := longControl "ctsbingxx01sec" "STOP" 90 1
    let foreign := longControl "manual" "STOP_MARKET" 97 5
    classifyConnectionOwnedProtectionBook {} longInput [foreign, takeProfit, stop, security] =
        classifyConnectionOwnedProtectionBook {} longInput [security, takeProfit, stop] ∧
      ∃ takeProfitOrder rowStop securityStop,
        SafeBook {} longInput [foreign, takeProfit, stop, security]
          (classifyConnectionOwnedProtectionBook {} longInput [foreign, takeProfit, stop, security])
          takeProfitOrder rowStop securityStop := by
  intro takeProfit stop security foreign
  obtain ⟨hsame, hsafe⟩ := protectionBook_sound {} longInput
  have howned : ∀ order ∈ [takeProfit, stop, security],
      hasConnectionClientId {} longInput.connectionId order = true := by decide +kernel
  have hforeign : hasConnectionClientId {} longInput.connectionId foreign = false := by
    decide +kernel
  have hbook : [foreign, takeProfit, stop, security].filter
      (hasConnectionClientId {} longInput.connectionId) = [takeProfit, stop] ++ [security] := by
    rw [filter_cons_of_neg (by simp [hforeign])]
    exact filter_eq_self.mpr howned
  have hbook' : [security, takeProfit, stop].filter
      (hasConnectionClientId {} longInput.connectionId) = [security] ++ [takeProfit, stop] := by
    refine filter_eq_self.mpr fun order horder => howned order ?_
    exact (perm_append_comm : ([security] ++ [takeProfit, stop]).Perm _).subset horder
  refine ⟨hsame _ _ ?_, hsafe _ (by decide +kernel)⟩
  rw [hbook, hbook']
  exact perm_append_comm

/-- A safe book in which no control has exactly the quantity of the position, and beside which the
connection has another stop on the slot that names no side of the position. -/
theorem protectionBook_inexact : (classifyConnectionOwnedProtectionBook {} longInput
      [longControl "ctsbingxx01tp" "TAKE_PROFIT" 110 (1 + 5 / 10 ^ 9),
        longControl "ctsbingxx01sl" "STOP_MARKET" 95 (1 + 5 / 10 ^ 9),
        longControl "ctsbingxx01sec" "STOP" 90 (1 + 5 / 10 ^ 9),
        { longControl "ctsbingxx01sl2" "STOP_MARKET" 96 1 with positionSide := none }]).safe =
        true ∧
      protectionOrderQuantity (longControl "ctsbingxx01sl" "STOP_MARKET" 95 (1 + 5 / 10 ^ 9)) ≠
        longInput.absQuantity := by
  decide +kernel

end CtsEngine
