import CtsEngine.Transition.Runs
import CtsEngine.Venue.Ownership

/-!
# Retiring an entry-protection halt over an empty book

`reconcileEmptyBookProtectionHalt` clears the halt of a connection after two passes that found the
book of the connection empty.  The first pass leaves an observation in a key of its own; the second
compares its time and fingerprint.  A pass is a sequence of single Redis commands, between which
others may clear the halt and set it again.
-/

namespace CtsEngine

/-! ## The proof of an empty book -/

/-- A position row of the venue snapshot. -/
structure VenuePosition where
  /-- The quantity properties that are present and not blank; `none` when not a finite number. -/
  quantities : List (Option ℚ)
  owner : OwnerIds

/-- The client ids of a venue order, each under the name it may have. -/
structure VenueOrder where
  clientOrderId : Option String := none
  clientOrderID : Option String := none
  client_oid : Option String := none
  clOrdId : Option String := none

/-- `LiveOrderIdSet`: the ids, and the orders behind them where the venue returned them. -/
structure LiveOrderIdSet where
  ids : List String
  observedOrdersById : Option (List (String × VenueOrder))

/-- What a pass is given; an unreadable snapshot is `none`. -/
structure EmptyBookInput where
  localOpenPositionCount : ℕ
  venuePositions : Option (List VenuePosition)
  liveOrderIds : Option LiveOrderIdSet

variable (env : SystemEnvironment) (connectionId : String)

def venuePositionQuantityForEmptyBook (row : VenuePosition) : Option ℚ :=
  match row.quantities with
  | [] => none
  | quantities => (quantities.mapM id).map fun parsed => (parsed.map abs).foldr max 0

/-- A row that does not keep the book of the connection from being flat. -/
def isFlatRow (row : VenuePosition) : Bool :=
  match venuePositionQuantityForEmptyBook row with
  | none => false
  | some quantity =>
    if quantity ≤ 1 / 10 ^ 10 then true
    else if trim connectionId = "" then false
    else !isExactSystemPositionOwner row.owner (trim connectionId)

def isAuthoritativeVenueBookFlat (venuePositions : Option (List VenuePosition)) : Bool :=
  match venuePositions with
  | none => false
  | some rows => rows.all (isFlatRow connectionId)

/-- Whether the emptiness test counts an order as one of the connection. -/
def isCountedOrder (order : VenueOrder) : Bool :=
  isConnectionOwnedClientOrderId env
    (order.clientOrderId <|> order.clientOrderID <|> order.client_oid <|> order.clOrdId)
    connectionId

/-- The count of own orders in `isEmptyBookProtectionSafe`. -/
def systemOrderCount (liveOrderIds : Option LiveOrderIdSet) : ℕ :=
  match liveOrderIds with
  | none => 0
  | some orders =>
    match orders.observedOrdersById with
    | some observed => observed.countP fun entry => isCountedOrder env connectionId entry.2
    | none => orders.ids.length

def emptyBookFailingConditions (localOpenPositionCount : ℕ)
    (liveOrderIdsReadable venuePositionsReadable venueBookFlat : Bool) (systemOrderCount : ℕ) :
    List String :=
  (if localOpenPositionCount ≠ 0 then [s!"local_open_rows={localOpenPositionCount}"] else []) ++
    (if !liveOrderIdsReadable then ["open_orders_unreadable"] else []) ++
    (if !venuePositionsReadable then ["venue_positions_unreadable"]
      else if !venueBookFlat then ["venue_book_not_flat"] else []) ++
    (if systemOrderCount ≠ 0 then [s!"own_open_orders={systemOrderCount}"] else [])

def isEmptyBookProtectionSafe (input : EmptyBookInput) : Bool :=
  (emptyBookFailingConditions input.localOpenPositionCount input.liveOrderIds.isSome
    input.venuePositions.isSome (isAuthoritativeVenueBookFlat connectionId input.venuePositions)
    (systemOrderCount env connectionId input.liveOrderIds)).isEmpty

/-- The own order ids of `emptyBookProtectionFingerprint`.  It tries the names of the client id in
another order than the count does. -/
def fingerprintOrderIds (liveOrderIds : LiveOrderIdSet) : List String :=
  let own := ((liveOrderIds.observedOrdersById.getD []).filter fun entry =>
    isConnectionOwnedClientOrderId env
      (entry.2.clientOrderID <|> entry.2.clientOrderId <|> entry.2.client_oid <|> entry.2.clOrdId)
      connectionId).map Prod.fst
  own.mergeSort fun a b => decide (a ≤ b)

/-- `emptyBookProtectionFingerprint`, for the digest `sha256` of the connection id and the ids. -/
def emptyBookProtectionFingerprint (sha256 : String → List String → String)
    (liveOrderIds : LiveOrderIdSet) : String :=
  sha256 connectionId (fingerprintOrderIds env connectionId liveOrderIds)

/-- The order list holds no order of the connection; without the orders themselves it is empty. -/
def LiveOrderIdSet.NoneCounted (orders : LiveOrderIdSet) : Prop :=
  match orders.observedOrdersById with
  | some observed => ∀ entry ∈ observed, isCountedOrder env connectionId entry.2 = false
  | none => orders.ids = []

/-- The book of the connection is empty, as far as the input can prove it. -/
structure BookEmpty (input : EmptyBookInput) : Prop where
  localRows : input.localOpenPositionCount = 0
  /-- The venue positions are readable, and each is flat or provably not of this connection. -/
  venueFlat : ∃ rows, input.venuePositions = some rows ∧
    ∀ row ∈ rows, isFlatRow connectionId row = true
  /-- The order list is readable and names no order of this connection. -/
  noOrders : ∃ orders, input.liveOrderIds = some orders ∧ orders.NoneCounted env connectionId

lemma systemOrderCount_eq_zero_iff (orders : LiveOrderIdSet) :
    systemOrderCount env connectionId (some orders) = 0 ↔ orders.NoneCounted env connectionId := by
  obtain ⟨ids, observed⟩ := orders
  cases observed with
  | none => exact List.length_eq_zero_iff
  | some observed =>
    have hcnt := List.countP_eq_zero (l := observed)
      (p := fun entry => isCountedOrder env connectionId entry.2)
    simp only [Bool.not_eq_true] at hcnt
    exact hcnt

lemma isEmptyBookProtectionSafe_iff (input : EmptyBookInput) :
    isEmptyBookProtectionSafe env connectionId input = true ↔ BookEmpty env connectionId input := by
  obtain ⟨localOpen, venue, orders⟩ := input
  constructor
  · intro h
    simp only [isEmptyBookProtectionSafe, emptyBookFailingConditions, List.isEmpty_iff,
      List.append_eq_nil_iff, ite_eq_right_iff] at h
    obtain ⟨⟨⟨hlocal, hords⟩, hvenue⟩, hcnt⟩ := h
    have hzero : systemOrderCount env connectionId orders = 0 :=
      by_contra fun hne => by cases hcnt hne
    refine ⟨by_contra fun hne => (by cases hlocal hne), ?_, ?_⟩
    · cases venue with
      | none => cases hvenue
      | some rows =>
        refine ⟨rows, rfl, List.all_eq_true.mp ?_⟩
        cases hflat : isAuthoritativeVenueBookFlat connectionId (some rows) with
        | true => exact hflat
        | false => rw [hflat] at hvenue; cases hvenue
    · cases orders with
      | none => cases hords rfl
      | some orders => exact ⟨orders, rfl, (systemOrderCount_eq_zero_iff ..).mp hzero⟩
  · rintro ⟨hlocal, ⟨rows, rfl, hrows⟩, ids, rfl, hids⟩
    have hflat : isAuthoritativeVenueBookFlat connectionId (some rows) = true :=
      List.all_eq_true.mpr hrows
    have hzero := (systemOrderCount_eq_zero_iff env connectionId ids).mpr hids
    subst hlocal
    simp only [isEmptyBookProtectionSafe, hflat, hzero]
    rfl

end CtsEngine

namespace CtsEngine

open Transition Option

/-! ## The steps of a pass -/

/-- `EMPTY_BOOK_HALT_OBSERVATION_TTL_SECONDS`, in milliseconds. -/
def emptyBookHaltObservationTtlMs : ℕ := 120000

/-- `EMPTY_BOOK_HALT_CONFIRMATION_MIN_AGE_MS`. -/
def emptyBookHaltConfirmationMinAgeMs : ℕ := 1500

/-- The stored observation, and when its key expires. -/
structure Observation where
  fingerprint : String
  observedAt : ℕ
  expiresAt : ℕ

/-- Where a pass of `reconcileEmptyBookProtectionHalt` stands. -/
inductive PassPhase
  | idle
  /-- Before the `GET` of the halt. -/
  | readingHalt (input : EmptyBookInput)
  /-- The halt was read. -/
  | judging (input : EmptyBookInput)
  /-- Before the `GET` of the observation; the time is the one of `Date.now()`. -/
  | readingObservation (fingerprint : String) (now : ℕ)
  /-- Before the `DEL` of the halt. -/
  | clearingHalt
  /-- Before the `DEL` of the observation. -/
  | clearingObservation
  /-- Before the `SETEX` of the observation. -/
  | storing (fingerprint : String) (now : ℕ)

/-- A pass that read a halt and judged the book. -/
structure JudgedPass where
  input : EmptyBookInput
  now : ℕ

/-- The keys of a connection, its pass under way, and the history that the law speaks of. -/
structure HaltSystem where
  clock : ℕ
  halt : Option String
  observation : Option Observation
  phase : PassPhase
  /-- The passes that read the halt after it was set last and judged the book, the latest first. -/
  judged : List JudgedPass
  /-- The pass under way read the halt after it was set last. -/
  current : Bool

/-- A step: time passes, the halt is set or taken away by others, a pass begins or performs its next
command. -/
inductive HaltAction
  | tick (elapsed : ℕ)
  | setHalt (value : String)
  | dropHalt
  | begin (input : EmptyBookInput)
  | command

/-- No pass is under way, and nothing was observed yet. -/
def HaltSystem.start (clock : ℕ) (halt : Option String) : HaltSystem :=
  ⟨clock, halt, none, .idle, [], false⟩

/-- The observation that a `GET` returns. -/
def HaltSystem.readObservation (s : HaltSystem) : Option Observation :=
  s.observation.filter fun o => s.clock < o.expiresAt

def sameFreshSnapshot (previous : Observation) (fingerprint : String) (now : ℕ) : Bool :=
  decide (previous.fingerprint = fingerprint) && decide (0 < previous.observedAt) &&
    decide (previous.observedAt + emptyBookHaltConfirmationMinAgeMs ≤ now) &&
    decide (now ≤ previous.observedAt + emptyBookHaltObservationTtlMs)

variable (env : SystemEnvironment) (connectionId : String) (sha256 : String → List String → String)

/-- What a pass does once it has read a halt. -/
def HaltSystem.judge (s : HaltSystem) (input : EmptyBookInput) : HaltSystem :=
  let judged := if s.current then ⟨input, s.clock⟩ :: s.judged else s.judged
  match isEmptyBookProtectionSafe env connectionId input, input.liveOrderIds with
  | true, some liveOrderIds =>
    { s with
      judged := judged
      phase := .readingObservation
        (emptyBookProtectionFingerprint env connectionId sha256 liveOrderIds) s.clock }
  | _, _ => { s with judged := judged, phase := .clearingObservation }

/-- The next command of the pass. -/
def HaltSystem.command (s : HaltSystem) : Option HaltSystem :=
  match s.phase with
  | .idle => none
  | .readingHalt input =>
    match s.halt with
    | none => some { s with phase := .clearingObservation }
    | some _ => some { s with phase := .judging input, current := true }
  | .judging input => some (s.judge env connectionId sha256 input)
  | .readingObservation fingerprint now =>
    if s.readObservation.any fun o => sameFreshSnapshot o fingerprint now then
      some { s with phase := .clearingHalt }
    else some { s with phase := .storing fingerprint now }
  | .clearingHalt => some { s with halt := none, phase := .clearingObservation }
  | .clearingObservation => some { s with observation := none, phase := .idle }
  | .storing fingerprint now =>
    some { s with
      observation := some ⟨fingerprint, now, s.clock + emptyBookHaltObservationTtlMs⟩
      phase := .idle }

/-- The step function of the passes. -/
def haltStep (s : HaltSystem) : HaltAction → Option HaltSystem
  | .tick elapsed => some { s with clock := s.clock + elapsed }
  | .setHalt value => some { s with halt := some value, judged := [], current := false }
  | .dropHalt => some { s with halt := none }
  | .begin input =>
    match s.phase with
    | .idle =>
      if connectionId = "" then some s else some { s with phase := .readingHalt input }
    | _ => none
  | .command => s.command env connectionId sha256

/-- Among the passes over the halt there are two, with an empty book and the right distance in time,
and no pass from the first of them on found the book unsafe. -/
def ProvenEmpty (judged : List JudgedPass) : Prop :=
  ∃ last mid first rest, judged = last :: (mid ++ first :: rest) ∧
    (∀ pass ∈ last :: (mid ++ [first]), BookEmpty env connectionId pass.input) ∧
    first.now + emptyBookHaltConfirmationMinAgeMs ≤ last.now ∧
    last.now ≤ first.now + emptyBookHaltObservationTtlMs

/-- A pass that is about to clear a halt has the proof for it. -/
def ClearsProven (s : HaltSystem) : Prop :=
  s.phase = .clearingHalt → s.halt ≠ none → ProvenEmpty env connectionId s.judged

/-- An observation that a pass judging the book now would accept. -/
def Confirms (s : HaltSystem) (now : ℕ) (o : Observation) : Prop :=
  s.observation = some o ∧ s.clock < o.expiresAt ∧
    now ≤ o.observedAt + emptyBookHaltObservationTtlMs

/-- Halts are set only while no observation can confirm and no pass relies on the halt before. -/
def HaltSetApart (s : HaltSystem) : HaltAction → Prop
  | .setHalt _ =>
    match s.phase with
    | .idle | .readingHalt _ => ∀ o, ¬ Confirms s s.clock o
    | .judging input => isEmptyBookProtectionSafe env connectionId input = false
    | .clearingObservation => True
    | .readingObservation _ _ | .clearingHalt | .storing _ _ => False
  | _ => True

/-- A book with no rows, no venue positions and no orders. -/
def emptyInput : EmptyBookInput := ⟨0, some [], some ⟨[], some []⟩⟩

/-- A digest that keeps everything. -/
def plainDigest (connectionId : String) (ids : List String) : String :=
  String.intercalate "," (connectionId :: ids)

/-- A pass over the first halt leaves its observation; the halt is taken away and another one is
set; one pass two seconds later is about to clear it. -/
def replacedHalt : List HaltAction :=
  [.begin emptyInput, .command, .command, .command, .command, .dropHalt, .setHalt "second",
    .tick 2000, .begin emptyInput, .command, .command, .command]

/-- The second halt is cleared after a single pass. -/
theorem emptyBookHalt_clearedByOlderProof :
    ¬ ∀ (clock : ℕ) (halt : Option String) (acts : List HaltAction) (s : HaltSystem),
      run (haltStep {} "x01" plainDigest) (.start clock halt) acts = some s →
        ClearsProven {} "x01" s := by
  intro h
  have hrun : (run (haltStep {} "x01" plainDigest) (.start 1000 (some "first")) replacedHalt).map
      (fun s => (s.phase matches .clearingHalt, s.halt, s.judged.length)) =
        some (true, some "second", 1) := by
    decide +kernel
  obtain ⟨s, hs, hend⟩ := map_eq_some_iff.mp hrun
  obtain ⟨hphase, hhalt, hlength⟩ : (s.phase matches .clearingHalt) = true ∧
      s.halt = some "second" ∧ s.judged.length = 1 := by
    simpa only [Prod.mk.injEq] using hend
  have hclearing : s.phase = .clearingHalt := by
    revert hphase
    cases s.phase <;> simp
  obtain ⟨last, mid, first, rest, hjudged, -⟩ :=
    h 1000 (some "first") replacedHalt s hs hclearing (by rw [hhalt]; exact some_ne_none _)
  rw [hjudged] at hlength
  simp at hlength

/-! ### The history behind an observation -/

variable {env : SystemEnvironment} {connectionId : String} {sha256 : String → List String → String}

/-- The observation was left by a pass over the present halt, and no pass since found the book
unsafe. -/
def Witnessed (env : SystemEnvironment) (connectionId : String) (judged : List JudgedPass)
    (o : Observation) : Prop :=
  ∃ mid first rest, judged = mid ++ first :: rest ∧ first.now = o.observedAt ∧
    ∀ pass ∈ mid ++ [first], BookEmpty env connectionId pass.input

/-- The last pass over the present halt is the one under way, at the time `now`, and it found the
book empty. -/
def LastJudged (env : SystemEnvironment) (connectionId : String) (now : ℕ) (last : JudgedPass) :
    Prop :=
  last.now = now ∧ BookEmpty env connectionId last.input

/-- What the phase of the pass says of the history. -/
def HaltInvariant (env : SystemEnvironment) (connectionId : String) (s : HaltSystem) : Prop :=
  match s.phase with
  | .idle | .readingHalt _ =>
    ∀ o, Confirms s s.clock o → Witnessed env connectionId s.judged o
  | .judging input => isEmptyBookProtectionSafe env connectionId input = true →
      s.current = true ∧ ∀ o, Confirms s s.clock o → Witnessed env connectionId s.judged o
  | .readingObservation _ now => ∃ last rest, s.judged = last :: rest ∧
      LastJudged env connectionId now last ∧
      ∀ o, Confirms s now o → Witnessed env connectionId rest o
  | .clearingHalt => ProvenEmpty env connectionId s.judged
  | .clearingObservation => True
  | .storing _ now => ∃ last rest, s.judged = last :: rest ∧ LastJudged env connectionId now last

lemma Witnessed.provenEmpty {judged : List JudgedPass} {o : Observation} {last : JudgedPass}
    {now : ℕ} {fingerprint : String} (h : Witnessed env connectionId judged o)
    (hlast : LastJudged env connectionId now last)
    (hfresh : sameFreshSnapshot o fingerprint now = true) :
    ProvenEmpty env connectionId (last :: judged) := by
  obtain ⟨mid, first, rest, rfl, hfst, hemp⟩ := h
  obtain ⟨hnow, hlastEmp⟩ := hlast
  simp only [sameFreshSnapshot, Bool.and_eq_true, decide_eq_true_eq] at hfresh
  refine ⟨last, mid, first, rest, rfl, ?_, by omega, by omega⟩
  intro pass hpass
  rcases List.mem_cons.mp hpass with rfl | hpass
  · exact hlastEmp
  · exact hemp pass hpass

variable {s : HaltSystem}

lemma HaltInvariant.judge {input : EmptyBookInput} (hph : s.phase = .judging input)
    (h : HaltInvariant env connectionId s) :
    HaltInvariant env connectionId (s.judge env connectionId sha256 input) := by
  simp only [HaltInvariant, hph] at h
  cases hsafe : isEmptyBookProtectionSafe env connectionId input with
  | false =>
    simp only [HaltSystem.judge, hsafe]
    trivial
  | true =>
    obtain ⟨hcur, hwitn⟩ := h hsafe
    cases hids : input.liveOrderIds with
    | none =>
      simp only [HaltSystem.judge, hsafe, hids]
      trivial
    | some liveOrderIds =>
      simp only [HaltSystem.judge, hsafe, hids, hcur]
      exact ⟨⟨input, s.clock⟩, s.judged, rfl,
        ⟨rfl, (isEmptyBookProtectionSafe_iff env connectionId input).mp hsafe⟩, hwitn⟩

/-- Every command keeps the halt invariant. -/
lemma haltInvariant_command {s t : HaltSystem} (h : HaltInvariant env connectionId s)
    (hstep : s.command env connectionId sha256 = some t) : HaltInvariant env connectionId t := by
  cases hph : s.phase with
  | idle =>
    simp only [HaltSystem.command, hph] at hstep
    cases hstep
  | readingHalt input =>
    simp only [HaltInvariant, hph] at h
    cases hhalt : s.halt with
    | none =>
      simp only [HaltSystem.command, hph, hhalt, some.injEq] at hstep
      subst hstep
      trivial
    | some value =>
      simp only [HaltSystem.command, hph, hhalt, some.injEq] at hstep
      subst hstep
      exact fun _ => ⟨rfl, h⟩
  | judging input =>
    simp only [HaltSystem.command, hph, some.injEq] at hstep
    subst hstep
    exact h.judge hph
  | readingObservation fingerprint now =>
    simp only [HaltInvariant, hph] at h
    obtain ⟨last, rest, hjudg, hlast, hwitn⟩ := h
    by_cases hany : (s.readObservation.any fun o => sameFreshSnapshot o fingerprint now) = true
    · simp only [HaltSystem.command, hph, hany, if_true, some.injEq] at hstep
      subst hstep
      cases ho : s.readObservation with
      | none =>
        rw [ho] at hany
        cases hany
      | some o =>
        rw [ho] at hany
        have hfresh : sameFreshSnapshot o fingerprint now = true := hany
        obtain ⟨hstor, hread⟩ := filter_eq_some_iff.mp ho
        have hconf : Confirms s now o := by
          simp only [sameFreshSnapshot, Bool.and_eq_true, decide_eq_true_eq] at hfresh
          exact ⟨hstor, of_decide_eq_true hread, hfresh.2⟩
        simp only [hjudg]
        exact (hwitn o hconf).provenEmpty hlast hfresh
    · simp only [HaltSystem.command, hph, hany, Bool.false_eq_true, if_false,
        some.injEq] at hstep
      subst hstep
      exact ⟨last, rest, hjudg, hlast⟩
  | clearingHalt =>
    simp only [HaltSystem.command, hph, some.injEq] at hstep
    subst hstep
    trivial
  | clearingObservation =>
    simp only [HaltSystem.command, hph, some.injEq] at hstep
    subst hstep
    rintro o ⟨hstor, -⟩
    cases hstor
  | storing fingerprint now =>
    simp only [HaltInvariant, hph] at h
    obtain ⟨last, rest, hjudg, hnow, hemp⟩ := h
    simp only [HaltSystem.command, hph, some.injEq] at hstep
    subst hstep
    rintro o ⟨hstor, -⟩
    cases hstor
    refine ⟨[], last, rest, hjudg, hnow, fun pass hpass => ?_⟩
    obtain rfl := List.mem_singleton.mp hpass
    exact hemp

lemma Confirms.of_tick {elapsed now : ℕ} {o : Observation}
    (h : Confirms { s with clock := s.clock + elapsed } now o) {now' : ℕ} (hnow : now' ≤ now) :
    Confirms s now' o := by
  obtain ⟨hstor, hread, hlifet⟩ := h
  exact ⟨hstor, by simp only at hread; omega, by omega⟩

lemma haltInvariant_tick (h : HaltInvariant env connectionId s) (elapsed : ℕ) :
    HaltInvariant env connectionId { s with clock := s.clock + elapsed } := by
  cases hph : s.phase with
  | idle | readingHalt input =>
    simp only [HaltInvariant, hph] at h ⊢
    exact fun o ho => h o (ho.of_tick (Nat.le_add_right ..))
  | judging input =>
    simp only [HaltInvariant, hph] at h ⊢
    exact fun hsafe => ⟨(h hsafe).1, fun o ho => (h hsafe).2 o (ho.of_tick (Nat.le_add_right ..))⟩
  | readingObservation fingerprint now =>
    simp only [HaltInvariant, hph] at h ⊢
    obtain ⟨last, rest, hjudg, hlast, hwitn⟩ := h
    exact ⟨last, rest, hjudg, hlast, fun o ho => hwitn o (ho.of_tick le_rfl)⟩
  | clearingHalt | storing fingerprint now =>
    simp only [HaltInvariant, hph] at h ⊢
    exact h
  | clearingObservation => simp only [HaltInvariant]

lemma haltInvariant_setHalt {value : String}
    (hapart : HaltSetApart env connectionId s (.setHalt value)) :
    HaltInvariant env connectionId
      { s with halt := some value, judged := [], current := false } := by
  cases hph : s.phase with
  | idle | readingHalt input =>
    simp only [HaltSetApart, hph] at hapart
    exact fun o ho => absurd ho (hapart o)
  | judging input =>
    simp only [HaltSetApart, hph] at hapart
    intro hsafe
    rw [hapart] at hsafe
    cases hsafe
  | readingObservation fingerprint now | clearingHalt | storing fingerprint now =>
    simp only [HaltSetApart, hph] at hapart
  | clearingObservation => simp only [HaltInvariant]

lemma haltInvariant_step (s : HaltSystem) (a : HaltAction) (t : HaltSystem)
    (h : HaltInvariant env connectionId s) (hapart : HaltSetApart env connectionId s a)
    (hstep : haltStep env connectionId sha256 s a = some t) : HaltInvariant env connectionId t := by
  cases a with
  | tick elapsed =>
    cases hstep
    exact haltInvariant_tick h elapsed
  | setHalt value =>
    cases hstep
    exact haltInvariant_setHalt hapart
  | dropHalt =>
    cases hstep
    exact h
  | begin input =>
    simp only [haltStep] at hstep
    split at hstep
    · rename_i hidle
      simp only [HaltInvariant, hidle] at h
      split at hstep
      · cases hstep
        simpa only [HaltInvariant, hidle] using h
      · cases hstep
        exact h
    · cases hstep
  | command => exact haltInvariant_command h hstep

/-- If every halt is set while no observation can confirm and no pass relies on an earlier halt,
then a pass that clears a halt has found the book empty twice since that halt was set, the right
time apart, and no pass in between found it unsafe. -/
theorem emptyBookHalt_provenEmpty (env : SystemEnvironment) (connectionId : String)
    (sha256 : String → List String → String) (clock : ℕ) (halt : Option String)
    (acts : List HaltAction) (s : HaltSystem)
    (hm : Meets (haltStep env connectionId sha256) (HaltSetApart env connectionId)
      (.start clock halt) acts)
    (hr : run (haltStep env connectionId sha256) (.start clock halt) acts = some s) :
    ClearsProven env connectionId s := by
  have hstart : HaltInvariant env connectionId (.start clock halt) := by
    rintro o ⟨hstored, -⟩
    cases hstored
  have hinv : HaltInvariant env connectionId s := invariant_of_meets haltInvariant_step hstart hm hr
  intro hphase _
  simpa only [HaltInvariant, hphase] using hinv

/-- Two passes over one halt, two seconds apart. -/
def confirmedHalt : List HaltAction :=
  [.begin emptyInput, .command, .command, .command, .command, .tick 2000, .begin emptyInput,
    .command, .command, .command]

/-- The second of two passes over one halt is about to clear it. -/
theorem emptyBookHalt_provenEmpty_confirmedHalt :
    ∃ s, run (haltStep {} "x01" plainDigest) (.start 1000 (some "first")) confirmedHalt = some s ∧
      s.judged.length = 2 ∧ s.halt = some "first" ∧ ClearsProven {} "x01" s := by
  have hrun : (run (haltStep {} "x01" plainDigest) (.start 1000 (some "first")) confirmedHalt).map
      (fun s => (s.judged.length, s.halt)) = some (2, some "first") := by
    decide +kernel
  obtain ⟨s, hs, hend⟩ := map_eq_some_iff.mp hrun
  obtain ⟨hlength, hhalt⟩ := Prod.mk.inj hend
  -- no halt is set in this run
  have hm : Meets (haltStep {} "x01" plainDigest) (HaltSetApart {} "x01")
      (.start 1000 (some "first")) confirmedHalt := by
    refine meets_of_forall (fun a ha u => ?_) _
    simp only [confirmedHalt, List.mem_cons, List.not_mem_nil, or_false] at ha
    rcases ha with rfl | rfl | rfl | rfl | rfl | rfl | rfl | rfl | rfl | rfl <;> trivial
  exact ⟨s, hs, hlength, hhalt,
    emptyBookHalt_provenEmpty {} "x01" plainDigest 1000 (some "first") confirmedHalt s hm hs⟩

end CtsEngine
