import CtsEngine.LivePosition.Hydration
import CtsEngine.Transition.Runs

/-!
# A live position after a restart

After any sequence of writes the hash is read without its JSON mirror.  A field of the last version
does not come back in three ways: no list of the reader converts it (`unconvertedFields`); the last
version cleared it, but a text of it is still in the hash, since a write deletes no field; or the
reader fills a missing field with a default.
-/

namespace CtsEngine

open Option List Transition Slot HashText HashWrite

/-! ### The condition -/

/-- Declared fields that no list of the reader converts. -/
def unconvertedFields : List LiveField :=
  [.positionTicket, .maxExecutionNotionalUsd, .liveMultiplierCapped, .realizedPnlGross,
    .tradingFees, .entryTradingFee, .entryTradingFeeAllocated, .entrySettlementOrderIds,
    .settledOrderIds, .realProfitFactorAtEntry, .blockEffectiveIncrementStep]

/-- The fields that are read back when no JSON mirror says otherwise: status, quantities and
pending actions. -/
def lifecycleFields : List LiveField :=
  [.status, .statusReason, .version, .updatedAt, .closedAt, .closeReason, .closePrice,
    .closeOrderId,
    .submissionState, .quantity, .executedQuantity, .remainingQuantity, .closedQuantity,
    .totalExecutedQuantity, .initialExecutedQuantity, .pendingAccumulation, .pendingReduction,
    .pendingSystemAction, .systemCloseRetry, .pendingQuantityMutation, .pendingProtectionOrders]

/-- The text of a number that is not finite. -/
def HashText.isNonFinite : HashText → Bool
  | .nonFinite _ => true
  | _ => false

section Condition

variable (normalizeSignalRisk : Json → Option Json)

/-- A value that the reader restores from its text. -/
def RestoresValue (f : LiveField) : JsValue → Prop
  | .number _ => f ∉ unconvertedFields
  | .nonFinite _ => False
  | .boolean _ => f ∉ unconvertedFields
  | .json j => f ∉ unconvertedFields ∧ (f = .signalRisk → normalizeSignalRisk j = some j)
  | .text _ => True

/-- A field that the reader gives no default when the hash does not have it. -/
def AbsentWhenUnwritten (f : LiveField) : Prop :=
  match f.hydrator with
  | .marketType | .volumeKind | .numberOr _ _ | .array => False
  | _ => True

/-- A field that the reader clears when the hash has the blank text. -/
def AbsentWhenBlank (f : LiveField) : Prop :=
  match f.hydrator with
  | .closedAt | .finite | .object | .objectIfPresent | .signalRisk | .ownFlag => True
  | _ => False

/-- A left-over text that the reader drops: of a number that is not finite, or of a signal risk that
the normalisation refuses. -/
def AbsentWhenStale (f : LiveField) (t : HashText) : Prop :=
  t.isNonFinite ∧ f ∈ numericHashFields ∨
    f = .signalRisk ∧ ∃ j, t = .json j ∧ normalizeSignalRisk j = none

/-- What is in the hash for a field reads as absent. -/
def LeftAbsent (h : RedisHash) (f : LiveField) : Prop :=
  match h f with
  | none => AbsentWhenUnwritten f
  | some t => if t.isBlank then AbsentWhenBlank f else AbsentWhenStale normalizeSignalRisk f t

/-- A field of the written version comes back from the hash `h` after the write. -/
def FieldSurvives (h : RedisHash) (written : LivePosition) (f : LiveField) : Prop :=
  match (written.own f).value? with
  | some v => RestoresValue normalizeSignalRisk f v
  | none => LeftAbsent normalizeSignalRisk h f

/-- The reader gives the field an own property, be it `undefined`. -/
def HashOwns (h : RedisHash) (f : LiveField) : Prop :=
  match h f with
  | none => f.hydrator ∉ [.spread, .arrayIfPresent, .objectIfPresent, .signalRisk, .flag]
  | some t => ¬ (t.isNonFinite ∧ f ∈ numericHashFields)

variable (mirror : Mirror)

/-- The newer of the two sources has the field itself, or the older one has nothing to add. -/
def NewerDecides (h : RedisHash) (f : LiveField) : Prop :=
  if hashIsAtLeastAsRecent (parseRedisHashPosition normalizeSignalRisk h) mirror.own then
    HashOwns h f ∨ mirror f = none
  else (mirror f).isSome ∨ LeftAbsent normalizeSignalRisk h f

/-- The hash alone gives back every field of the position. -/
def RestoredBy (h : RedisHash) (position : LivePosition) : Prop :=
  ∀ f, (parseRedisHashPosition normalizeSignalRisk h f).value? = (position.own f).value?

/-- The source that is newer by version and time. -/
def newerSource (h : RedisHash) : LiveField → Slot :=
  if hashIsAtLeastAsRecent (parseRedisHashPosition normalizeSignalRisk h) mirror.own then
    parseRedisHashPosition normalizeSignalRisk h
  else mirror.own

/-- Merging a mirror and a hash returns the lifecycle fields of the newer source. -/
def NewerKept (h : RedisHash) : Prop :=
  ∃ merged, mergeLivePositionSnapshotSources normalizeSignalRisk (some mirror) (some h) =
      some merged ∧
    ∀ f ∈ lifecycleFields, (merged f).value? = (newerSource normalizeSignalRisk mirror h f).value?

end Condition

/-! ### How each kind of field is read -/

/-- How the reader treats the fields of each kind. -/
def ReadingOk (f : LiveField) : Prop :=
  match f.kind with
  | .number =>
    f ∈ numericHashFields ∧ f ∉ unconvertedFields ∨
      f ∉ numericHashFields ∧ f ∈ unconvertedFields ∧ f.hydrator = .spread
  | .boolean => f ∉ numericHashFields ∧
      (f.hydrator ∈ [.flag, .ownFlag] ∧ f ∉ unconvertedFields ∨
        f.hydrator = .spread ∧ f ∈ unconvertedFields)
  | .json => f ∉ numericHashFields ∧
      (f.hydrator ∈ [.array, .object, .objectOrEmpty, .arrayIfPresent, .objectIfPresent] ∧
          f ∉ unconvertedFields ∧ f ≠ .signalRisk ∨
        f = .signalRisk ∨ f.hydrator = .spread ∧ f ∈ unconvertedFields)
  | .text => f ∉ numericHashFields ∧ (f = .marketType ∨ f = .volumeKind ∨ f.hydrator = .spread)

instance (f : LiveField) : Decidable (ReadingOk f) := by
  unfold ReadingOk
  split <;> infer_instance

lemma readingOk (f : LiveField) : ReadingOk f := by
  cases f <;> decide +kernel

/-- The kind of value that a text is the text of. -/
def HashText.kind : HashText → FieldKind
  | .plain _ => .text
  | .number _ => .number
  | .nonFinite _ => .number
  | .boolean _ => .boolean
  | .json _ => .json

/-- Every text of the hash is blank or the text of a value of its field. -/
def TypedHash (h : RedisHash) : Prop := ∀ f t, h f = some t → t.isBlank = true ∨ t.kind = f.kind

lemma kind_of_typedValue {f : LiveField} {v : JsValue} (h : typedValue f v = true) :
    (redisHashScalar (some v)).kind = f.kind := by
  unfold typedValue at h
  split at h
  · rcases (Bool.or_eq_true _ _).mp h with h | h <;> rw [of_decide_eq_true h] <;> rfl
  · rcases (Bool.or_eq_true _ _).mp h with h | h <;> rw [of_decide_eq_true h] <;> rfl
  all_goals first | exact (of_decide_eq_true h).symm | cases h

lemma TypedHash.hashStep {h h' : RedisHash} {w : HashWrite} (ht : TypedHash h)
    (hstep : CtsEngine.hashStep h w = some h') : TypedHash h' ∧ h' = hset h w.fields := by
  have heq : h' = hset h w.fields := by
    cases w with
    | save position => exact (some.inj hstep).symm
    | mutate position allowed next =>
      simp only [CtsEngine.hashStep] at hstep
      split at hstep
      · exact (some.inj hstep).symm
      · cases hstep
  refine ⟨?_, heq⟩
  rw [heq]
  intro f t hft
  unfold hset at hft
  cases hflds : w.fields f with
  | none =>
    rw [hflds] at hft
    exact ht f t hft
  | some t' =>
    rw [hflds] at hft
    obtain rfl : t' = t := some.inj hft
    have hscal : ∀ (p : LivePosition) v, p.own f = .value v → t' = redisHashScalar (some v) →
        t'.isBlank = true ∨ t'.kind = f.kind := by
      intro p v hv ht'
      refine .inr ?_
      rw [ht']
      exact kind_of_typedValue (p.typed f v (by rw [hv]; rfl))
    cases w with
    | save position =>
      simp only [fields, normalizeRedisHash] at hflds
      split at hflds
      · rename_i v hv
        exact hscal position v hv (some.inj hflds).symm
      · cases hflds
        exact .inl rfl
      · cases hflds
    | mutate position allowed next =>
      simp only [fields, positionToRedisHash] at hflds
      split at hflds
      · rename_i v hv
        exact hscal next v hv (some.inj hflds).symm
      · cases hflds

lemma hset_fields_of_value {h : RedisHash} {w : HashWrite} {f : LiveField} {v : JsValue}
    (hv : (w.written.own f).value? = some v) :
    hset h w.fields f = some (redisHashScalar (some v)) := by
  have hslot : w.written.own f = .value v := by
    cases hs : w.written.own f <;> rw [hs] at hv <;> simp_all [value?]
  unfold hset
  cases w with
  | save position =>
    simp only [HashWrite.written] at hslot
    simp [fields, normalizeRedisHash, hslot]
  | mutate position allowed next =>
    simp only [HashWrite.written] at hslot
    simp [fields, positionToRedisHash, hslot]

section Reading

variable {normalizeSignalRisk : Json → Option Json} {h : RedisHash} {f : LiveField}

lemma parse_of_not_numeric (hn : f ∉ numericHashFields) :
    parseRedisHashPosition normalizeSignalRisk h f = hydrateField normalizeSignalRisk h f := by
  unfold parseRedisHashPosition
  rw [if_neg hn]

lemma parse_of_number {q : ℚ} (hn : f ∈ numericHashFields) (hf : h f = some (.number q)) :
    parseRedisHashPosition normalizeSignalRisk h f = .value (.number q) := by
  unfold parseRedisHashPosition
  rw [if_pos hn, hf]
  rfl

lemma parse_of_nonFinite {x : NonFinite} (hn : f ∈ numericHashFields)
    (hf : h f = some (.nonFinite x)) :
    parseRedisHashPosition normalizeSignalRisk h f = .absent := by
  unfold parseRedisHashPosition
  rw [if_pos hn, hf]
  rfl

lemma parse_of_blank (hf : ∀ t, h f = some t → t.isBlank = true) :
    parseRedisHashPosition normalizeSignalRisk h f = hydrateField normalizeSignalRisk h f := by
  unfold parseRedisHashPosition
  split
  · cases ht : h f with
    | none => rfl
    | some t =>
      have hblank := hf t ht
      cases t with
      | plain s => simp [parseRedisFiniteNumber, hblank]
      | number q => cases hblank
      | nonFinite x => cases hblank
      | boolean b => cases hblank
      | json j => cases hblank
  · rfl

lemma hydrate_of_spread (hh : f.hydrator = .spread) : hydrateField normalizeSignalRisk h f =
      match h f with
      | none => .absent
      | some t => .value (.text t) := by
  cases hv : h f <;> simp [hydrateField, hh, hv]

lemma parse_of_text {s : String} (hk : f.kind = .text)
    (htyped : typedValue f (.text (.plain s)) = true) (hf : h f = some (.plain s)) :
    parseRedisHashPosition normalizeSignalRisk h f = .value (.text (.plain s)) := by
  have hread := readingOk f
  simp only [ReadingOk, hk] at hread
  obtain ⟨hn, hcases⟩ := hread
  rw [parse_of_not_numeric hn]
  rcases hcases with rfl | rfl | hsprea
  · have hliter : s = "crypto" ∨ s = "forex" := by simpa [typedValue] using htyped
    simp only [hydrateField, hf]
    rcases hliter with rfl | rfl <;> rfl
  · have hliter : s = "base" ∨ s = "lots" := by simpa [typedValue] using htyped
    simp only [hydrateField, hf]
    rcases hliter with rfl | rfl <;> rfl
  · rw [hydrate_of_spread hsprea, hf]

/-- The value of a boolean field comes back unless the reader does not convert it. -/
lemma parse_of_boolean {b : Bool} (hk : f.kind = .boolean) (hf : h f = some (.boolean b)) :
    (parseRedisHashPosition normalizeSignalRisk h f).value? = some (.boolean b) ↔
      f ∉ unconvertedFields := by
  have hread := readingOk f
  simp only [ReadingOk, hk] at hread
  obtain ⟨hn, hcases⟩ := hread
  rw [parse_of_not_numeric hn]
  rcases hcases with ⟨hflag, hconv⟩ | ⟨hsprea, hconv⟩
  · have hval : hydrateField normalizeSignalRisk h f = .value (.boolean b) := by
      rcases mem_pair.mp hflag with hh | hh <;>
        simp [hydrateField, hh, hf, parseRedisBoolean, ofOption]
    simp [hval, hconv, value?]
  · simp [hydrate_of_spread hsprea, hf, hconv, value?]

/-- The value of a JSON field comes back unless the reader does not convert it, or normalises the
signal risk to something else. -/
lemma parse_of_json {j : Json} (hk : f.kind = .json) (hf : h f = some (.json j)) :
    (parseRedisHashPosition normalizeSignalRisk h f).value? = some (.json j) ↔
      f ∉ unconvertedFields ∧ (f = .signalRisk → normalizeSignalRisk j = some j) := by
  have hread := readingOk f
  simp only [ReadingOk, hk] at hread
  obtain ⟨hn, hcases⟩ := hread
  rw [parse_of_not_numeric hn]
  rcases hcases with ⟨hjson, hconv, hne⟩ | rfl | ⟨hsprea, hconv⟩
  · have hval : hydrateField normalizeSignalRisk h f = .value (.json j) := by
      simp only [mem_cons, not_mem_nil, or_false] at hjson
      rcases hjson with hh | hh | hh | hh | hh <;>
        simp [hydrateField, hh, hf, safeJsonParse, ofOption]
    simp [hval, hconv, hne, value?]
  · have hconv : LiveField.signalRisk ∉ unconvertedFields := by decide
    simp only [hydrateField, LiveField.hydrator, hf, safeJsonParse, bind_some, hconv]
    cases normalizeSignalRisk j <;> simp [ofOption, value?]
  · simp [hydrate_of_spread hsprea, hf, hconv, value?]

lemma parse_of_numeric_kind {v : JsValue} (hk : f.kind = .number)
    (hv : (∃ q, v = .number q) ∨ ∃ x, v = .nonFinite x)
    (hf : h f = some (redisHashScalar (some v))) :
    (parseRedisHashPosition normalizeSignalRisk h f).value? = some v ↔
      f ∉ unconvertedFields ∧ ∃ q, v = .number q := by
  have hread := readingOk f
  simp only [ReadingOk, hk] at hread
  rcases hread with ⟨hn, hconv⟩ | ⟨hn, hconv, hsprea⟩
  · rcases hv with ⟨q, rfl⟩ | ⟨x, rfl⟩
    · rw [parse_of_number hn hf]
      simp [hconv, value?]
    · rw [parse_of_nonFinite hn hf]
      simp [value?]
  · rw [parse_of_not_numeric hn, hydrate_of_spread hsprea, hf]
    rcases hv with ⟨q, rfl⟩ | ⟨x, rfl⟩ <;> simp [hconv, value?]

/-- **A written value comes back exactly when the reader restores it.** -/
lemma parse_of_value {v : JsValue} (htyped : typedValue f v = true)
    (hf : h f = some (redisHashScalar (some v))) :
    (parseRedisHashPosition normalizeSignalRisk h f).value? = some v ↔
      RestoresValue normalizeSignalRisk f v := by
  have hk := kind_of_typedValue htyped
  cases v with
  | number q =>
    rw [parse_of_numeric_kind hk.symm (.inl ⟨q, rfl⟩) hf]
    simp [RestoresValue]
  | nonFinite x =>
    rw [parse_of_numeric_kind hk.symm (.inr ⟨x, rfl⟩) hf]
    simp [RestoresValue]
  | boolean b => exact parse_of_boolean hk.symm hf
  | json j => exact parse_of_json hk.symm hf
  | text t =>
    have hplain : ∃ s, t = .plain s := by
      cases t with
      | plain s => exact ⟨s, rfl⟩
      | _ => unfold typedValue at htyped; split at htyped <;> simp_all
    obtain ⟨s, rfl⟩ := hplain
    simp [parse_of_text hk.symm htyped hf, RestoresValue, value?]

/-! ### Fields without a value -/

lemma firstNonBlank_of_none (hf : h f = none) : firstNonBlank h [f] = none := by
  simp [firstNonBlank, hf]

variable {t : HashText}

lemma firstNonBlank_of_blank (hf : h f = some t) (ht : t.isBlank = true) :
    firstNonBlank h [f] = none := by
  simp [firstNonBlank, hf, ht]

/-- Without a text the reader gives a field a value exactly when it has a default for it. -/
lemma hydrate_of_unwritten (hf : h f = none) :
    (hydrateField normalizeSignalRisk h f).value? = none ↔ AbsentWhenUnwritten f := by
  unfold AbsentWhenUnwritten hydrateField
  rw [hf, firstNonBlank_of_none hf]
  cases f.hydrator <;>
    simp [value?, ofOption, parseRedisFiniteNumber, parseRedisBoolean, safeJsonParse]

lemma hydrate_of_blank (hf : h f = some t) (ht : t.isBlank = true) :
    (hydrateField normalizeSignalRisk h f).value? = none ↔ AbsentWhenBlank f := by
  obtain ⟨s, rfl⟩ : ∃ s, t = .plain s := by
    cases t with
    | plain s => exact ⟨s, rfl⟩
    | _ => cases ht
  unfold AbsentWhenBlank hydrateField
  rw [hf, firstNonBlank_of_blank hf ht]
  cases f.hydrator <;>
    simp [value?, ofOption, parseRedisFiniteNumber, parseRedisBoolean, safeJsonParse]

/-- A text that is not blank reads as absent only if the reader drops it. -/
lemma parse_of_stale (hf : h f = some t) (ht : t.isBlank = false) (hk : t.kind = f.kind) :
    (parseRedisHashPosition normalizeSignalRisk h f).value? = none ↔
      AbsentWhenStale normalizeSignalRisk f t := by
  have hread := readingOk f
  unfold ReadingOk at hread
  unfold AbsentWhenStale
  cases t with
  | plain s =>
    simp only [← hk] at hread
    obtain ⟨hn, hcases⟩ := hread
    rw [parse_of_not_numeric hn]
    rcases hcases with rfl | rfl | hsprea
    · simp [hydrateField, LiveField.hydrator, value?, isNonFinite]
    · simp [hydrateField, LiveField.hydrator, value?, isNonFinite]
    · simp [hydrate_of_spread hsprea, hf, value?, isNonFinite]
  | number q =>
    simp only [← hk] at hread
    rcases hread with ⟨hn, -⟩ | ⟨hn, -, hsprea⟩
    · simp [parse_of_number hn hf, value?, isNonFinite]
    · simp [parse_of_not_numeric hn, hydrate_of_spread hsprea, hf, value?, isNonFinite]
  | nonFinite x =>
    simp only [← hk] at hread
    rcases hread with ⟨hn, -⟩ | ⟨hn, -, hsprea⟩
    · simp [parse_of_nonFinite hn hf, value?, isNonFinite, hn]
    · simp [parse_of_not_numeric hn, hydrate_of_spread hsprea, hf, value?, hn]
  | boolean b =>
    simp only [← hk] at hread
    obtain ⟨hn, hcases⟩ := hread
    rw [parse_of_not_numeric hn]
    rcases hcases with ⟨hflag, -⟩ | ⟨hsprea, -⟩
    · rcases mem_pair.mp hflag with hh | hh <;>
        simp [hydrateField, hh, hf, parseRedisBoolean, ofOption, value?, isNonFinite]
    · simp [hydrate_of_spread hsprea, hf, value?, isNonFinite]
  | json j =>
    simp only [← hk] at hread
    obtain ⟨hn, hcases⟩ := hread
    rw [parse_of_not_numeric hn]
    rcases hcases with ⟨hjson, -, hne⟩ | rfl | ⟨hsprea, hconv⟩
    · simp only [mem_cons, not_mem_nil, or_false] at hjson
      rcases hjson with hh | hh | hh | hh | hh <;>
        simp [hydrateField, hh, hf, safeJsonParse, ofOption, value?, isNonFinite, hne]
    · simp only [hydrateField, LiveField.hydrator, hf, safeJsonParse, isNonFinite]
      cases hrisk : normalizeSignalRisk j <;> simp [ofOption, value?, hrisk]
    · have hne : f ≠ .signalRisk := by
        rintro rfl
        exact absurd hconv (by decide)
      simp [hydrate_of_spread hsprea, hf, value?, isNonFinite, hne]

/-- **A field reads as absent exactly when what is in the hash is left absent.** -/
lemma parse_eq_none_iff (ht : TypedHash h) (f : LiveField) :
    (parseRedisHashPosition normalizeSignalRisk h f).value? = none ↔
      LeftAbsent normalizeSignalRisk h f := by
  unfold LeftAbsent
  cases hf : h f with
  | none =>
    rw [parse_of_blank (fun t htext => by rw [hf] at htext; cases htext)]
    exact hydrate_of_unwritten hf
  | some t =>
    cases hblank : t.isBlank with
    | true =>
      rw [parse_of_blank (fun t' htext => by
        rw [hf] at htext
        cases htext
        exact hblank)]
      simp only [hblank]
      exact hydrate_of_blank hf hblank
    | false =>
      simp only [hblank]
      refine parse_of_stale hf hblank ((ht f t hf).resolve_left ?_)
      rw [hblank]
      exact Bool.false_ne_true

lemma ofOption_ne_absent (o : Option JsValue) : ofOption o ≠ .absent := by
  cases o <;> exact Slot.noConfusion

lemma hydrate_ne_absent (hf : h f = some t) : hydrateField normalizeSignalRisk h f ≠ .absent := by
  unfold hydrateField
  rw [hf]
  cases f.hydrator with
  | closedAt =>
    simp only
    split
    · split <;> exact Slot.noConfusion
    all_goals exact Slot.noConfusion
  | flag =>
    simp only
    split <;> exact Slot.noConfusion
  | _ => first | exact Slot.noConfusion | exact ofOption_ne_absent _

/-- **The reader gives a field an own property exactly when `HashOwns` says so.** -/
lemma parse_ne_absent_iff (ht : TypedHash h) (f : LiveField) :
    parseRedisHashPosition normalizeSignalRisk h f ≠ .absent ↔ HashOwns h f := by
  unfold HashOwns
  cases hf : h f with
  | none =>
    rw [parse_of_blank (fun t htext => by rw [hf] at htext; cases htext)]
    unfold hydrateField
    rw [hf, firstNonBlank_of_none hf]
    cases f.hydrator <;>
      simp [ofOption, parseRedisFiniteNumber, parseRedisBoolean, safeJsonParse]
  | some t =>
    by_cases hdrop : t.isNonFinite = true ∧ f ∈ numericHashFields
    · obtain ⟨hnonFinit, hn⟩ := hdrop
      obtain ⟨x, rfl⟩ : ∃ x, t = .nonFinite x := by
        cases t with
        | nonFinite x => exact ⟨x, rfl⟩
        | _ => cases hnonFinit
      simp [parse_of_nonFinite hn hf, isNonFinite, hn]
    · refine iff_of_true ?_ hdrop
      unfold parseRedisHashPosition
      split
      · rename_i hn
        split
        · exact Slot.noConfusion
        · rename_i hnone
          rw [hf] at hnone
          -- a text in a numeric field that is not a finite number is blank
          have hblank : t.isBlank = true := by
            refine (ht f t hf).resolve_right fun hk => hdrop ⟨?_, hn⟩
            have hread := readingOk f
            cases t with
            | nonFinite x => rfl
            | number q => cases hnone
            | plain s =>
              simp only [ReadingOk, ← hk] at hread
              exact absurd hn hread.1
            | boolean b =>
              simp only [ReadingOk, ← hk] at hread
              exact absurd hn hread.1
            | json j =>
              simp only [ReadingOk, ← hk] at hread
              exact absurd hn hread.1
          rw [hf, any_some, hblank]
          exact hydrate_ne_absent hf
      · exact hydrate_ne_absent hf

end Reading

lemma typedHash_run {writes : List HashWrite} {w : HashWrite} {h : RedisHash}
    (hrun : run hashStep (fun _ => none) (writes ++ [w]) = some h) :
    TypedHash h ∧ ∃ h₀, h = hset h₀ w.fields := by
  obtain ⟨h₀, hwrit, hw⟩ := run_append_eq_some.mp hrun
  have ht₀ : TypedHash h₀ :=
    invariant_of_step (fun _ _ _ ht hstep => (ht.hashStep hstep).1) (fun _ _ hft => by cases hft)
      hwrit
  rw [run_singleton] at hw
  obtain ⟨ht, heq⟩ := ht₀.hashStep hw
  exact ⟨ht, h₀, heq⟩

variable (f)

/-- In a spread the newer object decides a property exactly when it has the property itself or the
older object has no value for it. -/
lemma overlay_value_iff (older newer : LiveField → Slot) :
    (overlay older newer f).value? = (newer f).value? ↔
      newer f ≠ .absent ∨ (older f).value? = none := by
  unfold overlay
  cases newer f <;> simp [value?]

lemma Mirror.own_ne_absent_iff (mirror : Mirror) :
    mirror.own f ≠ .absent ↔ (mirror f).isSome = true := by
  unfold Mirror.own
  cases mirror f <;> simp

lemma Mirror.own_value_iff (mirror : Mirror) :
    (mirror.own f).value? = none ↔ mirror f = none := by
  unfold Mirror.own
  cases mirror f <;> simp [value?]

variable {f}

/-- **When a live position survives a restart.**  After any sequence of writes that ends with the
version `w`, the hash without its mirror gives back every field of that version, and the merge with
a mirror the lifecycle, quantity and pending-action fields of the newer source, exactly when every
value survives its text, and no field comes from an older version or source. -/
theorem livePosition_survivesRestart_iff (normalizeSignalRisk : Json → Option Json)
    (writes : List HashWrite) (w : HashWrite) (h : RedisHash) (mirror : Mirror)
    (hrun : run hashStep (fun _ => none) (writes ++ [w]) = some h) :
    RestoredBy normalizeSignalRisk h w.written ∧ NewerKept normalizeSignalRisk mirror h ↔
      (∀ f, FieldSurvives normalizeSignalRisk h w.written f) ∧
        ∀ f ∈ lifecycleFields, NewerDecides normalizeSignalRisk mirror h f := by
  obtain ⟨ht, h₀, heq⟩ := typedHash_run hrun
  refine and_congr (forall_congr' fun f => ?_) ?_
  · unfold FieldSurvives
    cases hv : (w.written.own f).value? with
    | none => exact parse_eq_none_iff ht f
    | some v =>
      refine parse_of_value (w.written.typed f v hv) ?_
      rw [heq]
      exact hset_fields_of_value hv
  · unfold NewerKept newerSource mergeLivePositionSnapshotSources
    simp only [map_some, some.injEq, exists_eq_left']
    refine forall₂_congr fun f _ => ?_
    unfold NewerDecides
    by_cases hrecent : hashIsAtLeastAsRecent (parseRedisHashPosition normalizeSignalRisk h)
        mirror.own = true
    · simp only [hrecent, if_true]
      rw [overlay_value_iff, parse_ne_absent_iff ht f, mirror.own_value_iff]
    · simp only [hrecent, Bool.false_eq_true, if_false]
      rw [overlay_value_iff, parse_eq_none_iff ht f, mirror.own_ne_absent_iff]

/-- The fields of a row that has every field with a default, and a pending accumulation; its pending
reduction was cleared. -/
def openRowFields : LiveField → Slot
  | .id => .value (.text (.plain "row"))
  | .connectionId => .value (.text (.plain "conn"))
  | .symbol => .value (.text (.plain "BTC-USDT"))
  | .marketType => .value (.text (.plain "crypto"))
  | .volumeKind => .value (.text (.plain "base"))
  | .marginType => .value (.text (.plain "cross"))
  | .status => .value (.text (.plain "open"))
  | .entryPrice | .averageExecutionPrice => .value (.number 100)
  | .executedQuantity | .quantity => .value (.number 3)
  | .remainingQuantity => .value (.number 0)
  | .leverage => .value (.number 5)
  | .version => .value (.number 2)
  | .createdAt | .updatedAt => .value (.number 1000)
  | .fills | .progression | .accumulatedSetKeys | .systemProtectionLegs | .partialOrderExecutions
  | .exchangeQuantityAdjustments => .value (.json emptyArray)
  | .pendingAccumulation => .value (.json ⟨"\x7b\"requestedQuantity\":1\x7d"⟩)
  | .pendingReduction => .undefined
  | .trailingActive => .value (.boolean true)
  | _ => .absent

def openRow : LivePosition where
  own := openRowFields
  typed f v hv := by cases f <;> cases hv <;> decide
  required := by decide

/-- The open row with trading fees. -/
def feeRow : LivePosition where
  own f := if f = .tradingFees then .value (.number 1) else openRowFields f
  typed f v hv := by
    by_cases hf : f = .tradingFees
    · subst hf
      cases hv
      decide
    · rw [if_neg hf] at hv
      exact openRow.typed f v hv
  required := by decide

/-- The trading fees of a row come back as a text. -/
theorem livePosition_lostAtRestart :
    ¬ ∀ (normalizeSignalRisk : Json → Option Json) (writes : List HashWrite) (w : HashWrite)
      (h : RedisHash) (mirror : Mirror),
      run hashStep (fun _ => none) (writes ++ [w]) = some h →
        RestoredBy normalizeSignalRisk h w.written ∧ NewerKept normalizeSignalRisk mirror h := by
  intro hall
  have hfees := (hall some [] (.save feeRow) _ (fun _ => none) rfl).1 .tradingFees
  exact absurd hfees (by decide)

/-- A mirror that is one version behind. -/
def olderMirror : Mirror
  | .status => some (.text (.plain "placed"))
  | .version => some (.number 1)
  | _ => none

theorem livePosition_survivesRestart_openRow :
    ∃ h, run hashStep (fun _ => none) [.save openRow] = some h ∧ RestoredBy some h openRow ∧
      NewerKept some olderMirror h := by
  let h : RedisHash := hset (fun _ => none) (normalizeRedisHash openRow)
  have hiff := livePosition_survivesRestart_iff some [] (.save openRow) h olderMirror rfl
  refine ⟨h, rfl, hiff.mpr ⟨fun f => ?_, fun f hf => ?_⟩⟩
  · cases f
    all_goals first
      | exact trivial
      | exact ⟨by decide, nofun⟩
      | exact show _ ∉ unconvertedFields by decide
  · have hrecent :
    hashIsAtLeastAsRecent (parseRedisHashPosition some h) olderMirror.own = true := by
      decide +kernel
    unfold NewerDecides
    rw [if_pos hrecent]
    cases f
    all_goals first
      | exact .inr rfl
      | exact .inl (show ¬ (_ ∧ _) by decide)

end CtsEngine
