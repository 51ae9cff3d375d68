import CtsEngine.Block.Lifecycle
import CtsEngine.Venue.Ownership
import Mathlib.Data.Nat.Digits.Defs

/-!
# The client order ids of a connection

The two builders of client order ids, the ids that earlier versions built, and when the ownership
test of another connection rejects all of them: the hashes differ, and while ids with the legacy
prefix are accepted no legacy prefix extends the other.
-/

namespace CtsEngine

open List Nat Char

/-! ## Building ids -/

inductive SystemOrderType
  | main
  | preset
  | signal
  | direct
  | bot

/-- `TYPE_CODE`. -/
def SystemOrderType.code : SystemOrderType → Char
  | .main => 'm'
  | .preset => 'p'
  | .signal => 's'
  | .direct => 'd'
  | .bot => 'b'

def normalizeSystemOrderType (value : Option String) : SystemOrderType :=
  let v := toLowerCase (text value)
  if v = "preset" then .preset
  else if v = "signal" then .signal
  else if v = "direct" then .direct
  else if v = "bot" then .bot
  else .main

def clientOrderSystemTypePrefix (env : SystemEnvironment) (connectionId : String)
    (type : Option String) : String :=
  clientOrderTypedPrefix env connectionId ++ String.singleton (normalizeSystemOrderType type).code

def SystemOrderType.name : SystemOrderType → String
  | .main => "main"
  | .preset => "preset"
  | .signal => "signal"
  | .direct => "direct"
  | .bot => "bot"

/-- `CODE_TYPE`. -/
def SystemOrderType.ofCode (c : Char) : Option SystemOrderType :=
  [SystemOrderType.main, .preset, .signal, .direct, .bot].find? (·.code = c)

/-- What `clientOrderTypeOf` finds in one of our ids. -/
inductive ClientOrderType
  | typed (type : SystemOrderType)
  | legacy

/-- `clientOrderTypeOf`: `none` for an id that is not ours. -/
def clientOrderTypeOf (env : SystemEnvironment) (clientOrderId : Option String)
    (connectionId : String) : Option ClientOrderType :=
  let id := toLowerCase (text clientOrderId)
  let typed := toLowerCase (clientOrderTypedPrefix env connectionId)
  if typed.length + 1 < id.length ∧ hasPrefix typed id = true then
    some (((id.toList[typed.length]?).bind SystemOrderType.ofCode).elim .legacy .typed)
  else if isConnectionOwnedClientOrderId env (some id) connectionId then some .legacy
  else none

/-- `value.replace(/[^a-zA-Z0-9]/g, "")`. -/
def alphanumeric (value : String) : List Char := value.toList.filter isAlphanum

/-- `value.toString(36)` for a whole number. -/
def toBase36 (value : ℕ) : List Char :=
  if value = 0 then ['0'] else (digits 36 value).reverse.map base36Digit

/-- `makeDurableClientOrderId`, at the time `now` and with the random text `nanoid`. -/
def makeDurableClientOrderId (env : SystemEnvironment) (start connectionId : String)
    (symbol executionIntent : Option String) (now : ℕ) (nanoid : String) : String :=
  let kind := (alphanumeric (if start = "" then "x" else start)).take 6
  let compact := (alphanumeric ((strOr symbol none).getD "x")).take 6
  let suffix := alphanumeric nanoid
  String.ofList (((clientOrderSystemTypePrefix env connectionId executionIntent).toList ++ kind ++
    compact ++ toBase36 now ++ suffix).take 32)

def compactIdPart (value : String) (max : ℕ) : List Char :=
  let part := (alphanumeric value).take max
  if part = [] then ['x'] else part

/-- `makeExchangeTrackingId`, at the time `now` and with the random number whose digits to the base
`36` after the point are `random`. -/
def makeExchangeTrackingId (env : SystemEnvironment) (connectionId symbol : String)
    (direction : Direction) (executionIntent : Option String) (now : ℕ) (random : List (Fin 36)) :
    String :=
  let dir := if direction = .long then 'L' else 'S'
  String.ofList (((clientOrderSystemTypePrefix env connectionId executionIntent).toList ++
    compactIdPart symbol 8 ++ [dir] ++ toBase36 now ++
    (random.take 6).map fun digit : Fin 36 => base36Digit digit).take 32)

/-- The client order ids of a connection.  Ids without a type, and before them ids with the legacy
prefix, were built by earlier versions; a rest of letters and digits followed the prefix. -/
inductive BuiltClientOrderId (env : SystemEnvironment) (connectionId : String) : String → Prop
  | durable (start : String) (symbol executionIntent : Option String) (now : ℕ) (nanoid : String) :
    BuiltClientOrderId env connectionId
      (makeDurableClientOrderId env start connectionId symbol executionIntent now nanoid)
  | tracking (symbol : String) (direction : Direction) (executionIntent : Option String) (now : ℕ)
    (random : List (Fin 36)) :
    BuiltClientOrderId env connectionId
      (makeExchangeTrackingId env connectionId symbol direction executionIntent now random)
  | untyped (rest : String) (hne : rest ≠ "") (hrest : ∀ c ∈ rest.toList, c.isAlphanum = true) :
    BuiltClientOrderId env connectionId (clientOrderSystemPrefix env connectionId ++ rest)
  | legacy (rest : String) (hne : rest ≠ "") (hrest : ∀ c ∈ rest.toList, c.isAlphanum = true) :
    BuiltClientOrderId env connectionId (clientOrderConnectionPrefix connectionId ++ rest)

lemma properPrefix_iff (start value : String) : properPrefix start value = true ↔
    start.toList <+: value.toList ∧ start.toList.length < value.toList.length := by
  unfold properPrefix hasPrefix
  rw [Bool.and_eq_true, decide_eq_true_eq, isPrefixOf_iff_prefix, ← String.length_toList,
    ← String.length_toList]
  exact and_comm

lemma isAlphanum_iff (c : Char) : c.isAlphanum = true ↔ (65 ≤ c.toNat ∧ c.toNat ≤ 90) ∨
    (97 ≤ c.toNat ∧ c.toNat ≤ 122) ∨ (48 ≤ c.toNat ∧ c.toNat ≤ 57) := by
  change ((decide (c.val ≥ 65 ∧ c.val ≤ 90) || (decide (c.val ≥ 97) && decide (c.val ≤ 122))) ||
    (decide (c.val ≥ 48) && decide (c.val ≤ 57))) = true ↔ _
  simp only [Bool.or_eq_true, Bool.and_eq_true, decide_eq_true_eq, UInt32.le_iff_toNat_le,
    ge_iff_le]
  exact or_assoc

lemma isJsSpace_of_isAlphanum {c : Char} (h : c.isAlphanum = true) : isJsSpace c = false := by
  rw [isAlphanum_iff] at h
  by_contra hspace
  simp [isJsSpace] at hspace
  omega

/-! ## Letters and digits -/

lemma toLower_spec {c : Char} (h : c.isAlphanum = true) :
    c.toLower.isAlphanum = true ∧ c.toLower.toLower = c.toLower := by
  have hall : ∀ n : Fin 128, (ofNat n).isAlphanum = true →
      (ofNat n).toLower.isAlphanum = true ∧
        (ofNat n).toLower.toLower = (ofNat n).toLower := by decide
  have hlt : c.toNat < 128 := by
    rw [isAlphanum_iff] at h
    omega
  have hc := hall ⟨c.toNat, hlt⟩
  rw [show ofNat ((⟨c.toNat, hlt⟩ : Fin 128) : ℕ) = c from ofNat_toNat c] at hc
  exact hc h

lemma base36Digit_spec {n : ℕ} (h : n < 36) :
    (base36Digit n).isAlphanum = true ∧ (base36Digit n).toLower = base36Digit n := by
  have hall : ∀ i : Fin 36, (base36Digit i).isAlphanum = true ∧
      (base36Digit i).toLower = base36Digit i := by decide
  exact hall ⟨n, h⟩

variable (env : SystemEnvironment) (connectionId : String)

lemma systemOrderHash_spec : (systemOrderHash env connectionId).toList.length = 6 ∧
      ∀ c ∈ (systemOrderHash env connectionId).toList, c.isAlphanum = true ∧ c.toLower = c := by
  unfold systemOrderHash
  simp only [String.toList_ofList, length_map, length_cons, length_nil, true_and]
  intro c hc
  obtain ⟨i, -, rfl⟩ := mem_map.mp hc
  exact base36Digit_spec (mod_lt _ (by decide))

/-- The characters of the legacy prefix after `cts`. -/
def legacyCompact (connectionId : String) : List Char :=
  let compact := toLowerCase
    (String.ofList (((trim connectionId).toList.filter isAlphanum).take 8))
  if compact = "" then ['x'] else compact.toList

lemma clientOrderConnectionPrefix_toList : (clientOrderConnectionPrefix connectionId).toList =
      'c' :: 't' :: 's' :: legacyCompact connectionId := by
  unfold clientOrderConnectionPrefix legacyCompact
  simp only [String.toList_append]
  split <;> rfl

lemma legacyCompact_spec : ∀ c ∈ legacyCompact connectionId,
    c.isAlphanum = true ∧ c.toLower = c := by
  intro c hc
  unfold legacyCompact at hc
  simp only at hc
  split at hc
  · obtain rfl := mem_singleton.mp hc
    decide
  · simp only [toLowerCase, String.toList_ofList] at hc
    obtain ⟨d, hd, rfl⟩ := mem_map.mp hc
    exact toLower_spec (mem_filter.mp (mem_of_mem_take hd)).2

/-- A prefix with more characters after it. -/
def IsProperPrefix (start value : List Char) : Prop := start <+: value ∧ start.length < value.length

variable {start rest : List Char} {id connectionId A B : String}

lemma isProperPrefix_append_iff {other : List Char} (hlen : start.length = other.length)
    (hrest : rest ≠ []) : IsProperPrefix start (other ++ rest) ↔ start = other := by
  constructor
  · rintro ⟨hst, -⟩
    have hoth : other <+: other ++ rest := prefix_append other rest
    have hle : start <+: other := prefix_of_prefix_length_le hst hoth hlen.le
    exact hle.eq_of_length hlen
  · rintro rfl
    refine ⟨prefix_append start rest, ?_⟩
    have hpos := length_pos_iff.mpr hrest
    rw [length_append]
    omega

lemma isProperPrefix_cons_iff {c d : Char} {value : List Char} :
    IsProperPrefix (c :: start) (d :: value) ↔ c = d ∧ IsProperPrefix start value := by
  unfold IsProperPrefix
  rw [cons_prefix_cons, length_cons, length_cons, succ_lt_succ_iff, and_assoc]

/-- Owned ids are those with a prefix of the connection. -/
lemma isConnectionOwnedClientOrderId_iff (hid : ∀ c ∈ id.toList, c.isAlphanum = true) :
    isConnectionOwnedClientOrderId env (some id) connectionId = true ↔
      IsProperPrefix ('k' :: 'n' :: (systemOrderHash env connectionId).toList)
        (id.toList.map toLower) ∨
      IsProperPrefix ('k' :: 't' :: (systemOrderHash env connectionId).toList)
        (id.toList.map toLower) ∨
      (legacyOrderPrefixAccepted env = true ∧
        IsProperPrefix ('c' :: 't' :: 's' :: legacyCompact connectionId)
          (id.toList.map toLower)) := by
  have htrim : toLowerCase (text (some id)) = String.ofList (id.toList.map toLower) := by
    unfold toLowerCase text
    rw [Option.getD_some, trim_of_forall fun c hc => isJsSpace_of_isAlphanum (hid c hc)]
  have hhash : ((systemOrderHash env connectionId).toList.map toLower) =
      (systemOrderHash env connectionId).toList := by
    conv_rhs => rw [← map_id (systemOrderHash env connectionId).toList]
    exact map_congr_left fun c hc => ((systemOrderHash_spec env connectionId).2 c hc).2
  have hsyst : (toLowerCase (clientOrderSystemPrefix env connectionId)).toList =
      'k' :: 'n' :: (systemOrderHash env connectionId).toList := by
    simp only [toLowerCase, clientOrderSystemPrefix, String.toList_ofList, String.toList_append,
      map_append, hhash]
    rfl
  have htyped : (toLowerCase (clientOrderTypedPrefix env connectionId)).toList =
      'k' :: 't' :: (systemOrderHash env connectionId).toList := by
    simp only [toLowerCase, clientOrderTypedPrefix, String.toList_ofList, String.toList_append,
      map_append, hhash]
    rfl
  have hprop : ∀ start : String,
      properPrefix start (String.ofList (id.toList.map toLower)) = true ↔
        IsProperPrefix start.toList (id.toList.map toLower) := by
    intro start
    rw [properPrefix_iff, String.toList_ofList]
    exact Iff.rfl
  unfold isConnectionOwnedClientOrderId
  simp only [htrim]
  by_cases hemp : String.ofList (id.toList.map toLower) = ""
  · have hnil : id.toList.map toLower = [] := by
      simpa using congrArg String.toList hemp
    simp [hnil, IsProperPrefix]
  · rw [if_neg hemp]
    rw [← hsyst, ← htyped, ← clientOrderConnectionPrefix_toList, ← hprop, ← hprop, ← hprop]
    cases properPrefix (toLowerCase (clientOrderSystemPrefix env connectionId))
        (String.ofList (id.toList.map toLower)) <;>
      cases properPrefix (toLowerCase (clientOrderTypedPrefix env connectionId))
        (String.ofList (id.toList.map toLower)) <;>
      cases legacyOrderPrefixAccepted env <;> simp

/-- An id with a type: after the prefix at least the type code, all letters and digits. -/
lemma typedId_spec (connectionId : String) (type : Option String) {body : List Char}
    (hbody : ∀ c ∈ body, c.isAlphanum = true) :
    ∃ rest, rest ≠ [] ∧ (∀ c ∈ rest, c.isAlphanum = true) ∧
      ((clientOrderSystemTypePrefix env connectionId type).toList ++ body).take 32 =
        'k' :: 't' :: ((systemOrderHash env connectionId).toList ++ rest) := by
  have hlen := (systemOrderHash_spec env connectionId).1
  have hcode : (normalizeSystemOrderType type).code.isAlphanum = true := by
    cases normalizeSystemOrderType type <;> decide
  have hrest : ∀ c ∈ (normalizeSystemOrderType type).code :: body.take 23, c.isAlphanum = true := by
    intro c hc
    rcases mem_cons.mp hc with hc | hc
    · rw [hc]
      exact hcode
    · exact hbody c (mem_of_mem_take hc)
  have hchars : (clientOrderSystemTypePrefix env connectionId type).toList =
      'k' :: 't' :: ((systemOrderHash env connectionId).toList ++
        [(normalizeSystemOrderType type).code]) := by
    unfold clientOrderSystemTypePrefix clientOrderTypedPrefix
    rw [String.toList_append, String.toList_append, String.toList_singleton]
    rfl
  have htake : ((clientOrderSystemTypePrefix env connectionId type).toList ++ body).take 32 =
      'k' :: 't' :: ((systemOrderHash env connectionId).toList ++
        (normalizeSystemOrderType type).code :: body.take 23) := by
    generalize (systemOrderHash env connectionId).toList = hash at hlen hchars ⊢
    rw [hchars, take_append, take_of_length_le]
    · simp [hlen]
    · simp [hlen]
  exact ⟨_, cons_ne_nil _ _, hrest, htake⟩

lemma toBase36_isAlphanum (value : ℕ) : ∀ c ∈ toBase36 value, c.isAlphanum = true := by
  unfold toBase36
  split
  · exact forall_mem_singleton.mpr (by decide)
  · intro c hc
    obtain ⟨n, hn, rfl⟩ := mem_map.mp hc
    exact (base36Digit_spec (digits_lt_base (by decide) (mem_reverse.mp hn))).1

lemma alphanumeric_isAlphanum (value : String) : ∀ c ∈ alphanumeric value, c.isAlphanum = true :=
  fun _ hc => (mem_filter.mp hc).2

/-- A built id has one of the three prefixes and a rest. -/
lemma BuiltClientOrderId.shape {env : SystemEnvironment}
    (h : BuiltClientOrderId env connectionId id) :
    ∃ rest, rest ≠ [] ∧ (∀ c ∈ rest, c.isAlphanum = true) ∧
      (id.toList = 'k' :: 't' :: ((systemOrderHash env connectionId).toList ++ rest) ∨
        id.toList = 'k' :: 'n' :: ((systemOrderHash env connectionId).toList ++ rest) ∨
        id.toList = 'c' :: 't' :: 's' :: (legacyCompact connectionId ++ rest)) := by
  cases h with
  | durable start symbol executionIntent now nanoid =>
    have hbody : ∀ c ∈ (alphanumeric (if start = "" then "x" else start)).take 6 ++
        (alphanumeric ((strOr symbol none).getD "x")).take 6 ++ toBase36 now ++
        alphanumeric nanoid, c.isAlphanum = true := by
      intro c hc
      simp only [mem_append] at hc
      rcases hc with ((hc | hc) | hc) | hc
      · exact alphanumeric_isAlphanum _ c (mem_of_mem_take hc)
      · exact alphanumeric_isAlphanum _ c (mem_of_mem_take hc)
      · exact toBase36_isAlphanum now c hc
      · exact alphanumeric_isAlphanum _ c hc
    obtain ⟨rest, hne, hrest, heq⟩ := typedId_spec env connectionId executionIntent hbody
    refine ⟨rest, hne, hrest, .inl ?_⟩
    rw [makeDurableClientOrderId, String.toList_ofList, ← heq]
    simp only [append_assoc]
  | tracking symbol direction executionIntent now random =>
    have hbody : ∀ c ∈ compactIdPart symbol 8 ++ [if direction = .long then 'L' else 'S'] ++
        toBase36 now ++ (random.take 6).map fun digit : Fin 36 => base36Digit digit,
        c.isAlphanum = true := by
      intro c hc
      simp only [mem_append] at hc
      rcases hc with ((hc | hc) | hc) | hc
      · unfold compactIdPart at hc
        simp only at hc
        split at hc
        · obtain rfl := mem_singleton.mp hc
          decide
        · exact alphanumeric_isAlphanum _ c (mem_of_mem_take hc)
      · obtain rfl := mem_singleton.mp hc
        split <;> decide
      · exact toBase36_isAlphanum now c hc
      · obtain ⟨digit, -, rfl⟩ := mem_map.mp hc
        exact (base36Digit_spec digit.isLt).1
    obtain ⟨rest, hne, hrest, heq⟩ := typedId_spec env connectionId executionIntent hbody
    refine ⟨rest, hne, hrest, .inl ?_⟩
    rw [makeExchangeTrackingId, String.toList_ofList, ← heq]
    simp only [append_assoc]
  | untyped rest hne hrest =>
    refine ⟨rest.toList, by simpa using hne, hrest, .inr (.inl ?_)⟩
    simp [clientOrderSystemPrefix]
  | legacy rest hne hrest =>
    refine ⟨rest.toList, by simpa using hne, hrest, .inr (.inr ?_)⟩
    rw [String.toList_append, clientOrderConnectionPrefix_toList]
    rfl

lemma map_toLower_of_fixed {l : List Char} (h : ∀ c ∈ l, c.toLower = c) :
    l.map toLower = l := by
  conv_rhs => rw [← map_id l]
  exact map_congr_left h

lemma isConnectionOwned_of_hash {second : Char} (hsec : second = 't' ∨ second = 'n')
    (hne : rest ≠ []) (hrest : ∀ c ∈ rest, c.isAlphanum = true)
    (hid : id.toList = 'k' :: second :: ((systemOrderHash env A).toList ++ rest)) :
    isConnectionOwnedClientOrderId env (some id) B = true ↔
      systemOrderHash env B = systemOrderHash env A := by
  obtain ⟨hlenA, hcharsA⟩ := systemOrderHash_spec env A
  obtain ⟨hlenB, -⟩ := systemOrderHash_spec env B
  have hlow : second.toLower = second ∧ second.isAlphanum = true := by
    rcases hsec with rfl | rfl <;> decide
  have halnum : ∀ c ∈ id.toList, c.isAlphanum = true := by
    intro c hc
    rw [hid] at hc
    simp only [mem_cons, mem_append] at hc
    rcases hc with rfl | hc | hc | hc
    · decide
    · rw [hc]
      exact hlow.2
    · exact (hcharsA c hc).1
    · exact hrest c hc
  have hmap : id.toList.map toLower =
      'k' :: second :: ((systemOrderHash env A).toList ++ rest.map toLower) := by
    rw [hid, map_cons, map_cons, map_append, hlow.1,
      map_toLower_of_fixed fun c hc => (hcharsA c hc).2]
    rfl
  have hrestLow : rest.map toLower ≠ [] := by
    simpa using hne
  rw [isConnectionOwnedClientOrderId_iff env halnum, hmap]
  simp only [isProperPrefix_cons_iff, isProperPrefix_append_iff (hlenB.trans hlenA.symm)
    hrestLow, String.toList_inj, true_and]
  rcases hsec with rfl | rfl
  · simp
  · simp

lemma isConnectionOwned_of_legacy (hrest : ∀ c ∈ rest, c.isAlphanum = true)
    (hid : id.toList = 'c' :: 't' :: 's' :: (legacyCompact A ++ rest)) :
    isConnectionOwnedClientOrderId env (some id) B = true ↔ legacyOrderPrefixAccepted env = true ∧
        IsProperPrefix (legacyCompact B) (legacyCompact A ++ rest.map toLower) := by
  have hcharsA := legacyCompact_spec A
  have halnum : ∀ c ∈ id.toList, c.isAlphanum = true := by
    intro c hc
    rw [hid] at hc
    simp only [mem_cons, mem_append] at hc
    rcases hc with rfl | rfl | rfl | hc | hc
    · decide
    · decide
    · decide
    · exact (hcharsA c hc).1
    · exact hrest c hc
  have hmap : id.toList.map toLower =
      'c' :: 't' :: 's' :: (legacyCompact A ++ rest.map toLower) := by
    rw [hid, map_cons, map_cons, map_cons, map_append,
      map_toLower_of_fixed fun c hc => (hcharsA c hc).2]
    rfl
  rw [isConnectionOwnedClientOrderId_iff env halnum, hmap]
  simp only [isProperPrefix_cons_iff]
  simp

/-- **Exclusive ownership.** The test of a connection rejects every id that another connection can
have built, exactly when their hashes differ and, as long as the legacy prefix is accepted, neither
legacy prefix starts the other. -/
theorem orderOwnership_exclusive_iff (env : SystemEnvironment) (A B : String) :
    (∀ id, BuiltClientOrderId env A id → isConnectionOwnedClientOrderId env (some id) B = false) ↔
      systemOrderHash env A ≠ systemOrderHash env B ∧ (legacyOrderPrefixAccepted env = true →
          hasPrefix (clientOrderConnectionPrefix A) (clientOrderConnectionPrefix B) = false ∧
          hasPrefix (clientOrderConnectionPrefix B) (clientOrderConnectionPrefix A) = false) := by
  have hlegacy : ∀ C D : String, hasPrefix (clientOrderConnectionPrefix C)
      (clientOrderConnectionPrefix D) = true ↔ legacyCompact C <+: legacyCompact D := by
    intro C D
    unfold hasPrefix
    rw [List.isPrefixOf_iff_prefix, clientOrderConnectionPrefix_toList,
      clientOrderConnectionPrefix_toList, cons_prefix_cons, cons_prefix_cons,
      cons_prefix_cons]
    simp
  constructor
  · intro hrejects
    refine ⟨fun hhash => ?_, fun haccepted => ⟨?_, ?_⟩⟩
    · -- an id without a type, continued by one character
      have hbuilt : BuiltClientOrderId env A (clientOrderSystemPrefix env A ++ "x") :=
        .untyped "x" (by decide) (all_eq_true.mp (by decide))
      have hid : (clientOrderSystemPrefix env A ++ "x").toList =
          'k' :: 'n' :: ((systemOrderHash env A).toList ++ ['x']) := by
        simp [clientOrderSystemPrefix]
      have howned := (isConnectionOwned_of_hash env (B := B) (.inr rfl) (cons_ne_nil 'x' [])
        (all_eq_true.mp (by decide)) hid).mpr hhash.symm
      rw [hrejects _ hbuilt] at howned
      cases howned
    · -- the legacy prefix of `B` is the one of `A`, continued
      by_contra hstarts
      obtain ⟨more, hmore⟩ := (hlegacy A B).mp (by simpa using hstarts)
      have hchars : ∀ c ∈ more ++ ['x'], c.isAlphanum = true ∧ c.toLower = c := by
        intro c hc
        rcases mem_append.mp hc with hc | hc
        · exact legacyCompact_spec B c (hmore ▸ mem_append_right _ hc)
        · obtain rfl := mem_singleton.mp hc
          decide
      have hbuilt : BuiltClientOrderId env A
          (clientOrderConnectionPrefix A ++ String.ofList (more ++ ['x'])) :=
        .legacy _ (by simp) (by simpa using fun c hc => (hchars c hc).1)
      have hid : (clientOrderConnectionPrefix A ++ String.ofList (more ++ ['x'])).toList =
          'c' :: 't' :: 's' :: (legacyCompact A ++ (more ++ ['x'])) := by
        rw [String.toList_append, clientOrderConnectionPrefix_toList, String.toList_ofList]
        rfl
      have hstart : IsProperPrefix (legacyCompact B)
          (legacyCompact A ++ (more ++ ['x']).map toLower) := by
        rw [map_toLower_of_fixed fun c hc => (hchars c hc).2, ← append_assoc, hmore]
        exact ⟨prefix_append _ _, by simp⟩
      have howned := (isConnectionOwned_of_legacy env (fun c hc => (hchars c hc).1) hid).mpr
        ⟨haccepted, hstart⟩
      rw [hrejects _ hbuilt] at howned
      cases howned
    · by_contra hstarts
      have hstart := (hlegacy B A).mp (by simpa using hstarts)
      have hbuilt : BuiltClientOrderId env A (clientOrderConnectionPrefix A ++ "x") :=
        .legacy "x" (by decide) (all_eq_true.mp (by decide))
      have hid : (clientOrderConnectionPrefix A ++ "x").toList =
          'c' :: 't' :: 's' :: (legacyCompact A ++ ['x']) := by
        rw [String.toList_append, clientOrderConnectionPrefix_toList]
        rfl
      have hproper : IsProperPrefix (legacyCompact B)
          (legacyCompact A ++ ['x'].map toLower) := by
        refine ⟨hstart.trans (prefix_append _ _), ?_⟩
        have hle := hstart.length_le
        rw [length_append, length_map, length_singleton]
        omega
      have howned := (isConnectionOwned_of_legacy env (all_eq_true.mp (by decide)) hid).mpr
        ⟨haccepted, hproper⟩
      rw [hrejects _ hbuilt] at howned
      cases howned
  · rintro ⟨hhash, hapart⟩ id hbuilt
    obtain ⟨rest, hne, hrest, hid⟩ := hbuilt.shape
    by_contra howned
    have howned : isConnectionOwnedClientOrderId env (some id) B = true := by simpa using howned
    rcases hid with hid | hid | hid
    · exact hhash ((isConnectionOwned_of_hash env (.inl rfl) hne hrest hid).mp howned).symm
    · exact hhash ((isConnectionOwned_of_hash env (.inr rfl) hne hrest hid).mp howned).symm
    · obtain ⟨haccepted, hstarts, -⟩ := (isConnectionOwned_of_legacy env hrest hid).mp howned
      obtain ⟨hAB, hBA⟩ := hapart haccepted
      rcases prefix_or_prefix_of_prefix hstarts (prefix_append _ _) with hBA' | hAB'
      · rw [(hlegacy B A).mpr hBA'] at hBA
        cases hBA
      · rw [(hlegacy A B).mpr hAB'] at hAB
        cases hAB

/-- Two connections whose legacy prefixes agree, and two whose hashes agree. -/
theorem orderOwnership_shared : (BuiltClientOrderId {} "bingx-x01" "ctsbingxx01slBTC" ∧
      isConnectionOwnedClientOrderId {} (some "ctsbingxx01slBTC") "bingx-x012" = true) ∧
    (BuiltClientOrderId {} "bingx-42816"
        (makeDurableClientOrderId {} "sl" "bingx-42816" (some "BTCUSDT") none 1759600000000 "a") ∧
      isConnectionOwnedClientOrderId {} (some
        (makeDurableClientOrderId {} "sl" "bingx-42816" (some "BTCUSDT") none 1759600000000 "a"))
        "bybit-36400" = true) := by
  refine ⟨⟨?_, by decide +kernel⟩, .durable .., by decide +kernel⟩
  have hid : "ctsbingxx01slBTC" = clientOrderConnectionPrefix "bingx-x01" ++ "slBTC" := by
    decide +kernel
  rw [hid]
  exact .legacy "slBTC" (by decide) (all_eq_true.mp (by decide))

end CtsEngine
