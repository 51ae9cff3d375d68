import CtsEngine.InlineRedis.Correspondence
import CtsEngine.Settings.HashValues

/-!
# Arrays in settings

`setSettings` writes an array as the fields `0`, `1`, … of a hash that keeps its other fields;
`getSettings` makes an array of whatever fields there are.  An array is therefore read back as it
was stored exactly when no longer one was stored under its key before.
-/

namespace CtsEngine.Settings

open List Keyed Option Nat
open JsonText (Value)

/-! ## Settings -/

/-- A value that is stored: an object or an array. -/
inductive SettingsValue
  | object (fields : List (String × Value Double))
  | array (values : List (Value Double))

/-- The elements of an array with their indexes, the first of which is given. -/
def indexed {α : Type} : ℕ → List α → List (String × α)
  | _, [] => []
  | n, x :: xs => (toString n, x) :: indexed (n + 1) xs

/-- `Object.entries(value)`. -/
def SettingsValue.entries : SettingsValue → List (String × Value Double)
  | .object fields => fields
  | .array values => indexed 0 values

/-- The key of the hash of settings. -/
def settingsKey (key : String) : String := "settings:" ++ key

/-- `/^trade_engine_state:(.+)$/.exec(key)`, with a group that has no colon. -/
def engineStateId (key : String) : Option String :=
  let rest := key.toList.drop "trade_engine_state:".length
  if hasPrefix "trade_engine_state:" key ∧ rest ≠ [] ∧ ':' ∉ rest ∧
      rest.all fun c => c ∉ ['\n', '\r', '\u2028', '\u2029'] then
    some (String.ofList rest)
  else none

variable (id : String)

/-- `replace(/[^A-Za-z0-9._-]/g, "_")`, which replaces both code units of some characters. -/
def safeConnectionId : String :=
  String.ofList (id.toList.flatMap fun c =>
    if c.isAlphanum || c ∈ ['.', '_', '-'] then [c]
    else if c.toNat < 0x10000 then ['_'] else ['_', '_'])

/-- The key of the scoped mirror of an engine state. -/
def scopedStateKey : String :=
  settingsKey ("trade_engine_state:" ++ safeConnectionId id ++ ":main")

/-- The fields of a running contract. -/
def lifecycleFields : List String :=
  ["engine_ready", "entry_processors_gated", "prehistoric_bootstrap_status",
    "prehistoric_data_loaded", "all_phases_started", "indications_started", "strategies_started",
    "realtime_started", "live_trading_started"]

/-- The fields that a running contract removes. -/
def stalePauseFields : List String :=
  ["pause_requested", "pause_reason", "pause_requested_at", "paused_at", "paused_by", "stopped_at",
    "operator_stopped_at"]

def publishesRunningContract (data : List (String × String)) : Bool :=
  toLowerCase ((get? data "status").getD "") = "running" &&
    lifecycleFields.any fun field => (get? data field).isSome

def setSettings (s : InlineStore) (key : String) (value : SettingsValue) : InlineStore :=
  let data := flattenForHmset value.entries
  let s := (s.hset (settingsKey key) data).1
  match engineStateId key with
  | none => s
  | some id =>
    let s := (s.hset (scopedStateKey id) data).1
    if publishesRunningContract data then
      let s := (s.hdel (settingsKey key) stalePauseFields).1
      let s := (s.hdel (scopedStateKey id) stalePauseFields).1
      (s.hdel ("trade_engine_state:" ++ safeConnectionId id) stalePauseFields).1
    else s

/-- What `getSettings` returns.  An index without a field has no element. -/
inductive SettingsReply
  | null
  | object (fields : List (String × Value Double))
  | array (values : List (Option (Value Double)))

/-- `getSettings`.  The indexes of an array are below `2 ^ 32`, so that `Number` and `String` are
exact on them. -/
def getSettings (s : InlineStore) (now : ℚ) (key : String) : SettingsReply :=
  match parseHash ((s.read now .hash (settingsKey key)).getD []) with
  | none => .null
  | some parsed =>
    if parsed.all fun entry => isDigits entry.1.toList then
      let indexes := parsed.map fun entry => valueOfDigits 10 entry.1.toList
      .array ((indexes.mergeSort (· ≤ ·)).map fun i => get? parsed (toString i))
    else .object parsed

/-- The store after arrays were stored under one key, one after another. -/
def setArrays (s : InlineStore) (key : String) (arrays : List (List (Value Double))) :
    InlineStore :=
  arrays.foldl (fun s values => setSettings s key (.array values)) s

/-! ## Indexed fields -/

section Indexed

variable {α β : Type} (n : ℕ) (xs : List α) {name : String}

lemma toList_toString : (toString n).toList = toDigits 10 n := by
  rw [toString_eq_repr, toList_repr]

lemma toString_ne {m n : ℕ} (h : m ≠ n) : toString m ≠ toString n := by
  intro heq
  have hdigs : toDigits 10 m = toDigits 10 n := by
    rw [← toList_toString, heq, toList_toString]
  exact h (by rw [← valueOfDigits_toDigits m, hdigs, valueOfDigits_toDigits])

lemma isDigits_toString : isDigits (toString n).toList = true := by
  have hall : (toDigits 10 n).all Char.isDigit = true :=
    all_eq_true.mpr fun c hc => isDigit_of_mem_toDigits (by decide) (by decide) hc
  rw [isDigits, toList_toString, hall, Bool.and_true, isEmpty_eq_false_iff.mpr
    toDigits_ne_nil, Bool.not_false]

lemma ne_toString (h : isDigits name.toList = false) (n : ℕ) :
    name ≠ toString n := by
  rintro rfl
  rw [isDigits_toString] at h
  cases h

lemma put_indexed (x : α) {i : ℕ} (hi : i ≤ xs.length) :
    put (indexed n xs) (toString (n + i)) x =
      indexed n (xs.take i ++ x :: xs.drop (i + 1)) := by
  induction xs generalizing n i with
  | nil =>
    obtain rfl : i = 0 := le_zero.mp hi
    rfl
  | cons y ys ih =>
    cases i with
    | zero => simp [indexed, put]
    | succ j =>
      have hne : toString n ≠ toString (n + (j + 1)) := toString_ne (by omega)
      have hrest := ih (n + 1) (le_of_succ_le_succ hi)
      rw [add_assoc, add_comm 1 j] at hrest
      rw [indexed, put, if_neg hne, hrest, take_succ_cons, drop_succ_cons,
        cons_append, indexed]

lemma foldl_put_indexed (new done rest : List α) :
    (indexed done.length new).foldl (fun record entry => put record entry.1 entry.2)
        (indexed 0 (done ++ rest)) =
      indexed 0 (done ++ (new ++ rest.drop new.length)) := by
  induction new generalizing done rest with
  | nil => rfl
  | cons x new ih =>
    have hput := put_indexed 0 (done ++ rest) x (i := done.length) (by simp)
    rw [zero_add, take_left, drop_append, drop_of_length_le (by omega),
      Nat.add_sub_cancel_left, nil_append] at hput
    have hnext := ih (done ++ [x]) (rest.drop 1)
    rw [length_append, length_singleton, append_assoc, singleton_append, drop_drop] at hnext
    rw [indexed, foldl_cons, hput, hnext, append_assoc, singleton_append,
      length_cons, add_comm 1, cons_append]

/-- What a hash of elements holds after more were written to it: those that were written, and those
of higher indexes. -/
def overlay (old new : List α) : List α := new ++ old.drop new.length

lemma mergeFields_indexed (old new : List String) :
    mergeFields (indexed 0 old) (indexed 0 new) = indexed 0 (overlay old new) :=
  foldl_put_indexed new [] old

lemma get?_indexed (i : ℕ) :
    get? (indexed n xs) (toString (n + i)) = xs[i]? := by
  induction xs generalizing n i with
  | nil => rfl
  | cons x xs ih =>
    cases i with
    | zero => simp [indexed, get?]
    | succ j =>
      have hne : toString n ≠ toString (n + (j + 1)) := toString_ne (by omega)
      have hrest := ih (n + 1) j
      rw [add_assoc, add_comm 1 j] at hrest
      rw [indexed, get?, if_neg hne, hrest, getElem?_cons_succ]

lemma get?_indexed_of_name (h : isDigits name.toList = false) (n : ℕ)
    (xs : List α) : get? (indexed n xs) name = none := by
  induction xs generalizing n with
  | nil => rfl
  | cons x xs ih => rw [indexed, get?, if_neg (ne_toString h n).symm, ih]

lemma indexes_indexed :
    (indexed n xs).map (fun entry => valueOfDigits 10 entry.1.toList) = range' n xs.length := by
  induction xs generalizing n with
  | nil => rfl
  | cons x xs ih =>
    rw [indexed, map_cons, ih, toList_toString, valueOfDigits_toDigits, length_cons, range'_succ]

end Indexed

/-- A plain object whose numbers have texts that are read as themselves. -/
def PlainObject (value : Value Double) : Prop :=
  (∃ fields, value = .object fields) ∧ JsonText.Exact jsonNumbers value

variable {values : List (Value Double)} {key : String} {arrays : List (List (Value Double))}
  {s : InlineStore}

lemma flattenForHmset_indexed (hplain : ∀ value ∈ values, PlainObject value) (n : ℕ) :
    flattenForHmset (indexed n values) = indexed n (values.map jsonText) := by
  induction values generalizing n with
  | nil => rfl
  | cons value values ih =>
    obtain ⟨⟨fields, rfl⟩, -⟩ := hplain value mem_cons_self
    have hrest := ih (fun v hv => hplain v (mem_cons_of_mem _ hv)) (n + 1)
    exact congrArg (List.cons _) hrest

lemma scopedStateKey_ne {id : String} (h : engineStateId key = some id) :
    settingsKey key ≠ scopedStateKey id := by
  unfold engineStateId at h
  dsimp only at h
  split at h
  case isFalse => cases h
  case isTrue hmatch =>
    intro heq
    have hlists := congrArg String.toList heq
    rw [scopedStateKey, settingsKey, settingsKey, String.toList_append, String.toList_append,
      String.toList_append, String.toList_append, append_cancel_left_eq] at hlists
    apply hmatch.2.2.1
    have hdrop : key.toList.drop "trade_engine_state:".length =
        (safeConnectionId id).toList ++ ":main".toList := by
      rw [hlists, append_assoc]
      exact drop_left' rfl
    rw [hdrop]
    exact mem_append_right _ (by decide)

lemma setSettings_array (s : InlineStore) (key : String) {old : List String}
    (hold : (s.data .hash (settingsKey key)).getD [] = indexed 0 old)
    (hplain : ∀ value ∈ values, PlainObject value) :
    (setSettings s key (.array values)).data .hash (settingsKey key) =
        some (indexed 0 (overlay old (values.map jsonText))) ∧
      (setSettings s key (.array values)).ttl = s.ttl := by
  have hdata : flattenForHmset (SettingsValue.array values).entries =
      indexed 0 (values.map jsonText) := flattenForHmset_indexed hplain 0
  have hnorm : mergeFields [] (indexed 0 (values.map jsonText)) =
      indexed 0 (values.map jsonText) := by
    have h := mergeFields_indexed [] (values.map jsonText)
    rwa [overlay, drop_nil, append_nil] at h
  have hstat : publishesRunningContract (indexed 0 (values.map jsonText)) = false := by
    rw [publishesRunningContract, get?_indexed_of_name (by decide)]
    rfl
  have hset : ∀ s' : InlineStore, ∀ key' : String,
      (s'.hset key' (indexed 0 (values.map jsonText))).1 = s'.put .hash key'
        (some (mergeFields ((s'.data .hash key').getD []) (indexed 0 (values.map jsonText)))) := by
    intro s' key'
    rw [InlineStore.hset, hnorm]
  have hwrote : ((s.hset (settingsKey key) (indexed 0 (values.map jsonText))).1).data .hash
      (settingsKey key) = some (indexed 0 (overlay old (values.map jsonText))) := by
    rw [hset, hold, mergeFields_indexed, InlineStore.data_put_self]
  unfold setSettings
  rw [hdata]
  cases hid : engineStateId key with
  | none => exact ⟨hwrote, rfl⟩
  | some id =>
    dsimp only
    rw [hstat, if_neg Bool.false_ne_true, hset _ (scopedStateKey id)]
    refine ⟨?_, rfl⟩
    rw [InlineStore.data_put_of_ne _ _ _ _ (scopedStateKey_ne hid), hwrote]

lemma setArrays_spec {old : List String}
    (hold : (s.data .hash (settingsKey key)).getD [] = indexed 0 old)
    (hplain : ∀ values ∈ arrays, ∀ value ∈ values, PlainObject value) :
    ((setArrays s key arrays).data .hash (settingsKey key)).getD [] =
        indexed 0 ((arrays.map (List.map jsonText)).foldl overlay old) ∧
      (setArrays s key arrays).ttl = s.ttl := by
  induction arrays generalizing s old with
  | nil => exact ⟨hold, rfl⟩
  | cons values arrays ih =>
    obtain ⟨hwrote, httl⟩ := setSettings_array s key hold (hplain values mem_cons_self)
    have hnext : ((setSettings s key (.array values)).data .hash (settingsKey key)).getD [] =
        indexed 0 (overlay old (values.map jsonText)) := by
      rw [hwrote, getD_some]
    obtain ⟨hrest, httls⟩ := ih hnext fun values hvals => hplain values (mem_cons_of_mem _ hvals)
    exact ⟨hrest, httls.trans httl⟩

lemma head?_bytes_toString (n : ℕ) :
    ((toString n).toByteArray.data.toList.head?.all fun b => b.toNat < 58) = true := by
  obtain ⟨c, cs, hdigs⟩ := exists_cons_of_ne_nil (toDigits_ne_nil (b := 10) (n := n))
  have hc : c.isDigit = true :=
    isDigit_of_mem_toDigits (by decide) (by decide) (hdigs ▸ mem_cons_self)
  have hsmall : c.toNat ≤ 57 := (Char.isDigit_iff_toNat.mp hc).2
  have htext : toString n = String.ofList (c :: cs) := by
    rw [← String.ofList_toList (s := toString n), toList_toString, hdigs]
  have hsize : c.utf8Size = 1 :=
    Char.utf8Size_eq_one_iff.mpr (UInt32.le_iff_toNat_le.mpr (hsmall.trans (by decide)))
  rw [htext, String.toByteArray_ofList, utf8Encode, data_toByteArray, flatMap_cons,
    String.utf8EncodeChar_eq_singleton hsize, singleton_append, head?_cons, all_some,
      decide_eq_true_iff]
  exact (mod_le _ _).trans_lt (lt_succ_of_le hsmall)

lemma not_mem_numericHashFields (n : ℕ) : toString n ∉ numericHashFields := by
  intro hmem
  have hnames : numericHashFields.all (fun name =>
      !name.toByteArray.data.toList.head?.all fun b => b.toNat < 58) = true := by
    decide +kernel
  have hname := all_eq_true.mp hnames _ hmem
  rw [head?_bytes_toString] at hname
  cases hname

lemma map_parseHashField (hplain : ∀ value ∈ values, PlainObject value) (n : ℕ) :
    (indexed n (values.map jsonText)).map (fun entry => (entry.1, parseHashField entry.1 entry.2)) =
      indexed n values := by
  induction values generalizing n with
  | nil => rfl
  | cons value values ih =>
    obtain ⟨⟨fields, rfl⟩, hexact⟩ := hplain value mem_cons_self
    have hrest := ih (fun v hv => hplain v (mem_cons_of_mem _ hv)) (n + 1)
    rw [map_cons, indexed, map_cons, hrest, parseHashField,
      if_neg fun h => not_mem_numericHashFields n h.1, parseHashValue_jsonText hexact, indexed]

lemma all_isDigits_indexed {α : Type} (n : ℕ) (xs : List α) :
    ((indexed n xs).all fun entry => isDigits entry.1.toList) = true := by
  induction xs generalizing n with
  | nil => rfl
  | cons x xs ih => rw [indexed, all_cons, isDigits_toString, ih, Bool.true_and]

lemma map_get?_indexed {α : Type} (xs : List α) :
    (range' 0 xs.length).map (fun i => get? (indexed 0 xs) (toString i)) =
      xs.map some := by
  refine ext_getElem (by simp) fun i hi _ => ?_
  have hlen : i < xs.length := by simpa using hi
  have hget := get?_indexed 0 xs i
  rw [zero_add] at hget
  rw [getElem_map, getElem_range', zero_add, one_mul, hget, getElem_map,
    getElem?_eq_getElem hlen]

lemma getSettings_indexed {now : ℚ} (hplain : ∀ value ∈ values, PlainObject value)
    (hread : (s.read now .hash (settingsKey key)).getD [] = indexed 0 (values.map jsonText)) :
    getSettings s now key = if values = [] then .null else .array (values.map some) := by
  cases values with
  | nil =>
    rw [getSettings, hread]
    rfl
  | cons value values =>
    have hpars : parseHash (indexed 0 ((value :: values).map jsonText)) =
        some (indexed 0 (value :: values)) :=
      congrArg some (map_parseHashField hplain 0)
    have hsort : ((range' 0 (value :: values).length).mergeSort fun i j => decide (i ≤ j)) =
        range' 0 (value :: values).length :=
      mergeSort_of_pairwise (List.Pairwise.imp (fun h => decide_eq_true h) (pairwise_le_range' 1))
    rw [getSettings, hread, hpars, if_neg (cons_ne_nil _ _)]
    dsimp only
    rw [all_isDigits_indexed, if_pos rfl, indexes_indexed, hsort, map_get?_indexed]

/-! ## Reading back -/

section ReadBack

variable {α : Type}

/-- What a hash holds after arrays were written to it. -/
def overlayAll (arrays : List (List α)) : List α := arrays.foldl overlay []

variable (arrays : List (List α))

lemma overlayAll_append_singleton (values : List α) :
    overlayAll (arrays ++ [values]) = overlay (overlayAll arrays) values := by
  rw [overlayAll, foldl_append, foldl_cons, foldl_nil, overlayAll]

lemma length_overlay (old new : List α) : (overlay old new).length = max old.length new.length := by
  rw [overlay, length_append, length_drop]
  omega

lemma length_overlayAll_le_iff (m : ℕ) :
    (overlayAll arrays).length ≤ m ↔ ∀ values ∈ arrays, values.length ≤ m := by
  induction arrays using reverseRecOn with
  | nil => simp [overlayAll]
  | append_singleton arrays values ih =>
    rw [overlayAll_append_singleton, length_overlay, max_le_iff, ih, forall_mem_append,
      forall_mem_singleton]

lemma overlayAll_eq_last_iff (earlier : List (List α)) (last : List α) :
    overlayAll (earlier ++ [last]) = last ↔ ∀ values ∈ earlier, values.length ≤ last.length := by
  rw [← length_overlayAll_le_iff, overlayAll_append_singleton, overlay, append_right_eq_self,
    drop_eq_nil_iff]

lemma forall_mem_overlayAll {P : α → Prop} {arrays : List (List α)}
    (h : ∀ values ∈ arrays, ∀ x ∈ values, P x) : ∀ x ∈ overlayAll arrays, P x := by
  induction arrays using reverseRecOn with
  | nil => exact forall_mem_nil _
  | append_singleton arrays values ih =>
    rw [forall_mem_append, forall_mem_singleton] at h
    rw [overlayAll_append_singleton]
    exact forall_mem_append.mpr ⟨h.2, fun x hx => ih h.1 x (mem_of_mem_drop hx)⟩

lemma map_overlayAll {β : Type} (f : α → β) :
    overlayAll (arrays.map (List.map f)) = (overlayAll arrays).map f := by
  induction arrays using reverseRecOn with
  | nil => rfl
  | append_singleton arrays values ih =>
    rw [map_append, map_cons, map_nil, overlayAll_append_singleton, ih,
      overlayAll_append_singleton, overlay, overlay, map_append, map_drop,
      length_map]

end ReadBack

/-- The key has no hash and no expiry. -/
structure Fresh (s : InlineStore) (key : String) : Prop where
  absent : s.data .hash (settingsKey key) = none
  lasting : s.ttlOf (settingsKey key) = none

/-- A reply that gives an array back; that of an empty array may be absent. -/
def GivesBack (reply : SettingsReply) (values : List (Value Double)) : Prop :=
  reply = .array (values.map some) ∨ (values = [] ∧ reply = .null)

lemma getSettings_setArrays (hfresh : Fresh s key) (now : ℚ)
    (hplain : ∀ values ∈ arrays, ∀ value ∈ values, PlainObject value) :
    getSettings (setArrays s key arrays) now key =
      if overlayAll arrays = [] then .null else .array ((overlayAll arrays).map some) := by
  have hold : (s.data .hash (settingsKey key)).getD [] = indexed 0 [] := by
    rw [hfresh.absent]
    rfl
  obtain ⟨hhash, httl⟩ := setArrays_spec hold hplain
  refine getSettings_indexed (forall_mem_overlayAll hplain) ?_
  have hexp : (setArrays s key arrays).isExpired now (settingsKey key) = false := by
    rw [InlineStore.isExpired, InlineStore.ttlOf, httl, ← InlineStore.ttlOf, hfresh.lasting]
    rfl
  rw [InlineStore.read, hexp, if_neg Bool.false_ne_true, hhash, ← overlayAll, map_overlayAll]

/-- **Reading back.**  The array that was stored last is read exactly when no array that was stored
before it is longer: the elements behind its end stay in the hash. -/
theorem getSettings_givesBack_iff {s : InlineStore} {key : String} (hfresh : Fresh s key) (now : ℚ)
    (earlier : List (List (Value Double))) (last : List (Value Double))
    (hplain : ∀ values ∈ earlier ++ [last], ∀ value ∈ values, PlainObject value) :
    GivesBack (getSettings (setArrays s key (earlier ++ [last])) now key) last ↔
      ∀ values ∈ earlier, values.length ≤ last.length := by
  rw [← overlayAll_eq_last_iff, getSettings_setArrays hfresh now hplain]
  by_cases hempty : overlayAll (earlier ++ [last]) = []
  · rw [hempty]
    constructor
    · rintro (h | ⟨hlast, -⟩)
      · cases h
      · exact hlast.symm
    · exact fun hlast => .inr ⟨hlast.symm, rfl⟩
  · rw [if_neg hempty]
    constructor
    · rintro (h | ⟨-, h⟩)
      · exact map_injective_iff.mpr (some_injective _) (SettingsReply.array.inj h)
      · cases h
    · exact fun hlast => .inl (by rw [hlast])

/-- An order with an identifier. -/
def orderOf : Value Double := .object [("id", .text id)]

lemma plainObject_orderOf : PlainObject (orderOf id) := ⟨⟨_, rfl⟩, trivial, trivial⟩

lemma plainObject_orders (ids : List (List String)) :
    ∀ values ∈ ids.map (List.map orderOf), ∀ value ∈ values, PlainObject value := by
  intro values hvals value hval
  obtain ⟨ids, -, rfl⟩ := mem_map.mp hvals
  obtain ⟨id, -, rfl⟩ := mem_map.mp hval
  exact plainObject_orderOf id

/-- An order that was removed before the last write is read again. -/
theorem getSettings_staleOrder : ¬ GivesBack (getSettings
      (setArrays {} "orders" [[orderOf "a", orderOf "b"], [orderOf "c"]]) 0 "orders")
      [orderOf "c"] := by
  have hfresh : Fresh {} "orders" := ⟨rfl, rfl⟩
  have hread := getSettings_setArrays hfresh 0 (plainObject_orders [["a", "b"], ["c"]])
  rintro (h | ⟨h, -⟩)
  · have hlists := SettingsReply.array.inj (hread.symm.trans h)
    cases congrArg List.length hlists
  · cases h

/-- Orders that were added are read back. -/
theorem getSettings_grownOrders : GivesBack (getSettings
      (setArrays {} "orders" [[orderOf "a"], [orderOf "b", orderOf "c"]]) 0 "orders")
      [orderOf "b", orderOf "c"] :=
  have hfresh : Fresh {} "orders" := ⟨rfl, rfl⟩
  (getSettings_givesBack_iff hfresh 0 [[orderOf "a"]] [orderOf "b", orderOf "c"]
    (plainObject_orders [["a"], ["b", "c"]])).mpr (by simp)

end CtsEngine.Settings
