import CtsEngine.KeyScan.Pages
import CtsEngine.Transition.Runs

/-!
# What a scan finds

The keys that a session still has before it are those of the current map behind its iterator and
those of the maps that follow.  A page examines the first of them; a change of another key leaves a
key where it is.  So every key that stays is listed once, unless the budget of the session is used
up by keys that were added in front of it.
-/

namespace CtsEngine.KeyScan

open Function List ScanStore Keyed Transition KeyKind ScanRun MapIterator Nat

open Transition (Meets run)

/-! ## The keys before a session -/

/-- The keys of maps, with the map of each. -/
def entriesOf (keys : KeyKind → List String) (kinds : List KeyKind) : List (KeyKind × String) :=
  kinds.flatMap fun kind => (keys kind).map fun key => (kind, key)

/-- The keys of maps behind an iterator of the first of them. -/
def entriesFrom (keys : KeyKind → List String) (passed : ℕ) : List KeyKind → List (KeyKind × String)
  | [] => []
  | kind :: later =>
    (((keys kind).drop passed).map fun key => (kind, key)) ++ entriesOf keys later

/-- The keys that a session has before it, in the order in which it examines them. -/
def ScanStore.waiting (s : ScanStore) (session : ScanSession) : List (KeyKind × String) :=
  entriesFrom s.keys session.passed (all.drop session.collectionIndex)

/-- The iterator of the current map has passed keys that there are. -/
def ScanStore.Within (s : ScanStore) (session : ScanSession) : Prop :=
  ∀ kind, KeyKind.all[session.collectionIndex]? = some kind → session.passed ≤ (s.keys kind).length

variable {s : ScanStore} {pattern : PrefixPattern} {session : ScanSession}

lemma mem_entriesOf {keys : KeyKind → List String} {kinds : List KeyKind}
    {entry : KeyKind × String} :
    entry ∈ entriesOf keys kinds ↔ entry.1 ∈ kinds ∧ entry.2 ∈ keys entry.1 := by
  obtain ⟨kind, key⟩ := entry
  simp [entriesOf]

lemma nodup_entriesOf {keys : KeyKind → List String} (h : ∀ kind, (keys kind).Nodup)
    {kinds : List KeyKind} (hkds : kinds.Nodup) : (entriesOf keys kinds).Nodup := by
  refine nodup_flatMap.mpr ⟨fun kind _ => (h kind).map (Prod.mk_right_injective kind), ?_⟩
  refine hkds.imp fun {kind other} hne => ?_
  intro entry hent hoth
  obtain ⟨_, _, rfl⟩ := mem_map.mp hent
  obtain ⟨_, _, heq⟩ := mem_map.mp hoth
  exact hne (congrArg Prod.fst heq).symm

lemma entriesFrom_zero (keys : KeyKind → List String) (kinds : List KeyKind) :
    entriesFrom keys 0 kinds = entriesOf keys kinds := by
  cases kinds with
  | nil => rfl
  | cons kind later => rfl

lemma entriesFrom_sublist (keys : KeyKind → List String) (passed : ℕ) (kinds : List KeyKind) :
    List.Sublist (entriesFrom keys passed kinds) (entriesOf keys kinds) := by
  cases kinds with
  | nil => exact List.Sublist.refl _
  | cons kind later => exact ((drop_sublist ..).map _).append_right _

lemma nodup_all : all.Nodup := by decide

lemma nodup_waiting (s : ScanStore) (session : ScanSession) : (s.waiting session).Nodup :=
  (entriesFrom_sublist ..).nodup (nodup_entriesOf s.nodup (nodup_all.sublist (drop_sublist ..)))

lemma mem_keys_of_mem_waiting {entry : KeyKind × String} (h : entry ∈ s.waiting session) :
    entry.2 ∈ s.keys entry.1 :=
  (mem_entriesOf.mp ((entriesFrom_sublist ..).subset h)).2

lemma drop_collections {collectionIndex : ℕ} {kind : KeyKind}
    (h : KeyKind.all[collectionIndex]? = some kind) :
    all.drop collectionIndex = kind :: all.drop (collectionIndex + 1) := by
  obtain ⟨hlt, rfl⟩ := List.getElem?_eq_some_iff.mp h
  exact drop_eq_getElem_cons hlt

lemma waiting_eq {kind : KeyKind} (h : KeyKind.all[session.collectionIndex]? = some kind) :
    s.waiting session = (((s.keys kind).drop session.passed).map fun key => (kind, key)) ++
      entriesOf s.keys (all.drop (session.collectionIndex + 1)) := by
  rw [ScanStore.waiting, drop_collections h]
  rfl

lemma waiting_eq_nil (h : all.length ≤ session.collectionIndex) :
    s.waiting session = [] := by
  rw [ScanStore.waiting, drop_eq_nil_of_le h]
  rfl

/-! ## One page -/

/-- A key of a map is put on the page. -/
def ScanStore.listed (s : ScanStore) (pattern : PrefixPattern) (entry : KeyKind × String) : Bool :=
  s.isListed pattern entry.2 (all.idxOf entry.1)

/-- Between two states of the loop of a page some of the keys before it were examined. -/
structure Examines (s : ScanStore) (pattern : PrefixPattern) (count : ℕ) (p q : PageState)
    (examined : List (KeyKind × String)) : Prop where
  waiting : s.waiting p.session = examined ++ s.waiting q.session
  keys : q.keys = p.keys ++ (examined.filter (s.listed pattern)).map Prod.snd
  remaining : q.session.remaining + examined.length = p.session.remaining
  number : q.examined = p.examined + examined.length
  bounded : p.examined ≤ count → q.examined ≤ count
  within : s.Within p.session → s.Within q.session
  same : q.session.start = p.session.start ∧ q.session.page = p.session.page

lemma Examines.refl (s : ScanStore) (pattern : PrefixPattern) (count : ℕ) (p : PageState) :
    Examines s pattern count p p [] :=
  ⟨rfl, (append_nil _).symm, rfl, rfl, id, id, rfl, rfl⟩

lemma Examines.trans {count : ℕ} {p q r : PageState} {examined examined' : List (KeyKind × String)}
    (h : Examines s pattern count p q examined) (h' : Examines s pattern count q r examined') :
    Examines s pattern count p r (examined ++ examined') where
  waiting := by rw [h.waiting, h'.waiting, append_assoc]
  keys := by rw [h'.keys, h.keys, filter_append, map_append, append_assoc]
  remaining := by
    have h1 := h.remaining
    have h2 := h'.remaining
    rw [length_append]
    omega
  number := by rw [h'.number, h.number, length_append, add_assoc]
  bounded hp := h'.bounded (h.bounded hp)
  within hp := h'.within (h.within hp)
  same := ⟨h'.same.1.trans h.same.1, h'.same.2.trans h.same.2⟩

lemma pageRuns_iff {count : ℕ} {p : PageState} : pageRuns count p = true ↔
    p.examined < count ∧ 0 < p.session.remaining ∧
      p.session.collectionIndex < all.length := by
  rw [pageRuns, Bool.and_eq_true, Bool.and_eq_true, decide_eq_true_iff,
    decide_eq_true_iff, decide_eq_true_iff]

/-- What is left for the loop: keys to examine and maps to end. -/
def pageMeasure (count : ℕ) (p : PageState) : ℕ :=
  (count - p.examined) + (all.length - p.session.collectionIndex)

/-- A turn examines a batch, and its measure falls. -/
lemma examines_pageTurn (s : ScanStore) (pattern : PrefixPattern) {count : ℕ} {p : PageState}
    (hruns : pageRuns count p = true) :
    (∃ examined, Examines s pattern count p (s.pageTurn pattern p) examined) ∧
      pageMeasure count (s.pageTurn pattern p) < pageMeasure count p := by
  obtain ⟨hcnt, hrem, hindex⟩ := pageRuns_iff.mp hruns
  obtain ⟨kind, hkind⟩ : ∃ kind, KeyKind.all[p.session.collectionIndex]? = some kind :=
    ⟨_, getElem?_eq_getElem hindex⟩
  cases hkey : (s.keys kind)[p.session.passed]? with
  | none =>
    have hturn : s.pageTurn pattern p =
        { p with
          session :=
            { p.session with
              collectionIndex := p.session.collectionIndex + 1
              passed := 0 } } := by
      rw [pageTurn, hkind]
      dsimp only
      rw [hkey]
    rw [hturn]
    refine ⟨⟨[], ?_, (append_nil _).symm, rfl, rfl, id, fun _ _ _ => zero_le _, rfl, rfl⟩, ?_⟩
    · rw [waiting_eq hkind, drop_eq_nil_of_le (List.getElem?_eq_none_iff.mp hkey),
        ScanStore.waiting, entriesFrom_zero]
      rfl
    · dsimp only [pageMeasure]
      omega
  | some key =>
    obtain ⟨hlt, hget⟩ := List.getElem?_eq_some_iff.mp hkey
    have hidx : all.idxOf kind = p.session.collectionIndex := by
      obtain ⟨hlt', rfl⟩ := List.getElem?_eq_some_iff.mp hkind
      exact nodup_all.idxOf_getElem _ hlt'
    have hturn : s.pageTurn pattern p =
        { session :=
            { p.session with
              passed := p.session.passed + 1
              remaining := p.session.remaining - 1 }
          keys := p.keys ++
            if s.isListed pattern key p.session.collectionIndex then [key] else []
          examined := p.examined + 1 } := by
      rw [pageTurn, hkind]
      dsimp only
      rw [hkey]
    rw [hturn]
    refine ⟨⟨[(kind, key)], ?_, ?_, ?_, rfl, fun _ => hcnt, ?_, rfl, rfl⟩, ?_⟩
    · have hafter : s.waiting
          { p.session with
            passed := p.session.passed + 1
            remaining := p.session.remaining - 1 } = _ := waiting_eq hkind
      rw [waiting_eq hkind, drop_eq_getElem_cons hlt, hget, hafter]
      rfl
    · rw [filter_singleton, listed, hidx]
      cases s.isListed pattern key p.session.collectionIndex <;> rfl
    · dsimp only [length_singleton]
      omega
    · intro _ other hoth
      obtain rfl := Option.some.inj (hkind.symm.trans hoth)
      exact hlt
    · dsimp only [pageMeasure]
      omega

/-- **One page.** The loop stops by itself, and has examined the first keys before it. -/
theorem examines_pageLoop (s : ScanStore) (pattern : PrefixPattern) (count : ℕ) {turns : ℕ}
    {p : PageState} (h : pageMeasure count p ≤ turns) :
    (∃ examined, Examines s pattern count p (s.pageLoop pattern count turns p) examined) ∧
      pageRuns count (s.pageLoop pattern count turns p) = false := by
  induction turns generalizing p with
  | zero =>
    refine ⟨⟨[], .refl ..⟩, Bool.eq_false_iff.mpr fun hruns => ?_⟩
    obtain ⟨hcnt, -, -⟩ := pageRuns_iff.mp hruns
    rw [pageMeasure] at h
    rw [pageLoop] at hcnt
    omega
  | succ turns ih =>
    rw [pageLoop]
    by_cases hruns : pageRuns count p = true
    · rw [if_pos hruns]
      obtain ⟨⟨examined, hturn⟩, hless⟩ := examines_pageTurn s pattern hruns
      obtain ⟨⟨examined', hloop⟩, hstops⟩ := ih (p := s.pageTurn pattern p) (by omega)
      exact ⟨⟨_, hturn.trans hloop⟩, hstops⟩
    · rw [if_neg hruns]
      exact ⟨⟨[], .refl ..⟩, Bool.eq_false_iff.mpr hruns⟩

/-- The map under which a key is listed: the first one that has it. -/
def ScanStore.owner (s : ScanStore) (key : String) : Option KeyKind :=
  all.find? fun kind => decide (key ∈ s.keys kind)

/-- A key that has not expired is on a page exactly once, under its first map. -/
lemma listed_iff {kind : KeyKind} {key : String} (hmem : key ∈ s.keys kind)
    (hlive : s.isExpired key = false) (htest : pattern.test key = true) :
    s.listed pattern (kind, key) = true ↔ s.owner key = some kind := by
  have hall : kind ∈ KeyKind.all := by cases kind <;> decide
  have hidx := idxOf_lt_length_of_mem hall
  rw [listed, isListed, hlive, htest, Bool.not_false, Bool.and_true,
    Bool.and_true, scanKeyBelongsToCollection, all_eq_true, ScanStore.owner,
    find?_eq_some_iff_getElem]
  constructor
  · intro hbef
    refine ⟨decide_eq_true hmem, _, hidx, getElem_idxOf hidx, fun j hj => ?_⟩
    have hlt := hj.trans hidx
    have hnone := hbef (all.get ⟨j, hlt⟩) (mem_take_iff_getElem.mpr ⟨j, lt_min hj hlt, rfl⟩)
    rwa [hlive, Bool.not_false, Bool.and_true] at hnone
  · rintro ⟨-, i, hi, hget, hbef⟩ other hoth
    obtain ⟨j, hj, rfl⟩ := mem_take_iff_getElem.mp hoth
    have hji : j < i := by
      have hidxi : all.idxOf kind = i := by
        rw [← hget]
        exact nodup_all.idxOf_getElem i hi
      exact hidxi ▸ lt_of_lt_of_le hj (min_le_left ..)
    rw [hlive, Bool.not_false, Bool.and_true]
    exact hbef j hji

lemma count_listed {examined : List (KeyKind × String)} (hnodup : examined.Nodup)
    (hmem : ∀ entry ∈ examined, entry.2 ∈ s.keys entry.1) {kind : KeyKind} {key : String}
    (hlive : s.isExpired key = false) (htest : pattern.test key = true)
    (howner : s.owner key = some kind) :
    ((examined.filter (s.listed pattern)).map Prod.snd).count key =
      if (kind, key) ∈ examined then 1 else 0 := by
  rw [List.count, countP_map, countP_filter, ← hnodup.count]
  refine countP_congr fun entry hent => ?_
  obtain ⟨other, key'⟩ := entry
  simp only [comp_apply, Bool.and_eq_true, beq_iff_eq, Prod.mk.injEq]
  constructor
  · rintro ⟨rfl, hlist⟩
    have hoth := (listed_iff (hmem _ hent) hlive htest).mp hlist
    exact ⟨Option.some.inj (hoth.symm.trans howner), rfl⟩
  · rintro ⟨rfl, rfl⟩
    exact ⟨rfl, (listed_iff (hmem _ hent) hlive htest).mpr howner⟩

/-! ## Changes of other keys -/

section Changes

variable {change : Change} {key : String}

lemma mem_keys_apply (h : change.key ≠ some key) (kind : KeyKind) :
    key ∈ (s.apply change).keys kind ↔ key ∈ s.keys kind := by
  cases change with
  | set other changed =>
    have hne : key ≠ changed := fun heq => h (congrArg some heq.symm)
    dsimp only [ScanStore.apply]
    rw [update_apply]
    split_ifs with hkind
    · rw [mem_insert, hkind, or_iff_left hne]
    · rfl
  | delete other changed =>
    have hne : key ≠ changed := fun heq => h (congrArg some heq.symm)
    dsimp only [ScanStore.apply]
    rw [update_apply]
    split_ifs with hkind
    · rw [mem_erase, hkind, and_iff_left hne]
    · rfl
  | expireAt => rfl
  | persist => rfl
  | tick => rfl

lemma owner_apply (h : change.key ≠ some key) : (s.apply change).owner key = s.owner key := by
  rw [ScanStore.owner]
  congr 1
  funext kind
  exact decide_eq_decide.mpr (mem_keys_apply h kind)

lemma isExpired_apply (h : change.key ≠ some key)
    (hlive : (s.apply change).isExpired key = false) : s.isExpired key = false := by
  cases change with
  | set => exact hlive
  | delete => exact hlive
  | expireAt changed time =>
    have hne : key ≠ changed := fun heq => h (congrArg some heq.symm)
    rwa [ScanStore.isExpired, ScanStore.apply, get?_put_of_ne _ _ hne] at hlive
  | persist changed =>
    have hne : key ≠ changed := fun heq => h (congrArg some heq.symm)
    rwa [ScanStore.isExpired, ScanStore.apply, get?_filter_ne, if_neg hne] at hlive
  | tick elapsed =>
    rw [ScanStore.isExpired, Option.any_eq_false_iff_get] at hlive ⊢
    intro hsome
    have hlate := hlive hsome
    rw [decide_eq_false_iff_not] at hlate ⊢
    exact fun hexp => hlate ⟨hexp.1, hexp.2.trans (by simp [ScanStore.apply])⟩

/-- The session after a change. -/
def ScanSession.apply (session : ScanSession) (s : ScanStore) : Change → ScanSession
  | .delete kind key => session.afterDelete kind (s.keys kind) key
  | _ => session

lemma sessions_apply (s : ScanStore) (change : Change) : (s.apply change).scanSessions =
      s.scanSessions.map fun entry => (entry.1, entry.2.apply s change) := by
  cases change with
  | delete => rfl
  | _ => exact (map_id _).symm

lemma apply_same (session : ScanSession) (s : ScanStore) (change : Change) :
    (session.apply s change).collectionIndex = session.collectionIndex ∧
      (session.apply s change).start = session.start ∧
      (session.apply s change).remaining = session.remaining ∧
      (session.apply s change).page = session.page ∧
      (session.apply s change).expiresAt = session.expiresAt := by
  cases change with
  | delete =>
    rw [ScanSession.apply, ScanSession.afterDelete]
    split_ifs <;> exact ⟨rfl, rfl, rfl, rfl, rfl⟩
  | _ => exact ⟨rfl, rfl, rfl, rfl, rfl⟩

lemma within_apply (h : s.Within session) (change : Change) :
    (s.apply change).Within (session.apply s change) := by
  intro kind hkind
  rw [(apply_same session s change).1] at hkind
  have hle := h kind hkind
  cases change with
  | set other changed =>
    dsimp only [ScanStore.apply]
    rw [update_apply]
    split_ifs with heq
    · subst heq
      exact hle.trans (length_le_insert ..)
    · exact hle
  | delete other changed =>
    dsimp only [ScanStore.apply, ScanSession.apply]
    rw [update_apply, ScanSession.afterDelete]
    by_cases heq : kind = other
    · subst heq
      rw [if_pos hkind, if_pos rfl]
      exact moved_le (s.nodup kind) hle changed
    · rw [if_neg heq, if_neg fun hoth => heq (Option.some.inj (hkind.symm.trans hoth))]
      exact hle
  | _ => exact hle

lemma mem_waiting {entry : KeyKind × String} : entry ∈ s.waiting session ↔
      (KeyKind.all[session.collectionIndex]? = some entry.1 ∧
        entry.2 ∈ (s.keys entry.1).drop session.passed) ∨
      (entry.1 ∈ all.drop (session.collectionIndex + 1) ∧ entry.2 ∈ s.keys entry.1) := by
  obtain ⟨kind, key⟩ := entry
  cases hkind : KeyKind.all[session.collectionIndex]? with
  | none =>
    have hle := List.getElem?_eq_none_iff.mp hkind
    rw [waiting_eq_nil hle, drop_eq_nil_of_le (hle.trans (le_succ _))]
    simp
  | some current =>
    rw [waiting_eq hkind, mem_append, mem_entriesOf]
    simp only [mem_map, Prod.mk.injEq, Option.some.injEq]
    refine or_congr_left ⟨?_, ?_⟩
    · rintro ⟨_, hmem, rfl, rfl⟩
      exact ⟨rfl, hmem⟩
    · rintro ⟨rfl, hmem⟩
      exact ⟨key, hmem, rfl, rfl⟩

lemma mem_waiting_apply (hwithi : s.Within session) (h : change.key ≠ some key) (kind : KeyKind) :
    (kind, key) ∈ (s.apply change).waiting (session.apply s change) ↔
      (kind, key) ∈ s.waiting session := by
  rw [mem_waiting, mem_waiting, (apply_same session s change).1, mem_keys_apply h]
  refine or_congr_left (and_congr_right fun hkind => ?_)
  have hle := hwithi kind hkind
  cases change with
  | set other changed =>
    have hne : key ≠ changed := fun heq => h (congrArg some heq.symm)
    dsimp only [ScanStore.apply, ScanSession.apply]
    rw [update_apply]
    split_ifs with heq
    · subst heq
      rw [drop_insert hle, mem_append, or_iff_left]
      intro hmem
      split_ifs at hmem
      · cases hmem
      · exact hne (mem_singleton.mp hmem)
    · rfl
  | delete other changed =>
    have hne : key ≠ changed := fun heq => h (congrArg some heq.symm)
    dsimp only [ScanStore.apply, ScanSession.apply]
    rw [update_apply, ScanSession.afterDelete]
    by_cases heq : kind = other
    · subst heq
      rw [if_pos hkind, if_pos rfl, drop_erase (s.nodup kind) hle,
        mem_erase, and_iff_left hne]
    · rw [if_neg heq, if_neg fun hoth => heq (Option.some.inj (hkind.symm.trans hoth))]
  | _ => rfl

end Changes

lemma length_enforceScanSessionBudget (s : ScanStore) :
    s.enforceScanSessionBudget.length ≤ maxScanSessions := by
  rw [enforceScanSessionBudget, length_drop]
  omega

lemma get?_enforceScanSessionBudget {id : ℕ} (hfew : s.scanSessions.length ≤ 64)
    (h : get? s.scanSessions id = some session) (htime : s.now < session.expiresAt) :
    get? s.enforceScanSessionBudget id = some session := by
  rw [enforceScanSessionBudget]
  have hlen : (s.scanSessions.filter fun entry => s.now < entry.2.expiresAt).length -
      maxScanSessions = 0 :=
    Nat.sub_eq_zero_of_le ((length_filter_le ..).trans hfew)
  rw [hlen]
  exact get?_filter_of_pos h (decide_eq_true htime)

/-- What a page begins with. -/
structure Opened (s t : ScanStore) (id : ℕ) (session : ScanSession) : Prop where
  keys : t.keys = s.keys
  ttl : t.ttl = s.ttl
  now : t.now = s.now
  few : t.scanSessions.length ≤ 64
  found : get? t.scanSessions id = some session

lemma opened_zero (s : ScanStore) (pattern : PrefixPattern) :
    Opened s (s.openSession pattern .zero).1 (s.openSession pattern .zero).2.1
        (s.openSession pattern .zero).2.2 ∧
      (s.openSession pattern .zero).2.2 =
        { start := pattern.start
          remaining := s.size
          expiresAt := s.now + maxScanSessionLifetimeMs } := by
  have hfew := length_enforceScanSessionBudget s
  refine ⟨⟨rfl, rfl, rfl, ?_, get?_put_self ..⟩, rfl⟩
  refine (length_put_le ..).trans ?_
  rw [maxScanSessions] at hfew ⊢
  split_ifs with hfull
  · rw [length_tail]
    omega
  · omega

lemma opened_at {id : ℕ} (hfew : s.scanSessions.length ≤ 64)
    (h : get? s.scanSessions id = some session) (htime : s.now < session.expiresAt)
    (hst : session.start = pattern.start) (page : ℕ) :
    Opened s (s.openSession pattern (.at id page)).1 id session ∧
      (s.openSession pattern (.at id page)).2 = (id, session) := by
  have hfnd := get?_enforceScanSessionBudget hfew h htime
  have hsess : s.sessionOf pattern (.at id page) = some (id, session) := by
    rw [sessionOf, hfnd, Option.filter_some, if_pos (decide_eq_true hst)]
    rfl
  have hopen : s.openSession pattern (.at id page) =
      ({ s with scanSessions := s.enforceScanSessionBudget }, id, session) := by
    rw [openSession, hsess]
  rw [hopen]
  exact ⟨⟨rfl, rfl, rfl, length_enforceScanSessionBudget s, hfnd⟩, rfl⟩

lemma size_eq (s : ScanStore) : s.size = (entriesOf s.keys all).length := by
  rw [entriesOf, length_flatMap, ScanStore.size]
  simp only [length_map]

/-! ## Runs -/

/-- The key was there at the first page, no command has changed it since, it has the prefix of the
pattern, and it has not expired. -/
def ScanRun.Stable (run : ScanRun) (pattern : PrefixPattern) (key : String) : Prop :=
  key ∈ run.present ∧ key ∉ run.changed ∧ hasPrefix pattern.start key = true ∧
    run.store.isExpired key = false

/-- A key that stays is returned exactly once, and the scan ends. -/
structure FindsStable (pattern : PrefixPattern) (run : ScanRun) : Prop where
  once : run.finished = true → ∀ key, run.Stable pattern key → run.keys.count key = 1
  ends : run.pages ≤ run.size + 1

/-- A page that loses no key that stays. -/
structure PageSafe (pattern : PrefixPattern) (count : Option ℚ) (run : ScanRun) : Prop where
  oneLine : ∀ key, run.begun.Stable pattern key →
    (key.toList.drop pattern.start.toList.length).all (fun c => !isLineTerminator c) = true
  inTime : ∀ id page session, run.cursor = .at id page →
    get? run.store.scanSessions id = some session → run.store.now < session.expiresAt
  enough : ∀ id page session, run.cursor = .at id page →
    get? run.store.scanSessions id = some session → session.remaining ≤ pageCount count →
        ∀ entry ∈ (run.store.waiting session).drop session.remaining, ¬ run.Stable pattern entry.2

/-- The pages of a run are safe. -/
def EventSafe (pattern : PrefixPattern) (count : Option ℚ) (run : ScanRun) : ScanEvent → Prop
  | .change _ => True
  | .page => PageSafe pattern count run

/-- A scan between two pages. -/
structure Underway (pattern : PrefixPattern) (run : ScanRun) (id : ℕ) (session : ScanSession) :
    Prop where
  unfinished : run.finished = false
  cursor : run.cursor = .at id session.page
  found : get? run.store.scanSessions id = some session
  few : run.store.scanSessions.length ≤ 64
  start : session.start = pattern.start
  within : run.store.Within session
  visited : ∀ cursor ∈ run.visitedCursors,
    cursor = .zero ∨ ∃ page < session.page, cursor = .at id page
  begun : 0 < run.pages
  pages : run.pages + session.remaining ≤ run.size
  owner : ∀ key, run.Stable pattern key → ∃ kind, run.store.owner key = some kind ∧
    run.keys.count key = if (kind, key) ∈ run.store.waiting session then 0 else 1

/-- How far a scan is. -/
inductive Progress (pattern : PrefixPattern) (run : ScanRun) : Prop
  | initial (hfinished : run.finished = false) (hcursor : run.cursor = .zero)
      (hvisited : run.visitedCursors = []) (hkeys : run.keys = []) (hpages : run.pages = 0)
  | underway (id : ℕ) (session : ScanSession) (h : Underway pattern run id session)
  | finished (hfinished : run.finished = true) (h : FindsStable pattern run)
      (hpages : 0 < run.pages)

lemma Progress.findsStable {run : ScanRun} (h : Progress pattern run) :
    FindsStable pattern run := by
  cases h with
  | initial hfin _ _ _ hpages =>
    refine ⟨fun hdone => absurd (hfin.symm.trans hdone) Bool.false_ne_true, ?_⟩
    rw [hpages]
    exact zero_le _
  | underway id session h =>
    refine ⟨fun hdone => absurd (h.unfinished.symm.trans hdone) Bool.false_ne_true, ?_⟩
    have hpages := h.pages
    omega
  | finished _ h => exact h

/-! ## One event -/

lemma pageCount_pos (count : Option ℚ) : 0 < pageCount count := by
  exact Int.lt_toNat.mpr (lt_of_lt_of_le (by decide) (le_max_left ..))

lemma Examines.count_keys {count : ℕ} {p q : PageState} {examined : List (KeyKind × String)}
    (h : Examines s pattern count p q examined) {kind : KeyKind} {key : String}
    (hlive : s.isExpired key = false) (htest : pattern.test key = true)
    (howner : s.owner key = some kind) {keys : List String} (hkeys : p.keys = [])
    (hcnt : keys.count key = if (kind, key) ∈ s.waiting p.session then 0 else 1) :
    (keys ++ q.keys).count key = if (kind, key) ∈ s.waiting q.session then 0 else 1 := by
  have hnodup := nodup_waiting s p.session
  rw [h.waiting] at hnodup hcnt
  obtain ⟨hexam, -, hdisj⟩ := nodup_append.mp hnodup
  have hmem : ∀ entry ∈ examined, entry.2 ∈ s.keys entry.1 := fun entry hent =>
    have hwaits : entry ∈ s.waiting p.session := h.waiting ▸ mem_append_left _ hent
    mem_keys_of_mem_waiting hwaits
  rw [count_append, h.keys, hkeys, nil_append, count_listed hexam hmem hlive htest howner, hcnt]
  by_cases hin : (kind, key) ∈ examined
  · have hout : (kind, key) ∉ s.waiting q.session := fun hrest => hdisj _ hin _ hrest rfl
    rw [if_pos hin, if_pos (mem_append_left _ hin), if_neg hout]
  · rw [if_neg hin, add_zero]
    simp only [mem_append, hin, false_or]

/-- What a run has before a page, with the session of the page. -/
structure BeforePage (pattern : PrefixPattern) (count : Option ℚ) (run : ScanRun) (t : ScanStore)
    (id : ℕ) (session : ScanSession) : Prop where
  unvisited : run.cursor ∉ run.visitedCursors
  opened : run.store.openSession pattern run.cursor = (t, id, session)
  same : Opened run.store t id session
  start : session.start = pattern.start
  within : run.store.Within session
  visited : ∀ cursor ∈ run.cursor :: run.visitedCursors,
    cursor = .zero ∨ ∃ page < session.page + 1, cursor = .at id page
  pages : run.pages + session.remaining ≤ run.size
  owner : ∀ key, run.Stable pattern key → ∃ kind, run.store.owner key = some kind ∧
    run.keys.count key = if (kind, key) ∈ run.store.waiting session then 0 else 1
  test : ∀ key, run.Stable pattern key → pattern.test key = true
  enough : session.remaining ≤ pageCount count →
    ∀ entry ∈ (run.store.waiting session).drop session.remaining, ¬ run.Stable pattern entry.2

variable {count : Option ℚ}

/-- A page examines keys and moves its cursor on. -/
lemma BeforePage.progress {run : ScanRun} {t : ScanStore} {id : ℕ}
    (h : BeforePage pattern count run t id session) :
    Progress pattern (run.page pattern count) := by
  have hturns : pageMeasure (pageCount count) { session } ≤ pageTurns (pageCount count) :=
    Nat.add_le_add (Nat.sub_le ..) (Nat.sub_le ..)
  obtain ⟨⟨examined, hexam⟩, hstops⟩ := examines_pageLoop t pattern (pageCount count) hturns
  set q := t.pageLoop pattern (pageCount count) (pageTurns (pageCount count)) { session }
    with hq
  have hrem := hexam.remaining
  have hnum := hexam.number
  have hboun := hexam.bounded (zero_le _)
  have hpages := h.pages
  have hwait : ∀ other, t.waiting other = run.store.waiting other := fun other => by
    rw [ScanStore.waiting, ScanStore.waiting, h.same.keys]
  have hexp : ∀ key, t.isExpired key = run.store.isExpired key := fun key => by
    rw [ScanStore.isExpired, ScanStore.isExpired, h.same.ttl, h.same.now]
  have howner : ∀ key, t.owner key = run.store.owner key := fun key => by
    rw [ScanStore.owner, ScanStore.owner, h.same.keys]
  have hcnt : ∀ key, run.Stable pattern key → ∃ kind, t.owner key = some kind ∧
      (run.keys ++ q.keys).count key = if (kind, key) ∈ t.waiting q.session then 0 else 1 := by
    intro key hkey
    obtain ⟨kind, hkind, hbef⟩ := h.owner key hkey
    have hlive : t.isExpired key = false := (hexp key).trans hkey.2.2.2
    refine ⟨kind, (howner key).trans hkind, ?_⟩
    refine hexam.count_keys hlive (h.test key hkey) ((howner key).trans hkind) rfl ?_
    rw [hbef, hwait]
  dsimp only at hrem hnum hboun
  by_cases hcomp : q.session.remaining = 0 ∨ KeyKind.all.length ≤ q.session.collectionIndex
  · -- The session is at its end, or its budget is used up.
    have hrun : run.page pattern count = { run with
          store := { t with scanSessions := t.scanSessions.filter fun entry => entry.1 ≠ id }
          cursor := .zero
          visitedCursors := run.cursor :: run.visitedCursors
          keys := run.keys ++ q.keys
          finished := true
          pages := run.pages + 1 } := by
      rw [page, if_neg h.unvisited, ScanStore.scan, h.opened]
      dsimp only
      rw [if_pos hcomp]
      rfl
    rw [hrun]
    refine .finished rfl ⟨fun _ key hkey => ?_, ?_⟩ (succ_pos _)
    · have hstab : run.Stable pattern key :=
        ⟨hkey.1, hkey.2.1, hkey.2.2.1, (hexp key).symm.trans hkey.2.2.2⟩
      obtain ⟨kind, -, hkeys⟩ := hcnt key hstab
      rw [hkeys, if_neg]
      intro hbehin
      rcases hcomp with hzero | hend
      · have hlen : examined.length = session.remaining := by omega
        refine h.enough (by omega) (kind, key) ?_ hstab
        have hsplit := hexam.waiting
        rw [hwait] at hsplit
        rw [hsplit, ← hlen, drop_left]
        exact hbehin
      · rw [waiting_eq_nil hend] at hbehin
        cases hbehin
    · dsimp only
      omega
  · have hfull : pageCount count ≤ q.examined := by
      by_contra hless
      rw [Bool.eq_false_iff] at hstops
      exact hstops (pageRuns_iff.mpr ⟨by omega, by omega, by omega⟩)
    have hpos := pageCount_pos count
    have hrun : run.page pattern count = { run with
          store :=
            { t with
              scanSessions := put t.scanSessions id { q.session with
                  expiresAt := t.now + maxScanSessionLifetimeMs
                  page := q.session.page + 1 } }
          cursor := .at id (q.session.page + 1)
          visitedCursors := run.cursor :: run.visitedCursors
          keys := run.keys ++ q.keys
          finished := false
          pages := run.pages + 1 } := by
      rw [page, if_neg h.unvisited, ScanStore.scan, h.opened]
      dsimp only
      rw [if_neg hcomp]
      rfl
    rw [hrun]
    have hmem : id ∈ t.scanSessions.map Prod.fst :=
      isSome_get?_iff.mp (Option.isSome_of_mem h.same.found)
    have hpage : q.session.page = session.page := hexam.same.2
    have hwithi : t.Within session := by
      intro kind hkind
      rw [h.same.keys]
      exact h.within kind hkind
    refine .underway id _ ⟨rfl, rfl, get?_put_self .., ?_, ?_, hexam.within hwithi, ?_,
      succ_pos _, ?_, fun key hkey => ?_⟩
    · rw [length_put_of_mem _ hmem]
      exact h.same.few
    · exact hexam.same.1.trans h.start
    · rw [hpage]
      exact h.visited
    · dsimp only
      omega
    · exact hcnt key ⟨hkey.1, hkey.2.1, hkey.2.2.1, (hexp key).symm.trans hkey.2.2.2⟩

lemma beforePage_initial {run : ScanRun} (hcurso : run.cursor = .zero)
    (hvisit : run.visitedCursors = []) (hkeys : run.keys = []) (hpages : run.pages = 0)
    (hsafe : PageSafe pattern count run) :
    ∃ t id session, BeforePage pattern count run.begun t id session := by
  have hbegun : run.begun = { run with
        present := KeyKind.all.flatMap run.store.keys
        size := run.store.size
        changed := [] } := by
    rw [begun, if_pos hpages]
  obtain ⟨hopen, hsess⟩ := opened_zero run.store pattern
  have hwait : run.store.waiting (run.store.openSession pattern .zero).2.2 =
      entriesOf run.store.keys KeyKind.all := by
    exact entriesFrom_zero ..
  have htest := hsafe.oneLine
  rw [hbegun] at htest ⊢
  refine ⟨_, _, _, ⟨?_, ?_, hopen, ?_, ?_, ?_, ?_, fun key hkey => ?_, fun key hkey => ?_, ?_⟩⟩
  · rw [hvisit]
    exact not_mem_nil
  · rw [hcurso]
  · rw [hsess]
  · exact fun _ _ => zero_le _
  · rw [hcurso, hvisit]
    intro cursor hmem
    exact .inl (mem_singleton.mp hmem)
  · rw [hsess, hpages, zero_add]
  · obtain ⟨kind, hkind, hmem⟩ := mem_flatMap.mp hkey.1
    obtain ⟨owner, howner⟩ : ∃ owner, run.store.owner key = some owner :=
      Option.isSome_iff_exists.mp (find?_isSome.mpr ⟨kind, hkind, decide_eq_true hmem⟩)
    have hown := find?_some howner
    refine ⟨owner, howner, ?_⟩
    have hwaits : (owner, key) ∈ entriesOf run.store.keys KeyKind.all :=
      mem_entriesOf.mpr ⟨mem_of_find?_eq_some howner, of_decide_eq_true hown⟩
    rw [hwait, if_pos hwaits, hkeys]
    rfl
  · rw [PrefixPattern.test, hkey.2.2.1]
    exact htest key hkey
  · intro _ entry hent
    rw [hwait, hsess] at hent
    rw [size_eq, drop_length] at hent
    cases hent

lemma Underway.beforePage {run : ScanRun} {id : ℕ}
    (h : Underway pattern run id session) (hsafe : PageSafe pattern count run) :
    ∃ t, BeforePage pattern count run.begun t id session := by
  have hbegun : run.begun = run := by rw [ScanRun.begun, if_neg h.begun.ne']
  have htime := hsafe.inTime id session.page session h.cursor h.found
  obtain ⟨hopen, heq⟩ := opened_at h.few h.found htime h.start session.page
  have htest := hsafe.oneLine
  rw [hbegun] at htest ⊢
  refine ⟨_, ⟨?_, ?_, hopen, h.start, h.within, ?_, h.pages, h.owner, fun key hkey => ?_,
    hsafe.enough id session.page session h.cursor h.found⟩⟩
  · intro hmem
    rcases h.visited _ hmem with hzero | ⟨page, hless, hat⟩
    · rw [h.cursor] at hzero
      cases hzero
    · rw [h.cursor] at hat
      cases hat
      exact lt_irrefl _ hless
  · rw [h.cursor]
    exact Prod.ext rfl heq
  · intro cursor hmem
    rcases mem_cons.mp hmem with rfl | hmem
    · exact .inr ⟨session.page, lt_succ_self _, h.cursor⟩
    · exact (h.visited cursor hmem).imp_right fun ⟨page, hless, heq⟩ =>
        ⟨page, hless.trans (lt_succ_self _), heq⟩
  · rw [PrefixPattern.test, hkey.2.2.1]
    exact htest key hkey

lemma Progress.change {run : ScanRun} (h : Progress pattern run) (change : Change) :
    Progress pattern { run with
        store := run.store.apply change
        changed := change.key.toList ++ run.changed } := by
  have hoth : ∀ key, key ∉ change.key.toList ++ run.changed →
      change.key ≠ some key ∧ key ∉ run.changed := fun key hkey =>
    ⟨fun heq => hkey (mem_append_left _ (by rw [heq]; exact mem_singleton_self key)),
      fun hmem => hkey (mem_append_right _ hmem)⟩
  have hstab : ∀ key, ScanRun.Stable { run with
        store := run.store.apply change
        changed := change.key.toList ++ run.changed } pattern key →
      change.key ≠ some key ∧ run.Stable pattern key := by
    rintro key ⟨hpres, hchan, hpref, hlive⟩
    obtain ⟨hne, hkept⟩ := hoth key hchan
    exact ⟨hne, hpres, hkept, hpref, isExpired_apply hne hlive⟩
  cases h with
  | initial hfinished hcursor hvisited hkeys hpages =>
    exact .initial hfinished hcursor hvisited hkeys hpages
  | underway id session h =>
    obtain ⟨-, hst, hrem, hpage, -⟩ := apply_same session run.store change
    refine .underway id (session.apply run.store change) ⟨h.unfinished, ?_, ?_, ?_,
      hst.trans h.start, within_apply h.within change, ?_, h.begun, ?_, fun key hkey => ?_⟩
    · rw [hpage]
      exact h.cursor
    · have hmap := get?_map_value run.store.scanSessions
        (fun session => session.apply run.store change) id
      rw [sessions_apply, hmap, h.found]
      rfl
    · rw [sessions_apply, length_map]
      exact h.few
    · rw [hpage]
      exact h.visited
    · rw [hrem]
      exact h.pages
    · obtain ⟨hne, hkept⟩ := hstab key hkey
      obtain ⟨kind, howner, hcnt⟩ := h.owner key hkept
      refine ⟨kind, (owner_apply hne).trans howner, ?_⟩
      simp only [mem_waiting_apply h.within hne, hcnt]
  | finished hfinished h hpages =>
    exact .finished hfinished ⟨fun hdone key hkey => h.once hdone key (hstab key hkey).2, h.ends⟩
      hpages

lemma Progress.step {run run' : ScanRun} {event : ScanEvent}
    (h : Progress pattern run) (hsafe : EventSafe pattern count run event)
    (hstep : run.step pattern count event = some run') : Progress pattern run' := by
  cases event with
  | change change =>
    rw [ScanRun.step, Option.some.injEq] at hstep
    exact hstep ▸ h.change change
  | page =>
    rw [ScanRun.step] at hstep
    split_ifs at hstep with hfin
    cases hstep
    cases h with
    | initial _ hcurso hvisit hkeys hpages =>
      obtain ⟨t, id, session, hbef⟩ := beforePage_initial hcurso hvisit hkeys hpages hsafe
      exact hbef.progress
    | underway id session h =>
      obtain ⟨t, hbef⟩ := h.beforePage hsafe
      exact hbef.progress
    | finished hdone => exact absurd hdone hfin

/-- **A scan misses no key that stays.** In every run whose pages are safe, whatever other keys are
added, deleted and changed between its pages, a key that stays is returned exactly once, and there
are at most as many pages as there were keys, and one. -/
theorem findsStable_of_pageSafe (pattern : PrefixPattern) (count : Option ℚ) (s : ScanStore)
    (events : List ScanEvent) (run' : ScanRun)
    (hsafe : Meets (step pattern count) (EventSafe pattern count) { store := s } events)
    (hrun : run (step pattern count) { store := s } events = some run') :
    FindsStable pattern run' := by
  have hstart : Progress pattern { store := s } := .initial rfl rfl rfl rfl rfl
  have hprogress := invariant_of_meets (I := Progress pattern)
    (fun _ _ _ h hevent hstep => h.step hevent hstep) hstart hsafe hrun
  exact hprogress.findsStable

/-- Ten strings and, in the last of the maps, a key with the prefix. -/
def crowdedStore : ScanStore where
  keys
    | .string => ["k0", "k1", "k2", "k3", "k4", "k5", "k6", "k7", "k8", "k9"]
    | .zset => ["p:z"]
    | _ => []
  nodup := by
    intro kind
    cases kind <;> decide

/-- `p:*`. -/
def prefixPattern : PrefixPattern := ⟨"p:", by decide⟩

/-- A scan of two pages between which a key is added to the map of a kind. -/
def eventsWithKey (kind : KeyKind) : List ScanEvent := [.page, .change (.set kind "k10"), .page]

/-- The second page has the last key before it, and the budget for it. -/
def isLastPage (run : ScanRun) : Bool :=
  decide (run.pages = 1 ∧ run.present = all.flatMap crowdedStore.keys ∧
    run.cursor = .at 1 1) &&
    (get? run.store.scanSessions 1).all fun session =>
      decide (run.store.now < session.expiresAt ∧
        ∀ entry ∈ (run.store.waiting session).drop session.remaining,
          hasPrefix prefixPattern.start entry.2 = false)

lemma pageSafe_of_isLastPage {run : ScanRun} (h : isLastPage run = true) :
    PageSafe prefixPattern (some 10) run := by
  rw [isLastPage, Bool.and_eq_true, decide_eq_true_iff] at h
  obtain ⟨⟨hpages, hpres, hcurso⟩, hsess⟩ := h
  have hlines : ∀ key ∈ all.flatMap crowdedStore.keys,
      (key.toList.drop prefixPattern.start.toList.length).all
        (fun c => !isLineTerminator c) = true := by decide +kernel
  have hfnd : ∀ id page session, run.cursor = .at id page →
      get? run.store.scanSessions id = some session → run.store.now < session.expiresAt ∧
        ∀ entry ∈ (run.store.waiting session).drop session.remaining,
          hasPrefix prefixPattern.start entry.2 = false := by
    intro id page session hat hget
    cases hcurso.symm.trans hat
    rw [hget] at hsess
    exact of_decide_eq_true hsess
  refine ⟨fun key hkey => hlines key ?_, fun id page session hat hget =>
    (hfnd id page session hat hget).1, fun id page session hat hget _ entry hent hstab => ?_⟩
  · rw [begun, if_neg (by rw [hpages]; exact one_ne_zero)] at hkey
    exact hpres ▸ hkey.1
  · have hout := (hfnd id page session hat hget).2 entry hent
    exact Bool.false_ne_true (hout.symm.trans hstab.2.2.1)

/-- A key that is added behind the last one does no harm. -/
theorem findsStable_eventsWithKey :
    ∃ run' ∈ run (step prefixPattern (some 10)) { store := crowdedStore }
      (eventsWithKey .zset), FindsStable prefixPattern run' := by
  have hends : (run (step prefixPattern (some 10)) { store := crowdedStore }
      (eventsWithKey .zset)).isSome = true := by decide +kernel
  obtain ⟨run', hrun⟩ := Option.isSome_iff_exists.mp hends
  refine ⟨run', hrun, ?_⟩
  refine findsStable_of_pageSafe prefixPattern (some 10) crowdedStore _ run' ?_ hrun
  have hlast : (run (step prefixPattern (some 10)) { store := crowdedStore }
      [.page, .change (.set .zset "k10")]).all isLastPage = true := by decide +kernel
  have hlines : ∀ key ∈ all.flatMap crowdedStore.keys,
      (key.toList.drop prefixPattern.start.toList.length).all
        (fun c => !isLineTerminator c) = true := by decide +kernel
  refine ⟨⟨fun key hkey => hlines key hkey.1, nofun, nofun⟩, fun t ht =>
    ⟨trivial, fun u hu => ⟨?_, fun _ _ => trivial⟩⟩⟩
  apply pageSafe_of_isLastPage
  rw [run_cons_eq_some.mpr ⟨t, ht, run_cons_eq_some.mpr ⟨u, hu, rfl⟩⟩]
    at hlast
  exact hlast

/-- A string that is added between the pages is examined in place of the key that stays. -/
theorem not_findsStable_eventsWithKey :
    ¬ ∀ run' ∈ run (step prefixPattern (some 10)) { store := crowdedStore }
      (eventsWithKey .string), FindsStable prefixPattern run' := by
  intro hall
  have hmissed : (run (step prefixPattern (some 10)) { store := crowdedStore }
      (eventsWithKey .string)).any (fun last => last.finished && decide ("p:z" ∈ last.present ∧
        "p:z" ∉ last.changed ∧ hasPrefix prefixPattern.start "p:z" = true ∧
          last.store.isExpired "p:z" = false ∧ last.keys.count "p:z" ≠ 1)) = true := by
    decide +kernel
  obtain ⟨last, hrun, hmissed⟩ := (Option.any_eq_true _ _).mp hmissed
  rw [Bool.and_eq_true, decide_eq_true_iff] at hmissed
  obtain ⟨hfinished, hpresent, hchanged, hprefix, hlive, hcount⟩ := hmissed
  exact hcount ((hall last hrun).once hfinished "p:z" ⟨hpresent, hchanged, hprefix, hlive⟩)

end CtsEngine.KeyScan
