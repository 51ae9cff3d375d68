import CtsEngine.Block.Outcomes
import CtsEngine.Transition.Optimistic
import CtsEngine.Transition.Runs

/-!
# Concurrent closes are serialisable

Any number of workers run `updateBlockLifecycleForClose` for positions of one connection.  Each
attempt of a worker is three separate steps on Redis: `GET` of the processed marker, the script
`READ_SYMBOL_STATES` and the script `COMMIT_BLOCK_OUTCOME`; the steps of different workers
interleave in any order.  `BlockSystem` records the position of every worker between its steps and,
as a history variable, the closes committed so far.
-/

namespace CtsEngine

open BlockRedis

open Option List Transition Transition.Optimistic Function

/-- `updateBlockLifecycleForClose` gives up after this number of attempts. -/
def blockCommitAttempts : ℕ := 32

/-- A committed close: the call and the clock reading of the attempt that committed. -/
structure BlockCommit where
  call : CloseCall
  now : ℚ

/-- Where a worker stands between two Redis steps. -/
inductive BlockPhase
  | idle
  /-- About to `GET` the processed marker. -/
  | checking (call : CloseCall) (attempt : ℕ)
  /-- About to run `READ_SYMBOL_STATES`. -/
  | reading (call : CloseCall) (attempt : ℕ)
  /-- About to run `COMMIT_BLOCK_OUTCOME`. -/
  | committing (call : CloseCall) (attempt version : ℕ) (now : ℚ)
    (changes : String → Option LaneChange)

/-- The workers of one connection and its Redis keys. -/
structure BlockSystem (W : Type*) where
  redis : BlockRedis
  phase : W → BlockPhase
  /-- History variable: the committed closes in the order of their commits. -/
  commits : List BlockCommit

/-- One step of one worker. -/
inductive BlockAction (W : Type*)
  /-- A worker is called for a position; it also reads the active Block positions of the symbol. -/
  | call (worker : W) (call : CloseCall)
  | getProcessed (worker : W)
  /-- The read, followed by the local decision at the clock reading `now`. -/
  | readStates (worker : W) (now : ℚ)
  | commit (worker : W)

variable {W : Type*} [DecidableEq W]

variable (redis : BlockRedis)

/-- All workers idle on the given keys. -/
def BlockSystem.start : BlockSystem W where
  redis := redis
  phase := fun _ => .idle
  commits := []

/-- Move one worker. -/
def BlockSystem.move (s : BlockSystem W) (w : W) (phase : BlockPhase) : BlockSystem W :=
  { s with phase := update s.phase w phase }

/-- One step of `updateBlockLifecycleForClose` on the connection `conn`. -/
def blockStep (conn : String) (s : BlockSystem W) : BlockAction W → Option (BlockSystem W)
  | .call w call =>
    match s.phase w with
    | .idle =>
      if call.position.connectionId = conn ∧ call.position.isSettledClose then
        some (s.move w (.checking call 0))
      else some s
    | _ => none
  | .getProcessed w =>
    match s.phase w with
    | .checking call attempt =>
      if s.redis.processed call.position.id then some (s.move w .idle)
      else some (s.move w (.reading call attempt))
    | _ => none
  | .readStates w now =>
    match s.phase w with
    | .reading call attempt =>
      let read := readSymbolStates s.redis (symbolKey call.position.symbol)
      some (s.move w (.committing call attempt read.1 now (closeChanges call now read.2)))
    | _ => none
  | .commit w =>
    match s.phase w with
    | .committing call attempt version now changes =>
      let reply := commitBlockOutcome s.redis version changes (symbolKey call.position.symbol)
        call.position.id
      if reply.1 = 1 then
        some { redis := reply.2
               phase := update s.phase w .idle
               commits := s.commits ++ [⟨call, now⟩] }
      else if reply.1 = 2 then some (s.move w .idle)
      else if attempt + 1 < blockCommitAttempts then some (s.move w (.checking call (attempt + 1)))
      else some (s.move w .idle)
    | _ => none

/-- The uninterrupted run of one worker for one close. -/
def closeAlone (w : W) (c : BlockCommit) : List (BlockAction W) :=
  [.call w c.call, .getProcessed w, .readStates w c.now, .commit w]

/-- The lanes and the symbol indexes. -/
structure BlockData where
  lanes : String → Option StoredLane
  index : String → String → Bool

/-- The keys of a connection as a versioned store. -/
def BlockRedis.toStore : Store BlockData String where
  data := ⟨redis.lanes, redis.index⟩
  version := redis.version
  done := redis.processed

/-- A close as an optimistic transaction: identified by its position, it reads the stored lanes of
its symbol and writes the changes decided from them. -/
def blockProtocol : Protocol BlockData String BlockCommit (String → Option StoredLane) where
  key c := c.call.position.id
  view c d := fun field =>
    if d.index (symbolKey c.call.position.symbol) field then d.lanes field else none
  effect c v d :=
    let changes := closeChanges c.call c.now v
    let symbol := symbolKey c.call.position.symbol
    { lanes := applyLaneChanges changes d.lanes
      index := update d.index symbol (applyIndexChanges changes (d.index symbol)) }

lemma BlockRedis.toStore_injective {r r' : BlockRedis} (h : r.toStore = r'.toStore) : r = r' := by
  cases r
  obtain ⟨⟨rfl, rfl⟩, rfl, rfl⟩ := h
  rfl

/-- The reply codes of `COMMIT_BLOCK_OUTCOME`. -/
def replyCode : Outcome → ℕ
  | .already => 2
  | .stale => 0
  | .committed => 1

/-- **The commit script implements the protocol**: offered changes decided from the view `v`, it
answers and writes what the protocol does. -/
lemma commitBlockOutcome_toStore (c : BlockCommit) (version : ℕ) (v : String → Option StoredLane) :
    let reply := commitBlockOutcome redis version (closeChanges c.call c.now v)
      (symbolKey c.call.position.symbol) c.call.position.id
    let outcome := blockProtocol.tryCommit redis.toStore c version v
    reply.1 = replyCode outcome.1 ∧ reply.2.toStore = outcome.2 := by
  intro reply outcome
  by_cases hp : redis.processed c.call.position.id = true
  · simp [reply, outcome, commitBlockOutcome, Protocol.tryCommit, blockProtocol,
      toStore, hp, replyCode]
  · by_cases hv : redis.version = version
    · simp [reply, outcome, commitBlockOutcome, Protocol.tryCommit, Protocol.commit, blockProtocol,
        toStore, hp, hv, replyCode]
    · simp [reply, outcome, commitBlockOutcome, Protocol.tryCommit, blockProtocol,
        toStore, hp, hv, replyCode]

/-! ### The invariant of a run -/

/-- A call that `updateBlockLifecycleForClose` carries through on the connection. -/
def ValidCall (conn : String) (call : CloseCall) : Prop :=
  call.position.connectionId = conn ∧ call.position.isSettledClose = true

/-- What holds of a worker between its steps: it carries a valid call, and changes that it is about
to commit were decided from a fresh snapshot. -/
def PhaseOk (conn : String) (redis : BlockRedis) : BlockPhase → Prop
  | .idle => True
  | .checking call _ => ValidCall conn call
  | .reading call _ => ValidCall conn call
  | .committing call _ version now changes =>
    ValidCall conn call ∧ ∃ v, changes = closeChanges call now v ∧
      blockProtocol.Fresh redis.toStore ⟨call, now⟩ version v

/-- The invariant of every run from `redis₀`. -/
structure BlockInvariant (conn : String) (redis₀ : BlockRedis) (s : BlockSystem W) : Prop where
  phase_ok : ∀ w, PhaseOk conn s.redis (s.phase w)
  valid : ∀ c ∈ s.commits, ValidCall conn c.call
  serial : blockProtocol.Serial redis₀.toStore s.redis.toStore s.commits

variable {conn : String} {s s' : BlockSystem W}

variable {redis₀ : BlockRedis} {a : BlockAction W}

/-- A step changes one phase, or commits a fresh call. -/
lemma blockStep_cases (hok : ∀ w, PhaseOk conn s.redis (s.phase w))
    (h : blockStep conn s a = some s') :
    (∃ w phase, s' = s.move w phase ∧ PhaseOk conn s.redis phase) ∨
      ∃ w call now version v redis', ValidCall conn call ∧
        blockProtocol.Fresh s.redis.toStore ⟨call, now⟩ version v ∧
        s.redis.processed call.position.id = false ∧ s.redis.version = version ∧
        redis'.toStore = blockProtocol.commit s.redis.toStore ⟨call, now⟩ v ∧
        s' = { redis := redis', phase := update s.phase w .idle,
               commits := s.commits ++ [⟨call, now⟩] } := by
  cases a with
  | call w call =>
    simp only [blockStep] at h
    split at h
    · split at h
      · rename_i hvalid
        exact .inl ⟨w, _, (some.inj h).symm, hvalid⟩
      · refine .inl ⟨w, s.phase w, ?_, hok w⟩
        simpa [BlockSystem.move] using (some.inj h).symm
    · cases h
  | getProcessed w =>
    simp only [blockStep] at h
    split at h
    · rename_i call attempt hw
      have hcall : ValidCall conn call := by simpa [hw, PhaseOk] using hok w
      split at h
      · exact .inl ⟨w, _, (some.inj h).symm, trivial⟩
      · exact .inl ⟨w, _, (some.inj h).symm, hcall⟩
    · cases h
  | readStates w now =>
    simp only [blockStep] at h
    split at h
    · rename_i call attempt hw
      have hcall : ValidCall conn call := by simpa [hw, PhaseOk] using hok w
      refine .inl ⟨w, _, (some.inj h).symm, hcall, _, rfl, ?_⟩
      exact blockProtocol.fresh_read s.redis.toStore ⟨call, now⟩
    · cases h
  | commit w =>
    simp only [blockStep] at h
    split at h
    · rename_i call attempt version now changes hw
      obtain ⟨hcall, v, rfl, hfresh⟩ : PhaseOk conn s.redis (.committing call attempt version now
          changes) := hw ▸ hok w
      obtain ⟨hcode, hstore⟩ := commitBlockOutcome_toStore s.redis ⟨call, now⟩ version v
      rcases blockProtocol.tryCommit_cases s.redis.toStore ⟨call, now⟩ version v with
        ⟨-, heq⟩ | ⟨-, -, heq⟩ | ⟨hnew, hver, heq⟩
      · rw [heq] at hcode
        simp only [replyCode] at hcode
        rw [if_neg (by simp [hcode]), if_pos hcode] at h
        exact .inl ⟨w, _, (some.inj h).symm, trivial⟩
      · rw [heq] at hcode
        simp only [replyCode] at hcode
        rw [if_neg (by simp [hcode]), if_neg (by simp [hcode])] at h
        split at h
        · exact .inl ⟨w, _, (some.inj h).symm, hcall⟩
        · exact .inl ⟨w, _, (some.inj h).symm, trivial⟩
      · rw [heq] at hcode hstore
        simp only [replyCode] at hcode
        rw [if_pos hcode] at h
        exact .inr ⟨w, call, now, version, v, _, hcall, hfresh, hnew, hver, hstore,
          (some.inj h).symm⟩
    · cases h

lemma PhaseOk.commit {redis redis' : BlockRedis} {phase : BlockPhase}
    (hok : PhaseOk conn redis phase) {c : BlockCommit} {version : ℕ}
    {v : String → Option StoredLane} (hnew : redis.processed c.call.position.id = false)
    (hver : redis.version = version)
    (hstore : redis'.toStore = blockProtocol.commit redis.toStore c v) :
    PhaseOk conn redis' phase := by
  cases phase with
  | idle => trivial
  | checking call attempt => exact hok
  | reading call attempt => exact hok
  | committing call attempt ver now changes =>
    obtain ⟨hcall, v', rfl, hfresh⟩ := hok
    refine ⟨hcall, v', rfl, ?_⟩
    have hoffer := hfresh.tryCommit c version v
    rcases blockProtocol.tryCommit_cases redis.toStore c version v with
      ⟨hdone, -⟩ | ⟨-, hne, -⟩ | ⟨-, -, heq⟩
    · exact absurd (hnew.symm.trans hdone) Bool.false_ne_true
    · exact absurd hver hne
    · rwa [heq, ← hstore] at hoffer

omit [DecidableEq W] in
lemma blockInvariant_start (conn : String) (redis₀ : BlockRedis) :
    BlockInvariant conn redis₀ (BlockSystem.start redis₀ : BlockSystem W) where
  phase_ok := fun _ => trivial
  valid := by simp [BlockSystem.start]
  serial := blockProtocol.serial_nil _

lemma blockInvariant_step (hI : BlockInvariant conn redis₀ s) (h : blockStep conn s a = some s') :
    BlockInvariant conn redis₀ s' := by
  rcases blockStep_cases hI.phase_ok h with
    ⟨w, phase, rfl, hph⟩ |
      ⟨w, call, now, version, v, redis', hcall, hfresh, hnew, hver, hstore, rfl⟩
  · refine ⟨fun w' => ?_, hI.valid, hI.serial⟩
    by_cases hw : w' = w
    · subst hw
      simpa [BlockSystem.move] using hph
    · simpa [BlockSystem.move, update_of_ne hw] using hI.phase_ok w'
  · refine ⟨fun w' => ?_, ?_, ?_⟩
    · by_cases hw : w' = w
      · subst hw
        simp [PhaseOk]
      · simpa only [update_of_ne hw] using (hI.phase_ok w').commit hnew hver hstore
    · intro c hc
      rcases mem_append.mp hc with hc | hc
      · exact hI.valid c hc
      · obtain rfl : c = ⟨call, now⟩ := by simpa using hc
        exact hcall
    · rw [hstore]
      exact hI.serial.commit hfresh hnew hver

lemma blockInvariant_run {acts : List (BlockAction W)} {t : BlockSystem W}
    (h : run (blockStep conn) (BlockSystem.start redis₀) acts = some t) :
    BlockInvariant conn redis₀ t :=
  invariant_of_step (fun _ _ _ hI hstep => blockInvariant_step hI hstep)
    (blockInvariant_start conn redis₀) h

/-! ### The serial run -/

variable (s)

@[simp] lemma BlockSystem.move_move (w : W) (p q : BlockPhase) :
    (s.move w p).move w q = s.move w q := by
  simp [BlockSystem.move]

@[simp] lemma BlockSystem.move_phase_self (w : W) (p : BlockPhase) :
    (s.move w p).phase w = p := by
  simp [BlockSystem.move]

@[simp] lemma BlockSystem.move_redis (w : W) (p : BlockPhase) :
    (s.move w p).redis = s.redis := rfl

variable {s}

lemma blockStep_commit {w : W} {call : CloseCall} {attempt version : ℕ} {now : ℚ}
    {changes : String → Option LaneChange}
    (hw : s.phase w = .committing call attempt version now changes)
    (hreply : (commitBlockOutcome s.redis version changes (symbolKey call.position.symbol)
      call.position.id).1 = 1) :
    blockStep conn s (.commit w) =
      some { redis := (commitBlockOutcome s.redis version changes
               (symbolKey call.position.symbol) call.position.id).2
             phase := update s.phase w .idle
             commits := s.commits ++ [⟨call, now⟩] } := by
  simp [blockStep, hw, hreply]

lemma run_closeAlone (w : W) (c : BlockCommit) (hcall : ValidCall conn c.call)
    (hidle : s.phase = fun _ => .idle) (hnew : s.redis.processed c.call.position.id = false) :
    ∃ redis', run (blockStep conn) s (closeAlone w c) =
        some { redis := redis', phase := fun _ => .idle, commits := s.commits ++ [c] } ∧
      redis'.toStore = blockProtocol.perform s.redis.toStore c := by
  let symbol := symbolKey c.call.position.symbol
  let read := readSymbolStates s.redis symbol
  let changes := closeChanges c.call c.now read.2
  let reply := commitBlockOutcome s.redis read.1 changes symbol c.call.position.id
  have hreply : reply.1 = 1 ∧ reply.2.toStore = blockProtocol.perform s.redis.toStore c := by
    obtain ⟨hcode, hstore⟩ := commitBlockOutcome_toStore s.redis c read.1 read.2
    rcases blockProtocol.tryCommit_cases s.redis.toStore c read.1 read.2 with
      ⟨hdone, -⟩ | ⟨-, hne, -⟩ | ⟨-, -, heq⟩
    · exact absurd (hnew.symm.trans hdone) Bool.false_ne_true
    · exact absurd rfl hne
    · rw [heq] at hcode
      exact ⟨hcode, hstore⟩
  have hcalle : blockStep conn s (.call w c.call) = some (s.move w (.checking c.call 0)) := by
    simp [blockStep, hidle, hcall.1, hcall.2]
  have hchec : blockStep conn (s.move w (.checking c.call 0)) (.getProcessed w) =
      some (s.move w (.reading c.call 0)) := by
    simp [blockStep, hnew]
  have hread : blockStep conn (s.move w (.reading c.call 0)) (.readStates w c.now) =
      some (s.move w (.committing c.call 0 read.1 c.now changes)) := by
    simp [blockStep, read, changes, symbol]
  have hcomm : blockStep conn (s.move w (.committing c.call 0 read.1 c.now changes)) (.commit w) =
      some { redis := reply.2, phase := fun _ => .idle, commits := s.commits ++ [c] } := by
    rw [blockStep_commit (s.move_phase_self w _) hreply.1]
    simp [BlockSystem.move, hidle, reply, symbol]
  refine ⟨reply.2, ?_, hreply.2⟩
  rw [closeAlone, run_cons, hcalle, bind_some, run_cons, hchec, bind_some,
    run_cons, hread, bind_some, run_singleton, hcomm]

lemma run_closesAlone (w : W) {log : List BlockCommit} (hvalid : ∀ c ∈ log, ValidCall conn c.call)
    (hnodup : (log.map blockProtocol.key).Nodup)
    (hnew : ∀ c ∈ log, s.redis.processed c.call.position.id = false)
    (hidle : s.phase = fun _ => .idle) :
    ∃ t : BlockSystem W, run (blockStep conn) s (log.flatMap (closeAlone w)) = some t ∧
      t.redis.toStore = log.foldl blockProtocol.perform s.redis.toStore := by
  induction log generalizing s with
  | nil => exact ⟨s, rfl, rfl⟩
  | cons c log ih =>
    rw [map_cons, nodup_cons] at hnodup
    obtain ⟨redis', hrun, hstore⟩ := run_closeAlone w c (hvalid c mem_cons_self) hidle
      (hnew c mem_cons_self)
    -- the ids still to come differ from the one just committed, so they are unprocessed
    have hnext : ∀ c' ∈ log, redis'.processed c'.call.position.id = false := by
      intro c' hc'
      have hne : c'.call.position.id ≠ c.call.position.id := fun heq =>
        hnodup.1 (mem_map.mpr ⟨c', hc', heq⟩)
      have hdone : redis'.processed = update s.redis.processed c.call.position.id true := by
        have hnewc := hnew c mem_cons_self
        have := congrArg Store.done hstore
        simpa [Protocol.perform, Protocol.tryCommit, Protocol.commit, blockProtocol,
          toStore, hnewc] using this
      rw [hdone, update_of_ne hne]
      exact hnew c' (mem_cons_of_mem c hc')
    obtain ⟨t, htrun, htstor⟩ := ih (fun c' hc' => hvalid c' (mem_cons_of_mem c hc'))
      hnodup.2 (s := ⟨redis', fun _ => .idle, s.commits ++ [c]⟩) hnext rfl
    refine ⟨t, ?_, ?_⟩
    · exact run_append_of_eq_some hrun htrun
    · rw [htstor, foldl_cons, ← hstore]

/-- **Block outcome commit is exactly-once and serialisable.**  In every
interleaving a step leaves lanes and indexes alone unless it commits one close, no position id is
committed twice or after it was processed, and the keys at the end are those of the committed closes
performed one after the other. -/
theorem blockOutcome_serializable (conn : String) (redis₀ : BlockRedis)
    (acts : List (BlockAction W)) (t : BlockSystem W)
    (h : run (blockStep conn) (BlockSystem.start redis₀) acts = some t) :
    (∀ as a bs s s', acts = as ++ a :: bs → run (blockStep conn) (.start redis₀) as = some s →
      blockStep conn s a = some s' →
        (s'.redis = s.redis ∧ s'.commits = s.commits) ∨ ∃ c, s'.commits = s.commits ++ [c]) ∧
      (t.commits.map fun c => c.call.position.id).Nodup ∧
      (∀ c ∈ t.commits, redis₀.processed c.call.position.id = false) ∧
      ∀ w : W, ∃ u, run (blockStep conn) (BlockSystem.start redis₀)
        (t.commits.flatMap (closeAlone w)) = some u ∧ u.redis = t.redis := by
  have hI := blockInvariant_run h
  refine ⟨?_, hI.serial.keys_nodup, hI.serial.not_done, fun w => ?_⟩
  · intro as a bs s s' hacts hs hstep
    rcases blockStep_cases (blockInvariant_run hs).phase_ok hstep with
      ⟨w, phase, rfl, -⟩ | ⟨w, call, now, version, v, redis', -, -, -, -, -, rfl⟩
    · exact .inl ⟨rfl, rfl⟩
    · exact .inr ⟨⟨call, now⟩, rfl⟩
  · obtain ⟨u, hrun, hstore⟩ := run_closesAlone w hI.valid hI.serial.keys_nodup
      (s := BlockSystem.start redis₀) hI.serial.not_done rfl
    refine ⟨u, hrun, toStore_injective ?_⟩
    rw [hstore, hI.serial.store_eq]
    rfl

/-- A settled loss on `BTC-USDT` with one leg of Count 3. -/
def sampleClose : CloseCall where
  position :=
    { connectionId := "x02", id := "p1", symbol := "BTC-USDT", direction := some "long"
      side := none, status := "closed", realizedPnL := some (-1), realizedPnlComplete := some true
      pnlAccountingComplete := none, setKey := some "btc:a", parentSetKey := none
      accumulatedSetKeys := []
      blockLegs := [{ setKey := some "btc:a#block:3", lifecycleKey := none, blockCount := some 3
                      quantity := some 1, entryPrice := none, incrementSteps := some 2
                      effectiveIncrementStep := some 1, pauseCount := some 3
                      targetSatisfied := some true, addedAt := none }]
      totalExecutedQuantity := some 1, quantity := some 1, averageExecutionPrice := some 10
      entryPrice := some 10, partialOrderExecutions := [], market := .crypto }
  activeSetKeys := []

/-- Two workers deliver the same close and read the same version before either commits. -/
def duplicateDelivery : List (BlockAction Bool) :=
  [.call true sampleClose, .call false sampleClose, .getProcessed true, .getProcessed false,
    .readStates true 5, .readStates false 6, .commit true, .commit false]

theorem blockOutcome_serializable_duplicateDelivery : ∃ t : BlockSystem Bool,
      run (blockStep "x02") (.start ⟨fun _ => none, fun _ _ => false, 0, fun _ => false⟩)
        duplicateDelivery = some t ∧
      t.commits.length = 1 ∧ (t.commits.map fun c => c.call.position.id).Nodup := by
  obtain ⟨t, ht, hlen⟩ : ∃ t : BlockSystem Bool,
      run (blockStep "x02") (.start ⟨fun _ => none, fun _ _ => false, 0, fun _ => false⟩)
        duplicateDelivery = some t ∧ t.commits.length = 1 := by
    decide
  exact ⟨t, ht, hlen, (blockOutcome_serializable "x02" _ duplicateDelivery t ht).2.1⟩

end CtsEngine
