import CtsEngine.LiveWal.Entries
import CtsEngine.Transition.Runs

/-!
# Checkpoints of live positions

`persistLivePositionCheckpointIfChanged` journals a position unless its fingerprint is the one that
is remembered for it.  A fingerprint is remembered before its write and forgotten when the write
returns `false`.  The entries of one turn of the event loop are one batch, with the newest entry of
each position, and the batches are written one after the other.

A position does not change while its call is under way.  The store is the inline one, and a record
counts as written when its batch is; what a compaction drops later is not followed here.
-/

namespace CtsEngine.LiveWal

open Option List Keyed Function Transition
open JsonText (Value)
open Transition (run Meets)

/-! ## The fingerprint -/

section Fingerprint

variable (position : Fields)

/-- `String(position[name] || "")`. -/
def textOf (value : Option (Value Double)) : String :=
  ((firstTruthy [value]).map jsString).getD ""

/-- `Number(position[name] || 0)`, as it stands in a joined text. -/
def numberOf (name : String) : String :=
  String.ofList (doubleText (((firstTruthy [jsField position name]).map jsNumber).getD (.finite 0)))

/-- `position[name] || []`. -/
def arrayOf (name : String) : List (Value Double) :=
  match jsField position name with
  | some (.array values) => values
  | _ => []

/-- `value ? JSON.stringify(value) : ""`. -/
def jsonOf (value : Option (Value Double)) : String :=
  ((firstTruthy [value]).map fun value => String.ofList (stringify value)).getD ""

/-- `livePositionDurabilityFingerprint`. -/
def livePositionDurabilityFingerprint : String :=
  let accumulated := arrayOf position "accumulatedSetKeys"
  let blockLegs := arrayOf position "blockLegs"
  let dcaLegs := arrayOf position "dcaLegs"
  let partials := arrayOf position "partialOrderExecutions"
  "|".intercalate [textOf (jsField position "status"), numberOf position "quantity",
      numberOf position "executedQuantity",
      numberOf position "totalExecutedQuantity",
      numberOf position "closedQuantity",
      numberOf position "remainingQuantity",
      toString accumulated.length,
      textOf accumulated.getLast?,
      toString (arrayOf position "fills").length,
      toString blockLegs.length,
      jsonOf blockLegs.getLast?,
      toString dcaLegs.length,
      jsonOf dcaLegs.getLast?,
      toString partials.length,
      jsonOf partials.getLast?,
      jsonOf (jsField position "pendingAccumulation"),
      jsonOf (jsField position "pendingReduction"),
      jsonOf (jsField position "pendingSystemAction"),
      jsonOf (jsField position "systemCloseRetry"),
      jsonOf (jsField position "pendingQuantityMutation")]

/-- `${value}` of a field. -/
def template (name : String) : String :=
  ((jsField position name).map jsString).getD "undefined"

/-- The key under which the fingerprint of a position is remembered. -/
def durabilityKey : String := template position "connectionId" ++ ":" ++ template position "id"

/-- The connection and the id under which the journal has a position. -/
def checkpointKey : String × String :=
  (idText [jsField position "connectionId", jsField position "connection_id"],
    idText [jsField position "id"])

end Fingerprint

/-! ## The process -/

/-- `LIVE_POSITION_DURABILITY_FINGERPRINT_LIMIT`. -/
def livePositionDurabilityFingerprintLimit : ℕ := 2048

/-- Remember a fingerprint, and forget the oldest one when there are too many. -/
def remember (fingerprints : List (String × String)) (key fingerprint : String) :
    List (String × String) :=
  let remembered := put fingerprints key fingerprint
  if livePositionDurabilityFingerprintLimit < remembered.length then remembered.tail else remembered

/-- Forget the fingerprint of a key, if it is still this one. -/
def forget (fingerprints : List (String × String)) (key fingerprint : String) :
    List (String × String) :=
  if get? fingerprints key = some fingerprint then fingerprints.filter (·.1 ≠ key)
  else fingerprints

/-- Where a call stands. -/
inductive CallPhase
  /-- It returned at once. -/
  | answered
  /-- It has remembered its fingerprint, and its entry is not in a batch yet. -/
  | starting
  /-- It waits for its batch. -/
  | waiting
  /-- Its write has returned. -/
  | returned (persisted : Bool)
  /-- Its write ended in an exception, and so did the call. -/
  | thrown
  | resolved
  /-- It threw because nothing was persisted. -/
  | failed
deriving DecidableEq

/-- `__redis_live_position_wal_pending`: the calls whose entries are written, by the key of the
position, and all the calls that wait for the write. -/
structure WalBatch where
  entries : List ((String × String) × ℕ) := []
  callers : List ℕ := []

/-- The calls of a process and its journal.  A call is named by its number. -/
structure WalProcess where
  /-- What the calls were given. -/
  positions : List Fields := []
  phase : ℕ → CallPhase := fun _ => .starting
  /-- `livePositionDurabilityFingerprints`. -/
  fingerprints : List (String × String) := []
  pending : WalBatch := {}
  /-- The batches that are to be written, the first one first. -/
  batches : List WalBatch := []
  /-- The calls whose entries have been written. -/
  journal : List ℕ := []

/-- A single step. -/
inductive WalEvent
  /-- A call of `persistLivePositionCheckpointIfChanged`. -/
  | call (position : Fields)
  /-- The entry of a call is put into the pending batch.  The calls do this in their order. -/
  | join (i : ℕ)
  /-- The write of a call returns `false` before that: there is no path for the journal. -/
  | refuse (i : ℕ)
  /-- The write of a call throws. -/
  | throw (i : ℕ)
  /-- The pending batch is queued. -/
  | flush
  /-- The first batch has been written, or no path could be written. -/
  | endBatch (written : Bool)
  /-- A call goes on after its write. -/
  | resume (i : ℕ)

namespace WalProcess

variable (s : WalProcess)

/-- A call moves on. -/
def become (i : ℕ) (phase : CallPhase) : WalProcess :=
  { s with phase := update s.phase i phase }

/-- A call of `persistLivePositionCheckpointIfChanged`, up to its write. -/
def persistLivePositionCheckpointIfChanged (position : Fields) : WalProcess :=
  let fingerprint := livePositionDurabilityFingerprint position
  let key := durabilityKey position
  let called := { s with positions := s.positions ++ [position] }
  if get? s.fingerprints key = some fingerprint then called.become s.positions.length .answered
  else
    { called.become s.positions.length .starting with
      fingerprints := remember s.fingerprints key fingerprint }

/-- `persistLivePositionCheckpoint`, up to the batch. -/
def persistLivePositionCheckpoint (i : ℕ) (position : Fields) : WalProcess :=
  if (checkpointKey position).1 = "" ∨ (checkpointKey position).2 = "" then
    s.become i (.returned false)
  else
    { s.become i .waiting with
      pending :=
        { entries := put s.pending.entries (checkpointKey position) i
          callers := s.pending.callers ++ [i] } }

def endBatch (batch : WalBatch) (rest : List WalBatch) (written : Bool) : WalProcess :=
  { s with
    phase := fun i => if i ∈ batch.callers then .returned written else s.phase i
    batches := rest
    journal := if written then s.journal ++ batch.entries.map Prod.snd else s.journal }

/-- The rest of a call whose write returned `false`. -/
def fail (i : ℕ) (position : Fields) : WalProcess :=
  { s.become i .failed with
    fingerprints := forget s.fingerprints (durabilityKey position)
      (livePositionDurabilityFingerprint position) }

end WalProcess

/-- A step, if it is enabled. -/
def walStep (s : WalProcess) : WalEvent → Option WalProcess
  | .call position => some (s.persistLivePositionCheckpointIfChanged position)
  | .join i =>
    match s.positions[i]? with
    | some position =>
      if s.phase i = .starting ∧ ∀ j < i, s.phase j ≠ .starting then
        some (s.persistLivePositionCheckpoint i position)
      else none
    | none => none
  | .refuse i =>
    if i < s.positions.length ∧ s.phase i = .starting then some (s.become i (.returned false))
    else none
  | .throw i =>
    if i < s.positions.length ∧ s.phase i = .starting then some (s.become i .thrown) else none
  | .flush =>
    if s.pending.callers = [] then none
    else some { s with pending := {}, batches := s.batches ++ [s.pending] }
  | .endBatch written =>
    match s.batches with
    | [] => none
    | batch :: rest => some (s.endBatch batch rest written)
  | .resume i =>
    match s.positions[i]?, s.phase i with
    | some _, .returned true => some (s.become i .resolved)
    | some position, .returned false => some (s.fail i position)
    | _, _ => none

namespace WalProcess

variable (s t : WalProcess)

/-- The journal has a record of the position of a call with its fingerprint, or one of a later
call. -/
def Durable (i : ℕ) : Prop :=
  ∃ p, s.positions[i]? = some p ∧ ∃ j ∈ s.journal, ∃ q, s.positions[j]? = some q ∧
    checkpointKey q = checkpointKey p ∧
      (livePositionDurabilityFingerprint q = livePositionDurabilityFingerprint p ∨ i ≤ j)

/-- Every call that has resolved is durable. -/
def ResolvedDurable : Prop :=
  ∀ i < s.positions.length, s.phase i = .answered ∨ s.phase i = .resolved → s.Durable i

/-- A call was given this position and began a write. -/
def Writes (i : ℕ) (position : Fields) : Prop :=
  s.positions[i]? = some position ∧ s.phase i ≠ .answered

/-- The write of a call has succeeded. -/
def HasWritten (i : ℕ) : Prop := s.phase i = .returned true ∨ s.phase i = .resolved

/-- Of the writes that began under the key of a position or for the position, the last one is both,
and it has succeeded. -/
def Confirmed (position : Fields) : Prop :=
  ∃ m p, s.Writes m p ∧ durabilityKey p = durabilityKey position ∧
    checkpointKey p = checkpointKey position ∧ s.HasWritten m ∧ ∀ j q, s.Writes j q →
        durabilityKey q = durabilityKey position ∨ checkpointKey q = checkpointKey position → j ≤ m

end WalProcess

/-- A call that is answered from a remembered fingerprint is confirmed. -/
def AnsweredConfirmed (s : WalProcess) : WalEvent → Prop
  | .call position =>
    get? s.fingerprints (durabilityKey position) =
      some (livePositionDurabilityFingerprint position) → s.Confirmed position
  | _ => True

/-! ## The invariant -/

namespace WalProcess

/-- Every caller of a batch has an entry of its position in it, its own or that of a later call. -/
structure Queued (s : WalProcess) (batch : WalBatch) : Prop where
  covered : ∀ i ∈ batch.callers, ∃ p, s.positions[i]? = some p ∧
    ∃ j, get? batch.entries (checkpointKey p) = some j ∧ i ≤ j
  begun : ∀ i ∈ batch.callers, s.phase i ≠ .answered ∧ s.phase i ≠ .starting
  entries : ∀ entry ∈ batch.entries, entry.2 ∈ batch.callers ∧
    ∃ p, s.positions[entry.2]? = some p ∧ checkpointKey p = entry.1

/-- A remembered fingerprint is that of the last write under its key, which has not failed. -/
def Remembers (s : WalProcess) (entry : String × String) : Prop :=
  ∃ m p, s.Writes m p ∧ durabilityKey p = entry.1 ∧
    livePositionDurabilityFingerprint p = entry.2 ∧ s.phase m ≠ .failed ∧
      ∀ j q, s.Writes j q → durabilityKey q = entry.1 → j ≤ m

/-- The journal has a record of the position of a call, its own or that of a later call. -/
def Covered (s : WalProcess) (i : ℕ) : Prop :=
  ∃ p, s.positions[i]? = some p ∧ ∃ j ∈ s.journal, ∃ q, s.positions[j]? = some q ∧
    checkpointKey q = checkpointKey p ∧ i ≤ j

/-- What holds in every state that is reached. -/
structure Invariant (s : WalProcess) : Prop where
  unique : KeysUnique s.fingerprints
  remembered : ∀ entry ∈ s.fingerprints, s.Remembers entry
  pending : s.Queued s.pending
  inOrder : ∀ i ∈ s.pending.callers, ∀ j ≤ i, s.phase j ≠ .starting
  batches : ∀ batch ∈ s.batches, s.Queued batch
  journal : ∀ j ∈ s.journal, ∃ q, s.Writes j q
  written : ∀ i, s.HasWritten i → s.Covered i
  answered : ∀ i < s.positions.length, s.phase i = .answered → s.Durable i

variable {s t : WalProcess} {i : ℕ} {position : Fields} {phase : CallPhase} {batch : WalBatch}
  {rest : List WalBatch} {entry : String × String} {fingerprint : String}
  {fingerprints : List (String × String)}

@[simp] lemma phase_become_self : (s.become i phase).phase i = phase := update_self ..

lemma phase_become_of_ne {j : ℕ} (h : j ≠ i) : (s.become i phase).phase j = s.phase j :=
  update_of_ne h ..

lemma Covered.durable (h : s.Covered i) : s.Durable i := by
  obtain ⟨p, hp, j, hj, q, hq, hkey, hle⟩ := h
  exact ⟨p, hp, j, hj, q, hq, hkey, .inr hle⟩

lemma Invariant.resolvedDurable (h : s.Invariant) : s.ResolvedDurable := by
  rintro i hi (hphase | hphase)
  · exact h.answered i hi hphase
  · exact (h.written i (.inr hphase)).durable

/-- The calls are those of before and perhaps new ones, and none of them is back at its start. -/
structure Follows (s t : WalProcess) : Prop where
  positions : s.positions <+: t.positions
  answered : ∀ i < s.positions.length, t.phase i = .answered ↔ s.phase i = .answered
  starting : ∀ i < s.positions.length, t.phase i = .starting → s.phase i = .starting
  journal : s.journal <+: t.journal

section Follows

variable (hf : s.Follows t)
include hf

lemma Follows.at {p : Fields} (h : s.positions[i]? = some p) :
    i < s.positions.length ∧ t.positions[i]? = some p := by
  obtain ⟨new, hnew⟩ := hf.positions
  have hlt : i < s.positions.length := (List.getElem?_eq_some_iff.mp h).1
  rw [← hnew, getElem?_append_left hlt]
  exact ⟨hlt, h⟩

lemma Follows.writes {q : Fields} (h : s.Writes i q) : t.Writes i q := by
  obtain ⟨hlt, hat⟩ := hf.at h.1
  exact ⟨hat, (hf.answered i hlt).not.mpr h.2⟩

lemma Follows.writes_cases {q : Fields} (h : t.Writes i q) :
    s.Writes i q ∨ s.positions.length ≤ i := by
  rcases Nat.lt_or_ge i s.positions.length with hlt | hge
  · obtain ⟨new, hnew⟩ := hf.positions
    rw [Writes, ← hnew, getElem?_append_left hlt, Ne, hf.answered i hlt] at h
    exact .inl h
  · exact .inr hge

lemma Follows.queued (h : s.Queued batch) : t.Queued batch where
  covered i hi := by
    obtain ⟨p, hp, hentry⟩ := h.covered i hi
    exact ⟨p, (hf.at hp).2, hentry⟩
  begun i hi := by
    obtain ⟨p, hp, -⟩ := h.covered i hi
    have hlt := (hf.at hp).1
    exact ⟨(hf.answered i hlt).not.mpr (h.begun i hi).1, fun hstart =>
      (h.begun i hi).2 (hf.starting i hlt hstart)⟩
  entries entry hentry := by
    obtain ⟨hcaller, p, hp, hkey⟩ := h.entries entry hentry
    exact ⟨hcaller, p, (hf.at hp).2, hkey⟩

/-- A fingerprint stays remembered when its write does not fail and no other one begins under its
key. -/
lemma Follows.remembers (h : s.Remembers entry)
    (hfail : ∀ m p, s.Writes m p → durabilityKey p = entry.1 →
      livePositionDurabilityFingerprint p = entry.2 → s.phase m ≠ .failed → t.phase m ≠ .failed)
    (hnew : ∀ j q, t.Writes j q → s.positions.length ≤ j → durabilityKey q ≠ entry.1) :
    t.Remembers entry := by
  obtain ⟨m, p, hwrites, hkey, hfing, hphase, hlast⟩ := h
  refine ⟨m, p, hf.writes hwrites, hkey, hfing, hfail m p hwrites hkey hfing hphase, ?_⟩
  intro j q hj hq
  rcases hf.writes_cases hj with hold | hge
  · exact hlast j q hold hq
  · exact absurd hq (hnew j q hj hge)

lemma Follows.covered (h : s.Covered i) : t.Covered i := by
  obtain ⟨p, hp, j, hj, q, hq, h⟩ := h
  exact ⟨p, (hf.at hp).2, j, hf.journal.subset hj, q, (hf.at hq).2, h⟩

lemma Follows.durable (h : s.Durable i) : t.Durable i := by
  obtain ⟨p, hp, j, hj, q, hq, h⟩ := h
  exact ⟨p, (hf.at hp).2, j, hf.journal.subset hj, q, (hf.at hq).2, h⟩

/-- What a step has to show beside `Follows`: the pending batch apart, only what is new. -/
lemma Follows.invariant (h : s.Invariant) (hunique : KeysUnique t.fingerprints)
    (hrem : ∀ entry ∈ t.fingerprints, t.Remembers entry)
    (hpend : t.pending = s.pending ∨ t.pending = {})
    (hbatches : ∀ batch ∈ t.batches, batch ∈ s.batches ∨ batch = s.pending)
    (hjournal : ∀ j ∈ t.journal, j ∈ s.journal ∨ ∃ q, t.Writes j q)
    (hwritten : ∀ i, t.HasWritten i → s.HasWritten i ∨ t.Covered i)
    (hnew : ∀ i < t.positions.length, s.positions.length ≤ i → t.phase i = .answered →
      t.Durable i) : t.Invariant where
  unique := hunique
  remembered := hrem
  pending := by
    rcases hpend with hpend | hpend <;> rw [hpend]
    · exact hf.queued h.pending
    · exact ⟨nofun, nofun, nofun⟩
  inOrder i hi j hj hstart := by
    rcases hpend with hpend | hpend <;> rw [hpend] at hi
    · obtain ⟨p, hp, -⟩ := h.pending.covered i hi
      exact h.inOrder i hi j hj (hf.starting j (hj.trans_lt (hf.at hp).1) hstart)
    · cases hi
  batches batch hbatch := hf.queued ((hbatches batch hbatch).elim (h.batches batch) fun heq =>
    heq ▸ h.pending)
  journal j hj := (hjournal j hj).elim (fun hold => (h.journal j hold).imp fun _ => hf.writes) id
  written i hi := (hwritten i hi).elim (fun hold => hf.covered (h.written i hold)) id
  answered i hi hans := by
    rcases Nat.lt_or_ge i s.positions.length with hlt | hge
    · exact hf.durable (h.answered i hlt ((hf.answered i hlt).mp hans))
    · exact hnew i hi hge hans

end Follows

/-! ### The steps -/

section

variable (h : s.Invariant)

include h

/-- A call moves on; when it fails, its own fingerprint is not remembered any more. -/
lemma Invariant.move (hsub : fingerprints <+ s.fingerprints)
    (hphase : s.phase i ≠ .answered) (hans : phase ≠ .answered) (hstart : phase ≠ .starting)
    (hwritten : phase = .returned true ∨ phase = .resolved → s.HasWritten i)
    (hfail : phase = .failed → ∀ p, s.positions[i]? = some p →
      (durabilityKey p, livePositionDurabilityFingerprint p) ∉ fingerprints) :
    Invariant { s.become i phase with fingerprints := fingerprints } := by
  have hf : s.Follows { s.become i phase with fingerprints := fingerprints } := by
    refine ⟨prefix_rfl, fun j _ => ?_, fun j _ hj => ?_, prefix_rfl⟩ <;> by_cases hji : j = i
    · subst hji
      simp only [phase_become_self, hphase, hans]
    · rw [phase_become_of_ne hji]
    · subst hji
      exact absurd (phase_become_self.symm.trans hj) hstart
    · rwa [phase_become_of_ne hji] at hj
  refine hf.invariant h (h.unique.sublist (hsub.map _)) (fun entry hentry => ?_) (.inl rfl)
    (fun _ => .inl) (fun _ => .inl) (fun j hj => .inl ?_) (fun j hlt hge => absurd hlt hge.not_gt)
  · refine hf.remembers (h.remembered entry (hsub.subset hentry)) ?_ fun j q hj hge =>
      absurd (List.getElem?_eq_some_iff.mp hj.1).1 hge.not_gt
    intro m p hm hkey hfing hnot
    by_cases hmi : m = i
    · subst hmi
      intro hfailed
      exact hfail (phase_become_self.symm.trans hfailed) p hm.1 (by rwa [hkey, hfing])
    · exact (phase_become_of_ne hmi).trans_ne hnot
  · by_cases hji : j = i
    · subst hji
      exact hwritten (hj.imp phase_become_self.symm.trans phase_become_self.symm.trans)
    · exact hj.imp (phase_become_of_ne hji).symm.trans (phase_become_of_ne hji).symm.trans

lemma Invariant.become (hphase : s.phase i ≠ .answered) (hans : phase ≠ .answered)
    (hstart : phase ≠ .starting) (hfail : phase ≠ .failed)
    (hwritten : phase = .returned true ∨ phase = .resolved → s.HasWritten i) :
    (s.become i phase).Invariant :=
  h.move (Sublist.refl _) hphase hans hstart hwritten fun hfailed => absurd hfailed hfail

lemma Invariant.fail (hat : s.positions[i]? = some position)
    (hphase : s.phase i = .returned false) : (s.fail i position).Invariant := by
  refine h.move ?_ (hphase ▸ nofun) nofun nofun nofun fun _ p hp hmem => ?_
  · unfold forget
    split_ifs
    · exact filter_sublist
    · exact Sublist.refl _
  · obtain rfl := some.inj (hat.symm.trans hp)
    unfold forget at hmem
    split_ifs at hmem with hget
    · exact of_decide_eq_true (mem_filter.mp hmem).2 rfl
    · exact hget (get?_of_mem h.unique hmem)

lemma Invariant.enqueue (hat : s.positions[i]? = some position)
    (hphase : s.phase i = .waiting) (hbefore : ∀ j ≤ i, s.phase j ≠ .starting)
    (hlast : ∀ entry ∈ s.pending.entries, entry.2 ≤ i) :
    Invariant { s with
      pending :=
        { entries := put s.pending.entries (checkpointKey position) i
          callers := s.pending.callers ++ [i] } } where
  unique := h.unique
  remembered := h.remembered
  batches batch hbatch :=
    Follows.queued (s := s) ⟨prefix_rfl, fun _ _ => .rfl, fun _ _ => id, prefix_rfl⟩
      (h.batches batch hbatch)
  journal := h.journal
  written := h.written
  answered := h.answered
  inOrder := forall_mem_append.mpr ⟨h.inOrder, forall_mem_singleton.mpr hbefore⟩
  pending :=
    { covered := by
        refine forall_mem_append.mpr ⟨fun k hk => ?_, forall_mem_singleton.mpr ?_⟩
        · obtain ⟨p, hp, j, hj, hle⟩ := h.pending.covered k hk
          refine ⟨p, hp, ?_⟩
          by_cases hkey : checkpointKey p = checkpointKey position
          · refine ⟨i, ?_, hle.trans (hlast _ (mem_of_get? hj))⟩
            rw [hkey, get?_put_self]
          · exact ⟨j, (get?_put_of_ne _ i hkey).trans hj, hle⟩
        · exact ⟨position, hat, i, get?_put_self .., le_rfl⟩
      begun := forall_mem_append.mpr
        ⟨h.pending.begun, forall_mem_singleton.mpr ⟨hphase ▸ nofun, hphase ▸ nofun⟩⟩
      entries := by
        intro entry hentry
        rcases mem_put hentry with rfl | hold
        · exact ⟨mem_append_right _ mem_cons_self, position, hat, rfl⟩
        · exact (h.pending.entries entry hold).imp_left (mem_append_left _) }

lemma Invariant.join (hat : s.positions[i]? = some position)
    (hphase : s.phase i = .starting) (hbefore : ∀ j < i, s.phase j ≠ .starting) :
    (s.persistLivePositionCheckpoint i position).Invariant := by
  have hbegun : s.phase i ≠ .answered := hphase ▸ nofun
  unfold persistLivePositionCheckpoint
  split_ifs
  · exact h.become hbegun nofun nofun nofun nofun
  · have hnext : (s.become i .waiting).Invariant := h.become hbegun nofun nofun nofun nofun
    refine hnext.enqueue hat phase_become_self (fun j hj => ?_) fun entry hentry => ?_
    · rcases hj.lt_or_eq with hlt | rfl
      · exact (phase_become_of_ne hlt.ne).trans_ne (hbefore j hlt)
      · exact phase_become_self.trans_ne nofun
    · -- the entries of the pending batch are of calls that are past their start
      by_contra hlt
      exact h.inOrder entry.2 (h.pending.entries entry hentry).1 i (not_le.mp hlt).le hphase

lemma Invariant.flush : Invariant { s with pending := {}, batches := s.batches ++ [s.pending] } :=
  Follows.invariant (s := s) ⟨prefix_rfl, fun _ _ => .rfl, fun _ _ => id, prefix_rfl⟩ h h.unique
    h.remembered (.inr rfl) (fun _ hbatch => (mem_append.mp hbatch).imp_right mem_singleton.mp)
    (fun _ => .inl) (fun _ => .inl) (fun _ hlt hge => absurd hlt hge.not_gt)

lemma Invariant.endBatch (hbatches : s.batches = batch :: rest)
    (written : Bool) : (s.endBatch batch rest written).Invariant := by
  have hqueue : s.Queued batch := h.batches batch (hbatches ▸ mem_cons_self)
  have hcaller : ∀ j ∈ batch.callers,
      (s.endBatch batch rest written).phase j = .returned written := fun _ hj => if_pos hj
  have hother : ∀ j ∉ batch.callers, (s.endBatch batch rest written).phase j = s.phase j :=
    fun _ hj => if_neg hj
  have hf : s.Follows (s.endBatch batch rest written) := by
    refine ⟨prefix_rfl, fun j _ => ?_, fun j _ hj => ?_, ?_⟩
    · by_cases hmem : j ∈ batch.callers
      · simp only [hcaller j hmem, (hqueue.begun j hmem).1, reduceCtorEq]
      · rw [hother j hmem]
    · by_cases hmem : j ∈ batch.callers
      · cases (hcaller j hmem).symm.trans hj
      · exact (hother j hmem).symm.trans hj
    · cases written
      · exact prefix_rfl
      · exact prefix_append ..
  refine hf.invariant h h.unique (fun entry hentry => ?_) (.inl rfl)
    (fun other hmem => .inl (hbatches ▸ mem_cons_of_mem _ hmem)) (fun j hj => ?_) (fun j hj => ?_)
    (fun _ hlt hge => absurd hlt hge.not_gt)
  · refine hf.remembers (h.remembered entry hentry) (fun m p _ _ _ hnot => ?_) fun j q hj hge =>
      absurd (List.getElem?_eq_some_iff.mp hj.1).1 hge.not_gt
    by_cases hmem : m ∈ batch.callers
    · exact (hcaller m hmem).trans_ne nofun
    · exact (hother m hmem).trans_ne hnot
  · cases written
    · exact .inl hj
    · refine (mem_append.mp hj).imp_right fun hnew => ?_
      obtain ⟨entry, hentry, rfl⟩ := mem_map.mp hnew
      obtain ⟨hmem, q, hq, -⟩ := hqueue.entries entry hentry
      exact ⟨q, hf.writes ⟨hq, (hqueue.begun _ hmem).1⟩⟩
  · by_cases hmem : j ∈ batch.callers
    · cases written
      · rcases hj with hj | hj <;> cases (hcaller j hmem).symm.trans hj
      · obtain ⟨p, hp, k, hk, hle⟩ := hqueue.covered j hmem
        have hentry := mem_of_get? hk
        obtain ⟨-, q, hq, hkey⟩ := hqueue.entries _ hentry
        exact .inr ⟨p, hp, k, mem_append_right _ (mem_map_of_mem hentry), q, hq, hkey, hle⟩
    · exact .inl (hj.imp (hother j hmem).symm.trans (hother j hmem).symm.trans)

end

/-- The journal has the fingerprint of this position. -/
def Holds (s : WalProcess) (position : Fields) : Prop :=
  ∃ m ∈ s.journal, ∃ p, s.positions[m]? = some p ∧ checkpointKey p = checkpointKey position ∧
    livePositionDurabilityFingerprint p = livePositionDurabilityFingerprint position

/-- The record of a confirmed write is its own: no write for the position is later. -/
lemma Invariant.holds_of_confirmed (h : s.Invariant) (hconf : s.Confirmed position)
    (hget : get? s.fingerprints (durabilityKey position) =
      some (livePositionDurabilityFingerprint position)) : s.Holds position := by
  obtain ⟨m, p, hwrites, hkey, hcheck, hwritten, hlast⟩ := hconf
  obtain ⟨k, q, hq, hqkey, hfing, -, hqlast⟩ := h.remembered _ (mem_of_get? hget)
  obtain rfl : m = k := le_antisymm (hqlast m p hwrites hkey) (hlast k q hq (.inl hqkey))
  obtain rfl : p = q := some.inj (hwrites.1.symm.trans hq.1)
  obtain ⟨p', hp', j, hj, r, hr, hrkey, hle⟩ := h.written m hwritten
  obtain rfl : p = p' := some.inj (hwrites.1.symm.trans hp')
  obtain ⟨r', hr'⟩ := h.journal j hj
  obtain rfl : r = r' := some.inj (hr.symm.trans hr'.1)
  obtain rfl : j = m := le_antisymm (hlast j r hr' (.inr (hrkey.trans hcheck))) hle
  exact ⟨j, hj, p, hwrites.1, hcheck, hfing⟩

/-- One more call.  What is remembered is its own fingerprint, or was remembered before and the call
writes nothing under that key. -/
lemma Invariant.extend (h : s.Invariant) (hunique : KeysUnique fingerprints)
    (hrem : ∀ entry ∈ fingerprints,
      entry ∈ s.fingerprints ∧ (phase = .answered ∨ entry.1 ≠ durabilityKey position) ∨
        phase = .starting ∧
          entry = (durabilityKey position, livePositionDurabilityFingerprint position))
    (hnew : phase = .starting ∨ phase = .answered ∧ s.Holds position) :
    Invariant { s.become s.positions.length phase with
      positions := s.positions ++ [position], fingerprints := fingerprints } := by
  have hat : (s.positions ++ [position])[s.positions.length]? = some position :=
    getElem?_concat_length
  have hlast : ∀ j < (s.positions ++ [position]).length, s.positions.length ≤ j →
      j = s.positions.length := by
    intro j hlt hge
    rw [length_append, length_singleton] at hlt
    omega
  have hold : ∀ j < s.positions.length,
      (s.become s.positions.length phase).phase j = s.phase j := fun _ hlt =>
    phase_become_of_ne hlt.ne
  have hf : s.Follows { s.become s.positions.length phase with
      positions := s.positions ++ [position], fingerprints := fingerprints } :=
    ⟨prefix_append .., fun j hlt => by rw [hold j hlt], fun j hlt hj => hold j hlt ▸ hj, prefix_rfl⟩
  refine hf.invariant h hunique (fun entry hentry => ?_) (.inl rfl) (fun _ => .inl) (fun _ => .inl)
    (fun j hj => .inl ?_) fun j hlt hge hans => ?_
  · rcases hrem entry hentry with ⟨hmem, hother⟩ | ⟨rfl, rfl⟩
    · refine hf.remembers (h.remembered entry hmem) (fun m p hm _ _ hnot => ?_) fun j q hj hge => ?_
      · rwa [hold m (hf.at hm.1).1]
      · obtain rfl := hlast j (List.getElem?_eq_some_iff.mp hj.1).1 hge
        obtain rfl : position = q := some.inj (hat.symm.trans hj.1)
        exact (hother.resolve_left fun hphase =>
          hj.2 (phase_become_self.trans hphase)).symm
    · refine ⟨_, position, ⟨hat, phase_become_self.trans_ne nofun⟩, rfl, rfl,
        phase_become_self.trans_ne nofun, fun j q hj _ => ?_⟩
      have hlt := (List.getElem?_eq_some_iff.mp hj.1).1
      exact Nat.lt_succ_iff.mp (hlt.trans_eq length_append)
  · by_cases hjlast : j = s.positions.length
    · subst hjlast
      rcases hnew with rfl | ⟨rfl, -⟩ <;> rcases hj with hj | hj <;>
        cases phase_become_self.symm.trans hj
    · exact hj.imp (phase_become_of_ne hjlast).symm.trans (phase_become_of_ne hjlast).symm.trans
  · obtain rfl := hlast j hlt hge
    rcases hnew with rfl | ⟨-, m, hm, p, hp, hkey, hfing⟩
    · cases phase_become_self.symm.trans hans
    · exact ⟨position, hat, m, hm, p, (hf.at hp).2, hkey, .inl hfing⟩

lemma Invariant.call (h : s.Invariant) (hcond : get? s.fingerprints (durabilityKey position) =
      some (livePositionDurabilityFingerprint position) → s.Confirmed position) :
    (s.persistLivePositionCheckpointIfChanged position).Invariant := by
  unfold persistLivePositionCheckpointIfChanged
  extract_lets fingerprint key called
  split_ifs with hget
  · exact h.extend h.unique (fun _ hentry => .inl ⟨hentry, .inl rfl⟩)
      (.inr ⟨rfl, h.holds_of_confirmed (hcond hget) hget⟩)
  · have hsub : remember s.fingerprints key fingerprint <+
        put s.fingerprints key fingerprint := by
      unfold remember
      extract_lets remembered
      split_ifs
      · exact tail_sublist _
      · exact Sublist.refl _
    refine h.extend ((h.unique.put key fingerprint).sublist (hsub.map _)) (fun entry hentry => ?_)
      (.inl rfl)
    rcases h.unique.mem_put (hsub.subset hentry) with rfl | ⟨hmem, hne⟩
    · exact .inr ⟨rfl, rfl⟩
    · exact .inl ⟨hmem, .inr hne⟩

/-- A step that answers what is confirmed keeps the invariant. -/
lemma Invariant.step {event : WalEvent} (h : s.Invariant) (hcond : AnsweredConfirmed s event)
    (hstep : walStep s event = some t) : t.Invariant := by
  cases event with
  | call position =>
    obtain rfl := some.inj hstep
    exact h.call hcond
  | join i =>
    simp only [walStep] at hstep
    split at hstep
    · next position hat =>
      obtain ⟨⟨hphase, hbefore⟩, heq⟩ := ite_none_right_eq_some.mp hstep
      obtain rfl := some.inj heq
      exact h.join hat hphase hbefore
    · cases hstep
  | refuse i =>
    obtain ⟨⟨-, hphase⟩, heq⟩ := ite_none_right_eq_some.mp hstep
    obtain rfl := some.inj heq
    exact h.become (hphase ▸ nofun) nofun nofun nofun nofun
  | throw i =>
    obtain ⟨⟨-, hphase⟩, heq⟩ := ite_none_right_eq_some.mp hstep
    obtain rfl := some.inj heq
    exact h.become (hphase ▸ nofun) nofun nofun nofun nofun
  | flush =>
    obtain ⟨-, heq⟩ := ite_none_left_eq_some.mp hstep
    obtain rfl := some.inj heq
    exact h.flush
  | endBatch written =>
    simp only [walStep] at hstep
    split at hstep
    · cases hstep
    · next batch rest hbatches =>
      obtain rfl := some.inj hstep
      exact h.endBatch hbatches written
  | resume i =>
    simp only [walStep] at hstep
    split at hstep
    · next hat hphase =>
      obtain rfl := some.inj hstep
      exact h.become (hphase ▸ nofun) nofun nofun nofun fun _ => .inl hphase
    · next position hat hphase =>
      obtain rfl := some.inj hstep
      exact h.fail hat hphase
    · cases hstep

lemma invariant_start : ({} : WalProcess).Invariant where
  unique := nodup_nil
  remembered := nofun
  pending := ⟨nofun, nofun, nofun⟩
  inOrder := nofun
  batches := nofun
  journal := nofun
  written := nofun
  answered := nofun

end WalProcess

/-! ## The results -/

/-- **Returned checkpoints are durable.** In a run in which every call that is answered from a
remembered fingerprint is confirmed, every call that resolves has its record in the journal, or that
of a later call for its position. -/
theorem resolved_durable {events : List WalEvent} {s : WalProcess}
    (hmeets : Meets walStep AnsweredConfirmed {} events) (hrun : run walStep {} events = some s) :
    s.ResolvedDurable :=
  (invariant_of_meets (fun _ _ _ h hcond => h.step hcond) WalProcess.invariant_start
    hmeets hrun).resolvedDurable

/-- A position of a connection. -/
def heldPosition : Fields := [("connectionId", .text "c"), ("id", .text "p")]

/-- The checkpoint of a position is written, and then the position is given again. -/
def writtenFirst : List WalEvent :=
  [.call heldPosition, .join 0, .flush, .endBatch true, .resume 0, .call heldPosition]

/-- A position is given again while its checkpoint is under way, which then fails. -/
def answeredEarly : List WalEvent :=
  [.call heldPosition, .call heldPosition, .join 0, .flush, .endBatch false, .resume 0]

/-- The calls of a process with the names of their positions. -/
def WalProcess.named (s : WalProcess) : List ((String × String × String) × CallPhase) :=
  s.positions.zipIdx.map fun call =>
    ((durabilityKey call.1, checkpointKey call.1), s.phase call.2)

lemma meets_writtenFirst : Meets walStep AnsweredConfirmed {} writtenFirst := by
  have hbefore : (run walStep {} (writtenFirst.take 5)).map WalProcess.named =
      some [(("c:p", "c", "p"), .resolved)] := by decide +kernel
  refine ⟨nofun, fun _ h₀ => ⟨trivial, fun _ h₁ => ⟨trivial, fun _ h₂ =>
    ⟨trivial, fun _ h₃ => ⟨trivial, fun s h₄ => ⟨fun _ => ?_, fun _ _ => trivial⟩⟩⟩⟩⟩⟩
  have hrun : run walStep {} (writtenFirst.take 5) = some s := by
    refine run_cons_eq_some.mpr ⟨_, h₀, ?_⟩
    refine run_cons_eq_some.mpr ⟨_, h₁, ?_⟩
    refine run_cons_eq_some.mpr ⟨_, h₂, ?_⟩
    refine run_cons_eq_some.mpr ⟨_, h₃, ?_⟩
    exact run_cons_eq_some.mpr ⟨_, h₄, rfl⟩
  rw [hrun, map_some, some.injEq] at hbefore
  have hlen : s.positions.length = 1 := by simpa [WalProcess.named] using congrArg length hbefore
  obtain ⟨p, hp⟩ := length_eq_one_iff.mp hlen
  simp only [WalProcess.named, hp, zipIdx_singleton, map_singleton, singleton_inj, Prod.mk.injEq]
    at hbefore
  obtain ⟨⟨hkey, hcheck⟩, hphase⟩ := hbefore
  have hheld : durabilityKey heldPosition = "c:p" ∧ checkpointKey heldPosition = ("c", "p") := by
    decide +kernel
  refine ⟨0, p, ⟨by rw [hp]; rfl, hphase ▸ CallPhase.noConfusion⟩, hkey.trans hheld.1.symm, ?_,
    .inr hphase, fun j q hj _ => ?_⟩
  · rw [hheld.2, hcheck]
  · have hlt := (List.getElem?_eq_some_iff.mp hj.1).1
    omega

theorem resolved_durable_answered :
    ∃ s, run walStep {} writtenFirst = some s ∧ s.phase 1 = .answered ∧ s.ResolvedDurable := by
  have hend : (run walStep {} writtenFirst).map (·.phase 1) = some .answered := by
    decide +kernel
  obtain ⟨s, hrun, hphase⟩ := map_eq_some_iff.mp hend
  exact ⟨s, hrun, hphase, resolved_durable meets_writtenFirst hrun⟩

theorem not_resolved_durable_failed : ¬ ∀ (events : List WalEvent) (s : WalProcess),
    run walStep {} events = some s → s.ResolvedDurable := by
  intro h
  have hend : (run walStep {} answeredEarly).map
      (fun s => (s.journal, s.phase 1, s.positions.length)) = some ([], .answered, 2) := by
    decide +kernel
  obtain ⟨s, hrun, hstate⟩ := map_eq_some_iff.mp hend
  simp only [Prod.mk.injEq] at hstate
  obtain ⟨hjournal, hphase, hlen⟩ := hstate
  obtain ⟨_, _, j, hj, -⟩ := h answeredEarly s hrun 1 (by omega) (.inl hphase)
  rw [hjournal] at hj
  cases hj

end CtsEngine.LiveWal
