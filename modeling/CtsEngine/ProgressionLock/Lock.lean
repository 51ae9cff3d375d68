import CtsEngine.Foundation.Expiring
import CtsEngine.Foundation.NumberText
import CtsEngine.Transition.Runs
import Mathlib.Data.List.Pairwise

/-!
# The progression lock

The lock of a connection is one key with the value `ownerToken:epoch` and an expiry.  The module
holds the values, the four commands on the key, and the calls of `acquireProgressionLock`,
`extendProgressionLock` and `releaseProgressionLock` as steps of a system in which every command to
Redis is a step of its own.

Redis offers `EVAL`, and no caller passes `selfOwnedIfAlive`.  Each call of `acquireProgressionLock`
has a number of its own.  `Date.now()` is what the clock of the caller's process reads, any number;
the expiry is by the clock of Redis.  A command may fail before it runs, or run without its reply
reaching the caller.
-/

namespace CtsEngine

open Option List Nat String

/-! ## Values of the key -/

structure LockHandle where
  ownerToken : String
  epoch : ℕ
deriving DecidableEq

def encodeValue (handle : LockHandle) : String := handle.ownerToken ++ ":" ++ toString handle.epoch

/-- The characters around the last colon. -/
def splitLastColon (cs : List Char) : Option (List Char × List Char) :=
  match cs.reverse.dropWhile (· != ':') with
  | [] => none
  | _ :: before => some (before.reverse, (cs.reverse.takeWhile (· != ':')).reverse)

def decodeValue (raw : String) : Option (String × ℚ) :=
  match splitLastColon raw.toList with
  | none => none
  | some (owner, text) =>
    if owner = [] then none
    else match numberOfString (ofList text) with
      | .finite epoch => some (ofList owner, epoch)
      | _ => none

lemma splitLastColon_append {before after : List Char} (h : ':' ∉ after) :
    splitLastColon (before ++ ':' :: after) = some (before, after) := by
  have hkeep : ∀ c ∈ after.reverse, (c != ':') = true := by
    intro c hc
    have hne : c ≠ ':' := fun heq => h (heq ▸ mem_reverse.mp hc)
    simpa using hne
  have hrev : (before ++ ':' :: after).reverse = after.reverse ++ ':' :: before.reverse := by simp
  unfold splitLastColon
  rw [hrev, dropWhile_append_of_pos hkeep, takeWhile_append_of_pos hkeep]
  simp

lemma colon_not_mem_repr (n : ℕ) : ':' ∉ (toString n).toList := by
  intro hmem
  have hmem' : ':' ∈ toDigits 10 n := by
    rwa [toString_eq_repr, toList_repr] at hmem
  have hdigit := isDigit_of_mem_toDigits (by decide) (by decide) hmem'
  exact absurd hdigit (by decide)

lemma splitLastColon_encodeValue (handle : LockHandle) :
    splitLastColon (encodeValue handle).toList =
      some (handle.ownerToken.toList, (toString handle.epoch).toList) := by
  have hchars : (encodeValue handle).toList =
      handle.ownerToken.toList ++ ':' :: (toString handle.epoch).toList := by
    simp [encodeValue]
  rw [hchars]
  exact splitLastColon_append (colon_not_mem_repr handle.epoch)

lemma ownerToken_of_encodeValue_eq {h h' : LockHandle} (heq : encodeValue h = encodeValue h') :
    h.ownerToken = h'.ownerToken := by
  have hsplit := splitLastColon_encodeValue h
  rw [heq, splitLastColon_encodeValue h'] at hsplit
  have htoken := (Prod.mk.inj (some.inj hsplit)).1
  exact (toList_inj.mp htoken).symm

/-! ## Commands on the key -/

/-- The stored value, and when it expires. -/
abbrev LockRow := Expiring String

variable (now : ℕ)

/-- A value that expires `ttlSec` seconds from now. -/
def freshLock (value : String) (ttlSec : ℕ) : LockRow := ⟨value, now + ttlSec * 1000⟩

variable (row : Option LockRow)

/-- `GET`. -/
def lockValue : Option String := Expiring.live now row

/-- `TTL`: the seconds left, rounded, or `-2` for a missing key. -/
def lockTtl : ℤ :=
  match row.filter fun r => now < r.expiresAt with
  | some r => (r.expiresAt - now + 500) / 1000
  | none => -2

/-- `SET key value NX EX ttlSec`, and whether it replied `OK`. -/
def setIfFree (value : String) (ttlSec : ℕ) : Option LockRow × Bool :=
  if lockValue now row = none then (some (freshLock now value ttlSec), true) else (row, false)

/-- The script of `renewOwnedRedisLock`: an `EXPIRE` of no seconds deletes the key. -/
def renewOwnedRedisLock (token : String) (ttlSec : ℕ) : Option LockRow × Bool :=
  if lockValue now row = some token then
    (if ttlSec = 0 then none else some (freshLock now token ttlSec), true)
  else (row, false)

/-- The script of `releaseOwnedRedisLock`. -/
def releaseOwnedRedisLock (token : String) : Option LockRow × Bool :=
  if lockValue now row = some token then (none, true) else (row, false)

/-- The script of `replaceRedisLockIfValue`. -/
def replaceRedisLockIfValue (expected replacement : String) (ttlSec : ℕ) : Option LockRow × Bool :=
  if lockValue now row = some expected then (some (freshLock now replacement ttlSec), true)
  else (row, false)

/-! ## Calls and their steps -/

/-- Where a call of `acquireProgressionLock` stands. -/
inductive AcquirePhase
  | idle
  /-- Before the `SET`. -/
  | attempting (handle : LockHandle)
  /-- The `SET` found the key taken. -/
  | contended (handle : LockHandle)
  /-- After the `GET`. -/
  | observed (handle : LockHandle) (existingRaw : Option String)
  /-- Before the compare-and-replace. -/
  | healing (handle : LockHandle) (existingRaw : String)
  /-- Returned with a handle. -/
  | acquired (handle : LockHandle)
  /-- Returned without one. -/
  | refused
deriving DecidableEq

/-- The handle of a call. -/
def AcquirePhase.handle? : AcquirePhase → Option LockHandle
  | .attempting handle | .contended handle | .observed handle _ | .healing handle _
  | .acquired handle => some handle
  | .idle | .refused => none

/-- The key, the calls, and the handles that calls returned, in the order of the writes. -/
structure LockSystem where
  now : ℕ
  row : Option LockRow
  phase : ℕ → AcquirePhase
  /-- The tokens that `mintOwnerToken` has returned. -/
  minted : List String
  won : List LockHandle

/-- No lock is stored and no call was made. -/
def lockStart : LockSystem := ⟨0, none, fun _ => .idle, [], []⟩

/-- A step.  `mintOwnerToken` never returns a token twice. -/
inductive LockAction
  | tick (elapsed : ℕ)
  /-- A call begins: its token and its `Date.now()`. -/
  | mint (call : ℕ) (token : String) (dateNow : ℕ)
  | trySet (call : ℕ) (ttlSec : ℕ) (wire : Wire)
  | readOwner (call : ℕ) (wire : Wire)
  /-- The decision to heal, on the `Date.now()` and the `TTL` read for it. -/
  | judgeAge (call : ℕ) (staleAfterMs : ℚ) (dateNow : ℕ) (wire : Wire)
  | heal (call : ℕ) (ttlSec : ℕ) (wire : Wire)
  | extend (handle : LockHandle) (ttlSec : ℕ) (wire : Wire)
  | release (handle : LockHandle) (wire : Wire)

namespace LockSystem

/-- The stored unexpired value. -/
def stored (s : LockSystem) : Option String := lockValue s.now s.row

/-- Move a call to another phase. -/
def enter (s : LockSystem) (call : ℕ) (phase : AcquirePhase) : LockSystem :=
  { s with phase := Function.update s.phase call phase }

/-- A write that makes the handle of a call the stored one: the call returns the handle if the
reply of the write says so and reaches it. -/
def settle (s : LockSystem) (call : ℕ) (handle : LockHandle) (written : Option LockRow × Bool)
    (wire : Wire) (otherwise : AcquirePhase) : LockSystem :=
  match wire with
  | .unsent => s.enter call .refused
  | .unanswered => { s.enter call .refused with row := written.1 }
  | .answered =>
    if written.2 then
      { s.enter call (.acquired handle) with row := written.1, won := s.won ++ [handle] }
    else { s.enter call otherwise with row := written.1 }

/-- The key after a command that a handle's owner sends. -/
def apply (s : LockSystem) (written : Option LockRow × Bool) (wire : Wire) : LockSystem :=
  if wire = .unsent then s else { s with row := written.1 }

/-- Whether an owner with a raw value is taken for dead.  A `TTL` that fails reads `-1`. -/
def confirmsStale (s : LockSystem) (raw : String) (staleAfterMs : ℚ) (dateNow : ℕ)
    (wire : Wire) : Bool :=
  match decodeValue raw with
  | none => false
  | some (_, epoch) =>
    let ttl := if wire = .answered then lockTtl s.now s.row else -1
    decide (staleAfterMs < dateNow - epoch) && decide (ttl ≤ 0)

end LockSystem

/-- A write with an `EX` that is not positive is refused by Redis. -/
def exWire (ttlSec : ℕ) (wire : Wire) : Wire := if ttlSec = 0 then .unsent else wire

def lockStep (s : LockSystem) : LockAction → Option LockSystem
  | .tick elapsed => some { s with now := s.now + elapsed }
  | .mint call token dateNow =>
    if s.phase call = .idle ∧ token ∉ s.minted then
      some { s.enter call (.attempting ⟨token, dateNow⟩) with minted := token :: s.minted }
    else none
  | .trySet call ttlSec wire =>
    match s.phase call with
    | .attempting handle =>
      some (s.settle call handle (setIfFree s.now s.row (encodeValue handle) ttlSec)
        (exWire ttlSec wire) (.contended handle))
    | _ => none
  | .readOwner call wire =>
    match s.phase call with
    | .contended handle =>
      some (s.enter call (.observed handle (if wire = .answered then s.stored else none)))
    | _ => none
  | .judgeAge call staleAfterMs dateNow wire =>
    match s.phase call with
    | .observed _ none => some (s.enter call .refused)
    | .observed handle (some raw) =>
      some (s.enter call
        (if s.confirmsStale raw staleAfterMs dateNow wire then .healing handle raw else .refused))
    | _ => none
  | .heal call ttlSec wire =>
    match s.phase call with
    | .healing handle raw =>
      some (s.settle call handle
        (replaceRedisLockIfValue s.now s.row raw (encodeValue handle) ttlSec)
        (exWire ttlSec wire) .refused)
    | _ => none
  | .extend handle ttlSec wire =>
    some (s.apply (renewOwnedRedisLock s.now s.row (encodeValue handle) ttlSec) wire)
  | .release handle wire =>
    some (s.apply (releaseOwnedRedisLock s.now s.row (encodeValue handle)) wire)

open Transition

/-! ## The laws -/

namespace LockSystem

/-- At most one call returned the handle whose value is stored. -/
def Exclusive (s : LockSystem) : Prop :=
  ∀ p q h h', s.phase p = .acquired h → s.phase q = .acquired h' →
    s.stored = some (encodeValue h) → s.stored = some (encodeValue h') → p = q

/-- A handle whose value is not stored neither renews nor deletes the lock. -/
def IgnoresOthers (s : LockSystem) : Prop :=
  ∀ handle, s.stored ≠ some (encodeValue handle) →
    (∀ ttlSec wire t, lockStep s (.extend handle ttlSec wire) = some t →
      t.row = s.row ∧ t.now = s.now) ∧
    ∀ wire t, lockStep s (.release handle wire) = some t → t.row = s.row ∧ t.now = s.now

/-- The epochs rise from one acquisition to the next. -/
def EpochsRise (s : LockSystem) : Prop := s.won.Pairwise fun h h' => h.epoch < h'.epoch

instance (s : LockSystem) : Decidable s.EpochsRise := inferInstanceAs (Decidable (s.won.Pairwise _))

/-- The call that a write makes return its handle. -/
def winner (s : LockSystem) : LockAction → Option LockHandle
  | .trySet call ttlSec wire =>
    match s.phase call with
    | .attempting handle =>
      if exWire ttlSec wire = .answered ∧ s.stored = none then some handle else none
    | _ => none
  | .heal call ttlSec wire =>
    match s.phase call with
    | .healing handle raw =>
      if exWire ttlSec wire = .answered ∧ s.stored = some raw then some handle else none
    | _ => none
  | _ => none

/-- The call that a write makes return read a later clock than every call that returned before. -/
def ReadsLaterClock (s : LockSystem) (action : LockAction) : Prop :=
  ∀ handle ∈ s.winner action, ∀ earlier ∈ s.won, earlier.epoch < handle.epoch

/-! ## One step -/

variable (s : LockSystem)

@[simp] lemma enter_phase_self (call : ℕ) (phase : AcquirePhase) :
    (s.enter call phase).phase call = phase := by
  simp [enter]

lemma enter_phase_of_ne {call other : ℕ} (phase : AcquirePhase) (h : other ≠ call) :
    (s.enter call phase).phase other = s.phase other := by
  simp [enter, h]

/-- No two calls have handles with the same token, and every token was minted. -/
structure TokensApart (s : LockSystem) : Prop where
  apart : ∀ p q h h', (s.phase p).handle? = some h → (s.phase q).handle? = some h' →
    h.ownerToken = h'.ownerToken → p = q
  minted : ∀ p h, (s.phase p).handle? = some h → h.ownerToken ∈ s.minted

lemma tokensApart_start : TokensApart lockStart := by
  constructor
  · intro p q h h' hp
    exact absurd hp (by simp [lockStart, AcquirePhase.handle?])
  · intro p h hp
    exact absurd hp (by simp [lockStart, AcquirePhase.handle?])

lemma TokensApart.moveOn {s t : LockSystem} {call : ℕ} {phase : AcquirePhase}
    (hs : s.TokensApart) (hph : t.phase = (s.enter call phase).phase)
    (hmint : t.minted = s.minted)
    (hhand : ∀ h, phase.handle? = some h → (s.phase call).handle? = some h) :
    t.TokensApart := by
  have hold : ∀ p h, (t.phase p).handle? = some h → (s.phase p).handle? = some h := by
    intro p h hp
    rw [hph] at hp
    by_cases hcall : p = call
    · subst hcall
      rw [enter_phase_self] at hp
      exact hhand h hp
    · rwa [enter_phase_of_ne s phase hcall] at hp
  constructor
  · intro p q h h' hp hq htoken
    exact hs.apart p q h h' (hold p h hp) (hold q h' hq) htoken
  · intro p h hp
    rw [hmint]
    exact hs.minted p h (hold p h hp)

lemma TokensApart.begin {s t : LockSystem} {call : ℕ} {handle : LockHandle} (hs : s.TokensApart)
    (hph : t.phase = (s.enter call (.attempting handle)).phase)
    (hmint : t.minted = handle.ownerToken :: s.minted) (hfresh : handle.ownerToken ∉ s.minted) :
    t.TokensApart := by
  have hold : ∀ p h, (t.phase p).handle? = some h →
      p = call ∧ h = handle ∨ p ≠ call ∧ (s.phase p).handle? = some h := by
    intro p h hp
    rw [hph] at hp
    by_cases hcall : p = call
    · subst hcall
      rw [enter_phase_self] at hp
      exact .inl ⟨rfl, (some.inj hp).symm⟩
    · rw [enter_phase_of_ne s _ hcall] at hp
      exact .inr ⟨hcall, hp⟩
  constructor
  · intro p q h h' hp hq htoken
    rcases hold p h hp with ⟨rfl, rfl⟩ | ⟨hpne, hp'⟩
    · rcases hold q h' hq with ⟨rfl, rfl⟩ | ⟨hqne, hq'⟩
      · rfl
      · exact absurd (htoken ▸ hs.minted q h' hq') hfresh
    · rcases hold q h' hq with ⟨rfl, rfl⟩ | ⟨hqne, hq'⟩
      · exact absurd (htoken ▸ hs.minted p h hp') hfresh
      · exact hs.apart p q h h' hp' hq' htoken
  · intro p h hp
    rw [hmint]
    rcases hold p h hp with ⟨-, rfl⟩ | ⟨-, hp'⟩
    · exact mem_cons_self ..
    · exact mem_cons_of_mem _ (hs.minted p h hp')

lemma settle_spec (call : ℕ) (handle : LockHandle) (written : Option LockRow × Bool) (wire : Wire)
    (otherwise : AcquirePhase) :
    ∃ phase, (phase = .refused ∨ phase = .acquired handle ∨ phase = otherwise) ∧
      (s.settle call handle written wire otherwise).phase = (s.enter call phase).phase ∧
      (s.settle call handle written wire otherwise).minted = s.minted ∧
      (s.settle call handle written wire otherwise).won =
        s.won ++ if wire = .answered ∧ written.2 = true then [handle] else [] := by
  unfold settle
  cases wire with
  | unsent => exact ⟨.refused, by simp, rfl, rfl, by simp [enter]⟩
  | unanswered => exact ⟨.refused, by simp, rfl, rfl, by simp [enter]⟩
  | answered =>
    cases hwrote : written.2 with
    | true => exact ⟨.acquired handle, by simp, by simp [enter], by simp [enter], by simp⟩
    | false => exact ⟨otherwise, by simp, by simp [enter], by simp [enter], by simp [enter]⟩

variable (written : Option LockRow × Bool)

@[simp] lemma apply_phase (wire : Wire) : (s.apply written wire).phase = s.phase := by
  unfold apply
  split <;> rfl

@[simp] lemma apply_minted (wire : Wire) : (s.apply written wire).minted = s.minted := by
  unfold apply
  split <;> rfl

@[simp] lemma apply_won (wire : Wire) : (s.apply written wire).won = s.won := by
  unfold apply
  split <;> rfl

lemma apply_row {s : LockSystem} {written : Option LockRow × Bool} (h : written.1 = s.row)
    (wire : Wire) : (s.apply written wire).row = s.row ∧ (s.apply written wire).now = s.now := by
  unfold apply
  split
  · exact ⟨rfl, rfl⟩
  · exact ⟨h, rfl⟩

end LockSystem

open LockSystem

/-- A step keeps tokens apart, and wins are recorded in order. -/
lemma lockStep_spec {s t : LockSystem} {action : LockAction} (hs : s.TokensApart)
    (hstep : lockStep s action = some t) :
    t.TokensApart ∧ t.won = s.won ++ (s.winner action).toList := by
  revert hstep
  fun_cases lockStep s action
  all_goals
    intro hstep
    cases hstep
  next elapsed => exact ⟨⟨hs.apart, hs.minted⟩, by simp [winner]⟩
  next call token dateNow hfresh => exact ⟨hs.begin rfl rfl hfresh.2, by simp [winner, enter]⟩
  next call ttlSec wire handle hph =>
    obtain ⟨phase, hcases, hmoved, hmint, hwon⟩ := settle_spec s call handle
      (setIfFree s.now s.row (encodeValue handle) ttlSec) (exWire ttlSec wire)
      (.contended handle)
    refine ⟨hs.moveOn hmoved hmint fun h hh => ?_, ?_⟩
    · rw [hph]
      rcases hcases with rfl | rfl | rfl
      · cases hh
      · exact hh
      · exact hh
    · have hfree : (setIfFree s.now s.row (encodeValue handle) ttlSec).2 = true ↔
          s.stored = none := by
        unfold setIfFree stored
        split <;> simp_all
      rw [hwon]
      simp only [winner, hph, hfree]
      split <;> rfl
  next call wire handle hph =>
    exact ⟨hs.moveOn rfl rfl fun h hh => hph ▸ hh, by simp [winner, enter]⟩
  next call staleAfterMs dateNow wire handle hph =>
    exact ⟨hs.moveOn rfl rfl nofun, by simp [winner, enter]⟩
  next call staleAfterMs dateNow wire handle raw hph =>
    refine ⟨hs.moveOn rfl rfl fun h hh => ?_, by simp [winner, enter]⟩
    rw [hph]
    split at hh
    · exact hh
    · cases hh
  next call ttlSec wire handle raw hph =>
    obtain ⟨phase, hcases, hmoved, hmint, hwon⟩ := settle_spec s call handle
      (replaceRedisLockIfValue s.now s.row raw (encodeValue handle) ttlSec)
      (exWire ttlSec wire) .refused
    refine ⟨hs.moveOn hmoved hmint fun h hh => ?_, ?_⟩
    · rw [hph]
      rcases hcases with rfl | rfl | rfl
      · cases hh
      · exact hh
      · cases hh
    · have hsame : (replaceRedisLockIfValue s.now s.row raw (encodeValue handle) ttlSec).2 = true ↔
            s.stored = some raw := by
        unfold replaceRedisLockIfValue stored
        split <;> simp_all
      rw [hwon]
      simp only [winner, hph, hsame]
      split <;> rfl
  all_goals
    refine ⟨⟨?_, ?_⟩, by simp [winner]⟩
    · simpa using hs.apart
    · simpa using hs.minted

/-! ## Runs -/

variable {as : List LockAction} {t : LockSystem}

lemma tokensApart_run (hrun : run lockStep lockStart as = some t) : t.TokensApart :=
  invariant_of_step (fun _ _ _ hs hstep => (lockStep_spec hs hstep).1) tokensApart_start hrun

namespace LockSystem

lemma TokensApart.exclusive {s : LockSystem} (hs : s.TokensApart) : s.Exclusive := by
  intro p q h h' hp hq hstor hstor'
  have hval : encodeValue h = encodeValue h' := some.inj (hstor.symm.trans hstor')
  apply hs.apart p q h h' _ _ (ownerToken_of_encodeValue_eq hval)
  · rw [hp]
    rfl
  · rw [hq]
    rfl

lemma ignoresOthers (s : LockSystem) : s.IgnoresOthers := by
  intro handle hoth
  constructor
  · intro ttlSec wire t hstep
    cases hstep
    exact apply_row (congrArg Prod.fst (if_neg hoth)) wire
  · intro wire t hstep
    cases hstep
    exact apply_row (congrArg Prod.fst (if_neg hoth)) wire

lemma epochsRise_append {s t : LockSystem} {action : LockAction}
    (hwon : t.won = s.won ++ (s.winner action).toList) :
    t.EpochsRise ↔ s.EpochsRise ∧ s.ReadsLaterClock action := by
  unfold EpochsRise ReadsLaterClock
  rw [hwon, pairwise_append]
  cases s.winner action with
  | none => simp
  | some handle => simp

end LockSystem

/-- The epochs of a run rise exactly when every winner read a later clock. -/
lemma epochsRise_run {s t : LockSystem} {as : List LockAction} (hs : s.TokensApart)
    (hrun : run lockStep s as = some t) :
    t.EpochsRise ↔ s.EpochsRise ∧ Meets lockStep ReadsLaterClock s as := by
  induction as generalizing s with
  | nil =>
    obtain rfl : s = t := by simpa using hrun
    simp
  | cons action as ih =>
    obtain ⟨r, hstep, hrest⟩ := run_cons_eq_some.mp hrun
    obtain ⟨hr, hwon⟩ := lockStep_spec hs hstep
    rw [ih hr hrest, epochsRise_append hwon, and_assoc]
    constructor
    · rintro ⟨hrise, hlate, hmeets⟩
      refine ⟨hrise, hlate, fun u hu => ?_⟩
      obtain rfl : r = u := some.inj (hstep.symm.trans hu)
      exact hmeets
    · rintro ⟨hrise, hlate, hmeets⟩
      exact ⟨hrise, hlate, hmeets r hstep⟩

/-- **Mutual exclusion and fencing.** After every run at most one call holds the stored handle and
other handles change nothing; the epochs of the successive winners rise exactly when each of them
read a later clock than the winners before it. -/
theorem progressionLock_exclusive (hrun : run lockStep lockStart as = some t) :
    t.Exclusive ∧ t.IgnoresOthers ∧
      (t.EpochsRise ↔ Meets lockStep ReadsLaterClock lockStart as) := by
  refine ⟨(tokensApart_run hrun).exclusive, t.ignoresOthers, ?_⟩
  rw [epochsRise_run tokensApart_start hrun]
  exact and_iff_right List.Pairwise.nil

/-- A call that acquires the lock, is overtaken by nobody and releases it, and the next one, whose
clock reads `secondClock`. -/
def successiveAcquisitions (secondClock : ℕ) : List LockAction :=
  [.mint 0 "a" 1000, .trySet 0 300 .answered, .release ⟨"a", 1000⟩ .answered,
    .mint 1 "b" secondClock, .trySet 1 300 .answered]

theorem progressionLock_exclusive_successive :
    ∃ t, run lockStep lockStart (successiveAcquisitions 1001) = some t ∧
      (t.EpochsRise ↔ Meets lockStep ReadsLaterClock lockStart (successiveAcquisitions 1001)) ∧
      t.Exclusive := by
  obtain ⟨t, ht⟩ : ∃ t, run lockStep lockStart (successiveAcquisitions 1001) = some t :=
    isSome_iff_exists.mp (by decide +kernel)
  have hlaw := progressionLock_exclusive ht
  exact ⟨t, ht, hlaw.2.2, hlaw.1⟩

/-- Two acquisitions in one millisecond have the same epoch. -/
theorem progressionLock_repeatsEpoch :
    ¬ ∀ (as : List LockAction) (t : LockSystem), run lockStep lockStart as = some t →
      t.Exclusive ∧ t.IgnoresOthers ∧ t.EpochsRise := by
  intro hall
  have hrun : (run lockStep lockStart (successiveAcquisitions 1000)).map
      (fun t => decide t.EpochsRise) = some false := by
    decide +kernel
  obtain ⟨t, ht, hflat⟩ := map_eq_some_iff.mp hrun
  exact absurd (hall _ t ht).2.2 (of_decide_eq_false hflat)

end CtsEngine
