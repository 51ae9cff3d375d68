import Mathlib.Order.Nat
import Mathlib.Data.List.Nodup

/-!
# Optimistic transactions on a versioned store

Many parties run transactions on one store.  A transaction reads a part of the data together with
the version of the store, works on the snapshot without any lock, and then offers its effect to the
store, which takes it only if the version is still the one that was read and if no transaction of
the same key has been taken before.  Every transaction that is taken raises the version.
-/

namespace Transition.Optimistic

open List Function

/-- Shared data under a version, with the keys of the transactions taken so far. -/
structure Store (D : Type*) (K : Type*) where
  /-- The shared data. -/
  data : D
  /-- The number that every taken transaction raises. -/
  version : ℕ
  /-- The keys of the transactions taken so far. -/
  done : K → Bool

/-- What a transaction of type `R` reads and does. -/
structure Protocol (D : Type*) (K : Type*) (R : Type*) (V : Type*) where
  /-- The identity under which a transaction is taken at most once. -/
  key : R → K
  /-- The part of the data that the transaction reads. -/
  view : R → D → V
  /-- The effect of the transaction, decided from what it read. -/
  effect : R → V → D → D

/-- Answer of the store to an offered transaction. -/
inductive Outcome
  | already
  | stale
  | committed

variable {D K R V : Type*} [DecidableEq K] (P : Protocol D K R V)

/-- The store after a transaction is taken. -/
def Protocol.commit (st : Store D K) (r : R) (v : V) : Store D K where
  data := P.effect r v st.data
  version := st.version + 1
  done := update st.done (P.key r) true

/-- Offer the effect of `r`, decided from the snapshot `v` read at version `ver`. -/
def Protocol.tryCommit (st : Store D K) (r : R) (ver : ℕ) (v : V) : Outcome × Store D K :=
  if st.done (P.key r) then (.already, st)
  else if st.version = ver then (.committed, P.commit st r v)
  else (.stale, st)

/-- Perform the transaction `r` alone: read, decide and offer with nobody in between. -/
def Protocol.perform (st : Store D K) (r : R) : Store D K :=
  (P.tryCommit st r st.version (P.view r st.data)).2

/-- What a held snapshot still says: it is not from the future, and as long as the version has not
moved it is what a new read would give. -/
def Protocol.Fresh (st : Store D K) (r : R) (ver : ℕ) (v : V) : Prop :=
  ver ≤ st.version ∧ (ver = st.version → v = P.view r st.data)

/-- `st` is what the transactions `log` give from `st₀` when each is performed alone, in this
order; every key occurs once and none was done at the start. -/
structure Protocol.Serial (st₀ st : Store D K) (log : List R) : Prop where
  keys_nodup : (log.map P.key).Nodup
  not_done : ∀ r ∈ log, st₀.done (P.key r) = false
  done_of_mem : ∀ r ∈ log, st.done (P.key r) = true
  done_mono : ∀ k, st₀.done k = true → st.done k = true
  store_eq : st = log.foldl P.perform st₀

lemma Protocol.tryCommit_cases (st : Store D K) (r : R) (ver : ℕ) (v : V) :
    (st.done (P.key r) = true ∧ P.tryCommit st r ver v = (.already, st)) ∨
      (st.done (P.key r) = false ∧ st.version ≠ ver ∧ P.tryCommit st r ver v = (.stale, st)) ∨
      (st.done (P.key r) = false ∧ st.version = ver ∧
        P.tryCommit st r ver v = (.committed, P.commit st r v)) := by
  by_cases hd : st.done (P.key r) = true
  · exact .inl ⟨hd, by simp [Protocol.tryCommit, hd]⟩
  · by_cases hv : st.version = ver
    · exact .inr (.inr ⟨by simpa using hd, hv, by simp [Protocol.tryCommit, hd, hv]⟩)
    · exact .inr (.inl ⟨by simpa using hd, hv, by simp [Protocol.tryCommit, hd, hv]⟩)

omit [DecidableEq K] in
lemma Protocol.fresh_read (st : Store D K) (r : R) : P.Fresh st r st.version (P.view r st.data) :=
  ⟨le_rfl, fun _ => rfl⟩

variable {st st₀ : Store D K}

lemma Protocol.Fresh.tryCommit {P : Protocol D K R V} {r : R} {ver : ℕ} {v : V}
    (h : P.Fresh st r ver v) (r' : R) (ver' : ℕ) (v' : V) :
    P.Fresh (P.tryCommit st r' ver' v').2 r ver v := by
  rcases P.tryCommit_cases st r' ver' v' with ⟨-, heq⟩ | ⟨-, -, heq⟩ | ⟨-, -, heq⟩
  · rwa [heq]
  · rwa [heq]
  · rw [heq]
    have hlt : ver < st.version + 1 := Nat.lt_succ_of_le h.1
    exact ⟨hlt.le, fun hver => absurd hver hlt.ne⟩

lemma Protocol.Fresh.commit_eq_perform {P : Protocol D K R V} {r : R} {ver : ℕ} {v : V}
    (h : P.Fresh st r ver v) (hnew : st.done (P.key r) = false) (hver : st.version = ver) :
    P.commit st r v = P.perform st r := by
  rw [h.2 hver.symm]
  simp [Protocol.perform, Protocol.tryCommit, hnew]

lemma Protocol.serial_nil (st : Store D K) : P.Serial st st [] where
  keys_nodup := nodup_nil
  not_done := by simp
  done_of_mem := by simp
  done_mono := fun _ h => h
  store_eq := rfl

/-- **Serialisation rule.** Taking a transaction from a fresh snapshot appends it to the serial
order. -/
theorem Protocol.Serial.commit {P : Protocol D K R V} {log : List R} (hs : P.Serial st₀ st log)
    {r : R} {ver : ℕ} {v : V} (hf : P.Fresh st r ver v) (hnew : st.done (P.key r) = false)
    (hver : st.version = ver) :
    P.Serial st₀ (P.commit st r v) (log ++ [r]) where
  keys_nodup := by
    rw [map_append, nodup_append]
    refine ⟨hs.keys_nodup, nodup_singleton _, ?_⟩
    intro k hk k' hk' hkk
    obtain ⟨r', hr', rfl⟩ := mem_map.mp hk
    obtain rfl : k' = P.key r := by simpa using hk'
    have hdone := hs.done_of_mem r' hr'
    rw [hkk, hnew] at hdone
    exact Bool.false_ne_true hdone
  not_done := by
    intro r' hr'
    rcases mem_append.mp hr' with h | h
    · exact hs.not_done r' h
    · obtain rfl : r' = r := by simpa using h
      by_contra hdone
      have := hs.done_mono _ (by simpa using hdone)
      rw [hnew] at this
      exact Bool.false_ne_true this
  done_of_mem := by
    intro r' hr'
    rcases mem_append.mp hr' with h | h
    · by_cases hk : P.key r' = P.key r
      · simp [Protocol.commit, hk]
      · simpa [Protocol.commit, update_of_ne hk] using hs.done_of_mem r' h
    · obtain rfl : r' = r := by simpa using h
      simp [Protocol.commit]
  done_mono := by
    intro k hk
    by_cases hkr : k = P.key r
    · simp [Protocol.commit, hkr]
    · simpa [Protocol.commit, update_of_ne hkr] using hs.done_mono k hk
  store_eq := by
    rw [hf.commit_eq_perform hnew hver, foldl_append, ← hs.store_eq]
    rfl

/-- The data after a transaction that is performed alone and was not taken before. -/
def Protocol.apply (d : D) (r : R) : D := P.effect r (P.view r d) d

lemma Protocol.foldl_perform_data {log : List R} (hnodup : (log.map P.key).Nodup)
    (hnew : ∀ r ∈ log, st.done (P.key r) = false) :
    (log.foldl P.perform st).data = log.foldl P.apply st.data := by
  induction log generalizing st with
  | nil => rfl
  | cons r log ih =>
    rw [map_cons, nodup_cons] at hnodup
    have hr := hnew r mem_cons_self
    have hperf : P.perform st r = P.commit st r (P.view r st.data) := by
      simp [Protocol.perform, Protocol.tryCommit, hr]
    rw [foldl_cons, foldl_cons, hperf, ih hnodup.2]
    · rfl
    · intro r' hr'
      have hne : P.key r' ≠ P.key r := fun heq => hnodup.1 (mem_map.mpr ⟨r', hr', heq⟩)
      simpa [Protocol.commit, update_of_ne hne] using hnew r' (mem_cons_of_mem r hr')

/-- **Serial data.** The data are what the taken transactions make of the first data, in their
order. -/
theorem Protocol.Serial.data_eq {P : Protocol D K R V} {log : List R} (hs : P.Serial st₀ st log) :
    st.data = log.foldl P.apply st₀.data := by
  rw [hs.store_eq]
  exact P.foldl_perform_data hs.keys_nodup hs.not_done

end Transition.Optimistic
