import CtsEngine.HistoricCandles.Store

/-!
# What interleaved readers see

The metadata hides the chunks while they are replaced, but a reader that has it already goes on, and
so does a second writer.
-/

namespace CtsEngine.HistoricCandles

open Option List Keyed Transition Prod Nat HistoryRequest

variable {Bar Rest : Type*}

/-! ### The chunks of a write -/

namespace Written

variable (written : Written Bar)

/-- How many chunks a write has. -/
def chunkCount : ℕ := (written.candles.length + historicChunkSize - 1) / historicChunkSize

/-- The chunks of a write. -/
def chunks : List (List (HistoricCandle Bar)) :=
  (List.range written.chunkCount).map fun k => written.chunkAt (k * historicChunkSize)

/-- The ranges of a write. -/
def ranges : List HistoricChunkRange := written.chunks.map rangeOf

/-- The last candles of a write. -/
def tail (requested : ℕ) : List (HistoricCandle Bar) :=
  sliceFromEnd requested (normalizeHistoricCandles (lrange written.chunks
    (tailFirst written.ranges (written.ranges.length - 1) requested) (written.ranges.length - 1)))

lemma length_chunks : written.chunks.length = written.chunkCount := by
  unfold chunks
  rw [length_map, length_range]

lemma lt_chunkCount_iff {k : ℕ} :
    k < written.chunkCount ↔ k * historicChunkSize < written.candles.length := by
  unfold chunkCount historicChunkSize
  omega

lemma take_chunks_succ {k : ℕ} (h : k < written.chunkCount) : written.chunks.take (k + 1) =
      written.chunks.take k ++ [written.chunkAt (k * historicChunkSize)] := by
  rw [take_add_one]
  unfold chunks
  rw [getElem?_map, getElem?_range h]
  rfl

lemma chunkAt_ne_nil {offset : ℕ} (h : offset < written.candles.length) :
    written.chunkAt offset ≠ [] := by
  unfold chunkAt
  rw [← length_pos_iff, length_take, length_drop]
  unfold historicChunkSize
  omega

lemma ne_nil_of_mem_chunks {chunk : List (HistoricCandle Bar)} (h : chunk ∈ written.chunks) :
    chunk ≠ [] := by
  obtain ⟨k, hk, rfl⟩ := mem_map.mp h
  exact written.chunkAt_ne_nil (written.lt_chunkCount_iff.mp (mem_range.mp hk))

lemma flatten_chunks : written.chunks.flatten = written.candles := by
  have htaken : ∀ n, ((List.range n).map fun k =>
      written.chunkAt (k * historicChunkSize)).flatten =
        written.candles.take (n * historicChunkSize) := by
    intro n
    induction n with
    | zero => simp
    | succ n ih =>
      rw [range_succ, map_append, flatten_append, ih, succ_mul, take_add]
      simp [chunkAt]
  unfold chunks
  rw [htaken]
  refine take_of_length_le ?_
  have hcnt := written.lt_chunkCount_iff (k := written.chunkCount)
  omega

lemma ranges_ne_nil : written.ranges ≠ [] := by
  intro h
  have hchun : written.chunks = [] := map_eq_nil_iff.mp h
  have hcands := written.flatten_chunks
  rw [hchun] at hcands
  exact written.nonempty hcands.symm

/-- A write of candles in order as a history. -/
def history (h : written.candles.Pairwise fun a b => a.timestamp < b.timestamp) : History Bar where
  chunks := written.chunks
  nonempty := fun _ hchunk => written.ne_nil_of_mem_chunks hchunk
  sorted := written.flatten_chunks.symm ▸ h
  legacy := []

lemma chunks_eq {other : Written Bar} (h : written.candles = other.candles) :
    written.chunks = other.chunks := by
  obtain ⟨candles, hne⟩ := written
  obtain ⟨candles', hne'⟩ := other
  obtain rfl : candles = candles' := h
  rfl

end Written

/-- What a reader returns that is alone with a write. -/
def HistoryRequest.answer (written : Written Bar) : HistoryRequest → List (HistoricCandle Bar)
  | .tail limit => getHistoricCandleTail written.ranges written.chunks [] limit
  | .range bound other batchChunks =>
    getHistoricCandlesForRange written.ranges written.chunks [] bound other batchChunks

def HistoryRequest.selection (candles : List (HistoricCandle Bar)) :
    HistoryRequest → List (HistoricCandle Bar)
  | .tail limit => candles.rtake (wholeCount limit)
  | .range bound other _ => candles.filter fun candle =>
      min bound other ≤ candle.timestamp ∧ candle.timestamp ≤ max bound other

lemma HistoryRequest.answer_eq_selection {written : Written Bar}
    (h : written.candles.Pairwise fun a b => a.timestamp < b.timestamp) (request : HistoryRequest) :
    request.answer written = request.selection written.candles := by
  have hcands : (written.history h).candles = written.candles := by
    have hne : (written.history h).chunks ≠ [] :=
      fun hemp => written.ranges_ne_nil (map_eq_nil_iff.mpr hemp)
    unfold History.candles
    rw [if_neg hne]
    exact written.flatten_chunks
  rw [← hcands]
  cases request with
  | tail limit => exact getHistoricCandleTail_eq (written.history h) limit
  | range bound other batchChunks =>
    exact getHistoricCandlesForRange_eq (written.history h) bound other batchChunks

lemma HistoryRequest.answer_tail (written : Written Bar) {limit : Option ℚ}
    (h : wholeCount limit ≠ 0) :
    (tail limit).answer written = written.tail (wholeCount limit) := by
  unfold answer getHistoricCandleTail Written.tail
  dsimp only
  rw [if_neg h, if_neg written.ranges_ne_nil]

variable {chunks : List (List (HistoricCandle Bar))} {ranges : List HistoricChunkRange}

lemma getHistoricCandlesForRange_of_none {bound other : ℚ}
    (batchChunks : Option ℚ) (hne : ranges ≠ []) (h : (ranges.findIdx? fun range =>
      min bound other ≤ range.endAt ∧ range.start ≤ max bound other) = none) :
    getHistoricCandlesForRange ranges chunks [] bound other batchChunks = [] := by
  unfold getHistoricCandlesForRange
  rw [if_neg hne, h]

lemma getHistoricCandlesForRange_of_some {bound other : ℚ}
    (batchChunks : Option ℚ) {first : ℕ} (hne : ranges ≠ []) (h : (ranges.findIdx? fun range =>
      min bound other ≤ range.endAt ∧ range.start ≤ max bound other) = some first) :
    getHistoricCandlesForRange ranges chunks [] bound other batchChunks =
      sortedValues ((lrange chunks first (rangeLast ranges first (max bound other))).foldl
        (selectChunk (min bound other) (max bound other)) []) := by
  have hbatch : 0 < batchSize batchChunks := by
    unfold batchSize
    omega
  unfold getHistoricCandlesForRange
  rw [if_neg hne, h]
  dsimp only
  rw [readBatches_eq _ _ _ hbatch _ le_rfl]

/-! ### The property and its condition -/

/-- Readers do not see mixtures: what they return of the chunks is what one write has of it, the
metadata describes the chunks whenever no writer runs, and a tail is taken from the cache only while
the store has what the tail was read from. -/
structure NoMixture (s : HistoryStore Bar Rest) : Prop where
  answers : ∀ reader ∈ s.readers, ∀ candles, reader.phase = .answered (.found candles) →
    ∃ index written, (index, written) ∈ s.published ∧ candles = reader.request.answer written ∧
      (written.candles.Pairwise (fun a b => a.timestamp < b.timestamp) →
        candles = reader.request.selection written.candles)
  stored : ∀ index, s.storedMeta = some index → (∀ writer ∈ s.writers, writer.phase = .done) →
    index.ranges = s.chunks.map rangeOf ∧
      ∃ written, (index, written) ∈ s.published ∧ s.chunks = written.chunks
  cached : ∀ reader ∈ s.readers, ∀ requested index, reader.phase = .indexed requested (some index) →
      ∀ cached, get? s.tails requested = some cached → cached.sig = index →
        s.storedMeta = some index ∧ ∃ written, (index, written) ∈ s.published ∧
          s.chunks = written.chunks ∧ cached.candles = written.tail requested

/-- The reader of a tail has the metadata, and has not looked into the cache yet. -/
def ReaderPhase.Indexed : ReaderPhase Bar Rest → Prop
  | .indexed _ (some _) => True
  | _ => False

/-- The reader has the metadata, and some of the chunks are still to be read. -/
def ReaderPhase.Busy : ReaderPhase Bar Rest → Prop
  | .indexed _ (some _) => True
  | .reading .. => True
  | .batches .. => True
  | _ => False

/-- The chunks are being replaced. -/
def WriterPhase.Replaces : WriterPhase → Prop
  | .deletesChunks => True
  | .pushes .. => True
  | _ => False

/-- No reader is between the metadata and its last chunk. -/
def HistoryStore.Unread (s : HistoryStore Bar Rest) : Prop :=
  ∀ reader ∈ s.readers, ¬ reader.phase.Busy

/-- No reader is between the metadata and the cache. -/
def HistoryStore.LookedUp (s : HistoryStore Bar Rest) : Prop :=
  ∀ reader ∈ s.readers, ¬ reader.phase.Indexed

/-- No writer replaces the chunks. -/
def HistoryStore.Settled (s : HistoryStore Bar Rest) : Prop :=
  ∀ writer ∈ s.writers, ¬ writer.phase.Replaces

/-- The ranges that a writer stores with its next command. -/
def Writer.stores (writer : Writer Bar) : Option (List HistoricChunkRange) :=
  match writer.phase with
  | .pushes offset ranges => if offset < writer.written.candles.length then none else some ranges
  | _ => none

/-- A writer begins while no other one replaces the chunks, and deletes them while nobody reads
them.  The metadata that it stores are those of another write only when the candles are.  The chunks
expire after the metadata, and the metadata go while no reader is about to look into the cache. -/
def Undisturbed (s : HistoryStore Bar Rest) : HistoryAction Bar Rest → Prop
  | .write _ => s.Settled ∧ s.LookedUp
  | .advance i rest => ∀ writer ∈ s.writers[i]?, (writer.phase = .deletesChunks → s.Unread) ∧
      ∀ ranges ∈ writer.stores, ∀ stored ∈ s.published, stored.1 = ⟨ranges, rest⟩ →
        stored.2.candles = writer.written.candles
  | .expireChunks => s.storedMeta = none ∧ s.Settled ∧ s.Unread
  | .expireMeta => s.LookedUp
  | _ => True

section Decidable

instance : ∀ phase : ReaderPhase Bar Rest, Decidable phase.Indexed
  | .indexed _ (some _) => isTrue trivial
  | .indexed _ none => isFalse id
  | .reading .. => isFalse id
  | .read .. => isFalse id
  | .batches .. => isFalse id
  | .answered _ => isFalse id

instance : ∀ phase : ReaderPhase Bar Rest, Decidable phase.Busy
  | .indexed _ (some _) => isTrue trivial
  | .reading .. => isTrue trivial
  | .batches .. => isTrue trivial
  | .indexed _ none => isFalse id
  | .read .. => isFalse id
  | .answered _ => isFalse id

instance : ∀ phase : WriterPhase, Decidable phase.Replaces
  | .deletesChunks => isTrue trivial
  | .pushes .. => isTrue trivial
  | .expiresChunks => isFalse id
  | .expiresMeta => isFalse id
  | .done => isFalse id

instance (s : HistoryStore Bar Rest) : Decidable s.Unread :=
  inferInstanceAs (Decidable (∀ reader ∈ s.readers, ¬ reader.phase.Busy))

instance (s : HistoryStore Bar Rest) : Decidable s.LookedUp :=
  inferInstanceAs (Decidable (∀ reader ∈ s.readers, ¬ reader.phase.Indexed))

instance (s : HistoryStore Bar Rest) : Decidable s.Settled :=
  inferInstanceAs (Decidable (∀ writer ∈ s.writers, ¬ writer.phase.Replaces))

instance [DecidableEq Bar] [DecidableEq Rest] (s : HistoryStore Bar Rest) :
    ∀ a, Decidable (Undisturbed s a)
  | .write _ => inferInstanceAs (Decidable (_ ∧ _))
  | .advance i rest => inferInstanceAs (Decidable (∀ writer ∈ s.writers[i]?,
      (writer.phase = .deletesChunks → s.Unread) ∧ ∀ ranges ∈ writer.stores,
        ∀ stored ∈ s.published, stored.1 = ⟨ranges, rest⟩ →
          stored.2.candles = writer.written.candles))
  | .expireChunks => inferInstanceAs (Decidable (_ ∧ _))
  | .expireMeta => inferInstanceAs (Decidable s.LookedUp)
  | .read _ => isTrue trivial
  | .proceed _ => isTrue trivial
  | .evict => isTrue trivial

end Decidable

/-! ### The invariant -/

/-- What a writer that replaces the chunks has done. -/
def WriterOk (s : HistoryStore Bar Rest) (writer : Writer Bar) : Prop :=
  match writer.phase with
  | .deletesChunks => s.storedMeta = none
  | .pushes offset ranges => s.storedMeta = none ∧ s.Unread ∧ ranges = s.chunks.map rangeOf ∧
      ∃ k ≤ writer.written.chunkCount, offset = k * historicChunkSize ∧
        s.chunks = writer.written.chunks.take k
  | _ => True

/-- What a reader has, and will have, of the chunks. -/
inductive ReaderOk (s : HistoryStore Bar Rest) : HistoryRequest → ReaderPhase Bar Rest → Prop
  | missing {request : HistoryRequest} {requested : ℕ} :
    ReaderOk s request (.indexed requested none)
  | indexed {limit : Option ℚ} {index : HistoricMeta Rest} (hstored : s.storedMeta = some index)
    (hpos : wholeCount limit ≠ 0) :
    ReaderOk s (.tail limit) (.indexed (wholeCount limit) (some index))
  | reading {limit : Option ℚ} {index : HistoricMeta Rest} {written : Written Bar}
    (hpublished : (index, written) ∈ s.published) (hchunks : s.chunks = written.chunks)
    (hpos : wholeCount limit ≠ 0) :
    ReaderOk s (.tail limit) (.reading (wholeCount limit) index
      (tailFirst index.ranges (index.ranges.length - 1) (wholeCount limit)))
  | read {limit : Option ℚ} {index : HistoricMeta Rest} {written : Written Bar}
    (hpublished : (index, written) ∈ s.published) (hpos : wholeCount limit ≠ 0) :
    ReaderOk s (.tail limit) (.read (wholeCount limit) index (written.tail (wholeCount limit)))
  | batches {bound other : ℚ} {batchChunks : Option ℚ} {index : HistoricMeta Rest}
    {written : Written Bar} {last cursor : ℕ} {selected : List (ℚ × HistoricCandle Bar)}
    (hpublished : (index, written) ∈ s.published) (hchunks : s.chunks = written.chunks)
    (hrest : sortedValues ((lrange s.chunks cursor last).foldl
      (selectChunk (min bound other) (max bound other)) selected) =
        (range bound other batchChunks).answer written) :
    ReaderOk s (.range bound other batchChunks)
      (.batches index (min bound other) (max bound other) (batchSize batchChunks) last cursor
        selected)
  | nothing {request : HistoryRequest} : ReaderOk s request (.answered .nothing)
  | legacy {request : HistoryRequest} : ReaderOk s request (.answered .legacy)
  | found {request : HistoryRequest} {index : HistoricMeta Rest} {written : Written Bar}
    (hpublished : (index, written) ∈ s.published) :
    ReaderOk s request (.answered (.found (request.answer written)))

/-- The invariant of undisturbed runs. -/
structure Consistent (s : HistoryStore Bar Rest) : Prop where
  distinct : ∀ p ∈ s.published, ∀ q ∈ s.published, p.1 = q.1 → p.2.candles = q.2.candles
  described : ∀ p ∈ s.published, p.1.ranges = p.2.ranges
  stored : ∀ index, s.storedMeta = some index →
    ∃ written, (index, written) ∈ s.published ∧ s.chunks = written.chunks
  turn : ∃ i, ∀ (j : ℕ) (writer : Writer Bar), s.writers[j]? = some writer →
    writer.phase.Replaces → j = i
  writers : ∀ writer ∈ s.writers, WriterOk s writer
  readers : ∀ reader ∈ s.readers, ReaderOk s reader.request reader.phase
  tails : ∀ entry ∈ s.tails, ∃ written, (entry.2.sig, written) ∈ s.published ∧
    entry.2.candles = written.tail entry.1

section Parties

variable {s t : HistoryStore Bar Rest} {request : HistoryRequest} {phase : ReaderPhase Bar Rest}

lemma ReaderOk.mono (h : ReaderOk s request phase) (hsub : s.published ⊆ t.published)
    (hmeta : phase.Indexed → t.storedMeta = s.storedMeta)
    (hsame : phase.Busy → t.chunks = s.chunks) : ReaderOk t request phase := by
  cases h with
  | missing => exact .missing
  | indexed hstored hpos => exact .indexed ((hmeta trivial).trans hstored) hpos
  | reading hpublished hchunks hpos =>
    exact .reading (hsub hpublished) ((hsame trivial).trans hchunks) hpos
  | read hpublished hpos => exact .read (hsub hpublished) hpos
  | batches hpublished hchunks hrest =>
    refine .batches (hsub hpublished) ((hsame trivial).trans hchunks) ?_
    rw [hsame trivial]
    exact hrest
  | nothing => exact .nothing
  | legacy => exact .legacy
  | found hpublished => exact .found (hsub hpublished)

lemma ReaderPhase.Indexed.busy (h : phase.Indexed) : phase.Busy := by
  unfold ReaderPhase.Indexed at h
  split at h
  · trivial
  · exact h.elim

lemma writerOk_of_not_replaces {writer : Writer Bar} (h : ¬ writer.phase.Replaces) :
    WriterOk s writer := by
  unfold WriterOk
  split
  · rename_i hph
    rw [hph] at h
    exact absurd trivial h
  · rename_i hph
    rw [hph] at h
    exact absurd trivial h
  · trivial

lemma WriterOk.mono {writer : Writer Bar} (h : WriterOk s writer)
    (hmeta : s.storedMeta = none → t.storedMeta = none)
    (hchun : writer.phase.Replaces → t.chunks = s.chunks)
    (hunrea : s.storedMeta = none → s.Unread → t.Unread) : WriterOk t writer := by
  unfold WriterOk at h ⊢
  split at h
  · exact hmeta h
  · rename_i hph
    obtain ⟨hnone, hbusy, hrang, hk⟩ := h
    rw [hph] at hchun
    rw [hchun trivial]
    exact ⟨hmeta hnone, hunrea hnone hbusy, hrang, hk⟩
  · trivial

end Parties

namespace Consistent

variable {s t : HistoryStore Bar Rest} {i : ℕ}

variable {writer next : Writer Bar} {written : Written Bar} {tails : List (ℕ × CachedTail Bar Rest)}

section

variable (h : Consistent s)

include h

lemma not_replaces_of_ne {other : Writer Bar} (hat : s.writers[i]? = some writer)
    (hph : writer.phase.Replaces) {j : ℕ} (hj : s.writers[j]? = some other) (hne : j ≠ i) :
    ¬ other.phase.Replaces := by
  obtain ⟨k, hturn⟩ := h.turn
  intro hoth
  exact hne ((hturn j other hj hoth).trans (hturn i writer hat hph).symm)

lemma turn_set (hat : s.writers[i]? = some writer)
    (hph : writer.phase.Replaces ∨ ¬ next.phase.Replaces) :
    ∃ k, ∀ (j : ℕ) (other : Writer Bar), (s.writers.set i next)[j]? = some other →
      other.phase.Replaces → j = k := by
  obtain ⟨k, hturn⟩ := h.turn
  refine ⟨k, fun j other hj hoth => ?_⟩
  by_cases hij : i = j
  · subst hij
    rcases hph with hph | hnext
    · exact hturn i writer hat hph
    · rw [getElem?_set_self'] at hj
      obtain ⟨_, -, rfl⟩ := map_eq_some_iff.mp hj
      exact absurd hoth hnext
  · rw [getElem?_set_ne hij] at hj
    exact hturn j other hj hoth

lemma writers_set (hat : s.writers[i]? = some writer)
    (hph : writer.phase.Replaces) (hnext : WriterOk t next) :
    ∀ other ∈ s.writers.set i next, WriterOk t other := by
  intro other hoth
  rcases mem_set_cases hoth with rfl | ⟨j, hne, hj⟩
  · exact hnext
  · exact writerOk_of_not_replaces (h.not_replaces_of_ne hat hph hj hne)

lemma readers_of_unread (hunrea : s.Unread) (hsub : s.published ⊆ t.published) :
    ∀ reader ∈ s.readers, ReaderOk t reader.request reader.phase :=
  fun reader hreade => (h.readers reader hreade).mono hsub
    (fun hidxd => absurd hidxd.busy (hunrea reader hreade))
    fun hbusy => absurd hbusy (hunrea reader hreade)

lemma readers_of_lookedUp (hlook : s.LookedUp)
    (hsub : s.published ⊆ t.published) (hchun : t.chunks = s.chunks) :
    ∀ reader ∈ s.readers, ReaderOk t reader.request reader.phase :=
  fun reader hreade => (h.readers reader hreade).mono hsub
    (fun hidxd => absurd hidxd (hlook reader hreade)) fun _ => hchun

lemma write (written : Written Bar) (hsettl : s.Settled) (hlook : s.LookedUp) :
    Consistent { s with
      storedMeta := none
      metaExpires := false
      writers := s.writers ++ [⟨written, .deletesChunks⟩] } := by
  refine { h with
    stored := fun index hidx => by cases hidx
    turn := ⟨s.writers.length, fun j writer hj hph => ?_⟩
    writers := fun writer hwrit => ?_
    readers := h.readers_of_lookedUp hlook (List.Subset.refl _) rfl }
  · rcases lt_or_ge j s.writers.length with hlt | hge
    · rw [getElem?_append_left hlt] at hj
      exact absurd hph (hsettl writer (mem_of_getElem? hj))
    · have hlt := (List.getElem?_eq_some_iff.mp hj).1
      rw [length_append, length_singleton] at hlt
      omega
  · rcases mem_append.mp hwrit with hold | hnew
    · exact writerOk_of_not_replaces (hsettl writer hold)
    · rw [mem_singleton.mp hnew]
      exact rfl

section

variable {offset : ℕ} {ranges : List HistoricChunkRange}
  (hat : s.writers[i]? = some ⟨written, .pushes offset ranges⟩)

include hat

lemma push (hmore : offset < written.candles.length) :
    Consistent { s with
      chunks := s.chunks ++ [written.chunkAt offset]
      writers := s.writers.set i ⟨written, .pushes (offset + historicChunkSize)
        (ranges ++ [rangeOf (written.chunkAt offset)])⟩ } := by
  obtain ⟨hnone, hunrea, hrang, k, hk, hoffs, hchun⟩ := h.writers _ (mem_of_getElem? hat)
  have hlt : k < written.chunkCount := written.lt_chunkCount_iff.mpr (hoffs ▸ hmore)
  have htake : s.chunks ++ [written.chunkAt offset] = written.chunks.take (k + 1) := by
    rw [written.take_chunks_succ hlt, hchun, hoffs]
  refine { h with
    stored := fun index hidx => by rw [hnone] at hidx; cases hidx
    turn := h.turn_set hat (.inl trivial)
    writers := h.writers_set hat trivial ⟨hnone, hunrea, ?_, k + 1, hlt, ?_, htake⟩
    readers := h.readers_of_unread hunrea (List.Subset.refl _) }
  · rw [hrang, map_append]
    rfl
  · rw [hoffs, succ_mul]

lemma publish (hall : ¬ offset < written.candles.length) {rest : Rest}
    (hnew : ∀ p ∈ s.published, p.1 = ⟨ranges, rest⟩ → p.2.candles = written.candles) :
    Consistent { s with
      storedMeta := some ⟨ranges, rest⟩
      published := s.published ++ [(⟨ranges, rest⟩, written)]
      writers := s.writers.set i ⟨written, .expiresChunks⟩ } := by
  obtain ⟨hnone, hunrea, hrang, k, hk, hoffs, hchun⟩ := h.writers _ (mem_of_getElem? hat)
  have hcnt : k = written.chunkCount := by
    by_contra hne
    exact hall (hoffs ▸ written.lt_chunkCount_iff.mp (lt_of_le_of_ne hk hne))
  have hwhole : s.chunks = written.chunks := by
    rw [hchun, hcnt, ← written.length_chunks, take_length]
  refine {
    distinct := fun p hp q hq hsame => ?_
    described := fun p hp => ?_
    stored := fun index hidx => ?_
    turn := h.turn_set hat (.inl trivial)
    writers := h.writers_set hat trivial trivial
    readers := h.readers_of_unread hunrea (subset_append_left _ _)
    tails := fun entry hent => ?_ }
  · rcases mem_append.mp hp with hp | hp <;> rcases mem_append.mp hq with hq | hq
    · exact h.distinct p hp q hq hsame
    · rw [mem_singleton.mp hq] at hsame ⊢
      exact hnew p hp hsame
    · rw [mem_singleton.mp hp] at hsame ⊢
      exact (hnew q hq hsame.symm).symm
    · rw [mem_singleton.mp hp, mem_singleton.mp hq]
  · rcases mem_append.mp hp with hp | hp
    · exact h.described p hp
    · rw [mem_singleton.mp hp]
      exact hrang.trans (congrArg _ hwhole)
  · cases hidx
    exact ⟨written, mem_concat_self, hwhole⟩
  · obtain ⟨owner, howner, htail⟩ := h.tails entry hent
    exact ⟨owner, mem_append_left _ howner, htail⟩

end

lemma expires (hat : s.writers[i]? = some writer) (hnext : ¬ next.phase.Replaces)
    (metaExpires chunksExpires : Bool) :
    Consistent { s with
      metaExpires := metaExpires
      chunksExpires := chunksExpires
      writers := s.writers.set i next } := by
  refine { h with
    turn := h.turn_set hat (.inr hnext)
    writers := fun other hoth => ?_
    readers := fun reader hreade => (h.readers reader hreade).mono (List.Subset.refl _)
      (fun _ => rfl) fun _ => rfl }
  rcases mem_set_cases hoth with rfl | ⟨j, -, hj⟩
  · exact writerOk_of_not_replaces hnext
  · exact (h.writers other (mem_of_getElem? hj)).mono id (fun _ => rfl) fun _ => id

end

lemma advance {rest : Rest} (h : Consistent s) (hcond : Undisturbed s (.advance i rest))
    (hstep : HistoricCandles.advance s i rest = some t) : Consistent t := by
  unfold HistoricCandles.advance at hstep
  split at hstep
  · cases hstep
  · rename_i written phase hat
    obtain ⟨hfree, hnew⟩ := hcond _ hat
    cases phase with
    | deletesChunks =>
      cases hstep
      have hnone : s.storedMeta = none := h.writers _ (mem_of_getElem? hat)
      have hunrea := hfree rfl
      exact { h with
        stored := fun index hidx => by rw [hnone] at hidx; cases hidx
        turn := h.turn_set hat (.inl trivial)
        writers := h.writers_set hat trivial ⟨hnone, hunrea, rfl, 0, zero_le _,
          (zero_mul _).symm, rfl⟩
        readers := h.readers_of_unread hunrea (List.Subset.refl _) }
    | pushes offset ranges =>
      dsimp only at hstep
      split at hstep
      · rename_i hmore
        cases hstep
        exact h.push hat hmore
      · rename_i hall
        cases hstep
        unfold Writer.stores at hnew
        dsimp only at hnew
        rw [if_neg hall] at hnew
        exact h.publish hat hall (hnew ranges rfl)
    | expiresChunks =>
      cases hstep
      exact h.expires hat id _ _
    | expiresMeta =>
      cases hstep
      exact h.expires hat id _ _
    | done => cases hstep

lemma ranges_eq (h : Consistent s) {index : HistoricMeta Rest}
    (hpub : (index, written) ∈ s.published) : index.ranges = written.ranges :=
  h.described _ hpub

variable (request)

lemma startRead_ok (h : Consistent s) :
    ReaderOk s request (startRead s.storedMeta request) := by
  cases request with
  | tail limit =>
    unfold startRead
    dsimp only
    split
    · exact .nothing
    · rename_i hpos
      cases hstor : s.storedMeta with
      | none => exact .missing
      | some index => exact .indexed hstor hpos
  | range bound other batchChunks =>
    unfold startRead
    cases hstor : s.storedMeta with
    | none => exact .legacy
    | some index =>
      obtain ⟨written, hpub, hchun⟩ := h.stored index hstor
      have hrang := h.ranges_eq hpub
      have hne := written.ranges_ne_nil
      dsimp only
      rw [hrang, if_neg hne]
      split
      · rename_i hfnd
        have hans : (range bound other batchChunks).answer written = [] :=
          getHistoricCandlesForRange_of_none batchChunks hne hfnd
        rw [← hans]
        exact .found hpub
      · rename_i first hfnd
        refine .batches hpub hchun ?_
        rw [hchun]
        exact (getHistoricCandlesForRange_of_some batchChunks hne hfnd).symm

lemma startRead_not_busy : ¬ (startRead none request : ReaderPhase Bar Rest).Busy := by
  cases request with
  | tail limit =>
    unfold startRead
    dsimp only
    split <;> exact id
  | range bound other batchChunks => exact id

lemma read (h : Consistent s) : Consistent { s with
      readers := s.readers ++ [⟨request, startRead s.storedMeta request⟩] } := by
  refine { h with
    writers := fun writer hwrit => (h.writers writer hwrit).mono id (fun _ => rfl) ?_
    readers := fun reader hreade => ?_ }
  · intro hnone hunrea
    refine forall_mem_concat hunrea ?_
    rw [hnone]
    exact startRead_not_busy request
  · have hok := forall_mem_concat h.readers (h.startRead_ok request) reader hreade
    exact hok.mono (List.Subset.refl _) (fun _ => rfl) fun _ => rfl

variable {request}

lemma mem_dropTail_append {requested : ℕ} {cached : CachedTail Bar Rest}
    {entry : ℕ × CachedTail Bar Rest}
    (h : entry ∈ dropTail tails requested ++ [(requested, cached)]) :
    entry ∈ tails ∨ entry = (requested, cached) :=
  (mem_append.mp h).imp mem_of_mem_filter mem_singleton.mp

variable {phase next : ReaderPhase Bar Rest}

/-- A read returns tails of what was published. -/
lemma proceedRead_ok [DecidableEq Rest] (h : Consistent s) {request : HistoryRequest}
    (hok : ReaderOk s request phase)
    (hstep : proceedRead s phase = some (tails, next)) :
    ReaderOk s request next ∧ ∀ entry ∈ tails, ∃ written,
      (entry.2.sig, written) ∈ s.published ∧ entry.2.candles = written.tail entry.1 := by
  cases hok with
  | missing =>
    obtain ⟨rfl, rfl⟩ := mk.inj (some.inj hstep)
    exact ⟨.legacy, fun entry hent => h.tails entry (mem_of_mem_filter hent)⟩
  | @indexed limit index hstor hpos =>
    obtain ⟨written, hpub, hchun⟩ := h.stored index hstor
    have hne : index.ranges ≠ [] := h.ranges_eq hpub ▸ written.ranges_ne_nil
    unfold proceedRead at hstep
    dsimp only at hstep
    rw [if_neg hne] at hstep
    split at hstep
    · obtain ⟨rfl, rfl⟩ := mk.inj (some.inj hstep)
      exact ⟨.reading hpub hchun hpos, h.tails⟩
    · rename_i cached hcach
      split at hstep
      · -- a hit
        obtain ⟨rfl, rfl⟩ := mk.inj (some.inj hstep)
        obtain ⟨owner, howner, htail⟩ := h.tails _ (mem_of_get? hcach)
        refine ⟨?_, fun entry hmem => ?_⟩
        · rw [htail, ← answer_tail owner hpos]
          exact .found howner
        · rcases mem_dropTail_append hmem with hold | rfl
          · exact h.tails entry hold
          · exact ⟨owner, howner, htail⟩
      · obtain ⟨rfl, rfl⟩ := mk.inj (some.inj hstep)
        exact ⟨.reading hpub hchun hpos, h.tails⟩
  | @reading limit index written hpub hchun hpos =>
    obtain ⟨rfl, rfl⟩ := mk.inj (some.inj hstep)
    rw [h.ranges_eq hpub, hchun]
    exact ⟨.read hpub hpos, h.tails⟩
  | @read limit index written hpub hpos =>
    obtain ⟨rfl, rfl⟩ := mk.inj (some.inj hstep)
    refine ⟨?_, fun entry hent => ?_⟩
    · rw [← answer_tail written hpos]
      exact .found hpub
    · rcases mem_dropTail_append (mem_of_mem_drop hent) with hold | rfl
      · exact h.tails entry hold
      · exact ⟨written, hpub, rfl⟩
  | @batches bound other batchChunks index written last cursor selected hpub hchun hrest =>
    have hbatch : 0 < batchSize batchChunks := by
      unfold batchSize
      omega
    unfold proceedRead at hstep
    dsimp only at hstep
    split at hstep
    · -- more batches follow
      obtain ⟨rfl, rfl⟩ := mk.inj (some.inj hstep)
      have hsplit : lrange s.chunks cursor (cursor + batchSize batchChunks - 1) ++
          lrange s.chunks (cursor + batchSize batchChunks) last = lrange s.chunks cursor last :=
        lrange_append s.chunks (le_add_right _ _) (by omega) (by omega)
      have hend : min last (cursor + batchSize batchChunks - 1) =
          cursor + batchSize batchChunks - 1 := by omega
      refine ⟨.batches hpub hchun ?_, h.tails⟩
      rw [hend, ← foldl_append, hsplit]
      exact hrest
    · -- the last batch
      obtain ⟨rfl, rfl⟩ := mk.inj (some.inj hstep)
      have hend : min last (cursor + batchSize batchChunks - 1) = last := by omega
      rw [hend, hrest]
      exact ⟨.found hpub, h.tails⟩
  | nothing => cases hstep
  | legacy => cases hstep
  | found _ => cases hstep

lemma proceedRead_not_busy [DecidableEq Rest]
    (hph : ¬ phase.Busy) (hstep : proceedRead s phase = some (tails, next)) : ¬ next.Busy := by
  cases phase with
  | indexed requested index =>
    cases index with
    | none =>
      obtain ⟨rfl, rfl⟩ := mk.inj (some.inj hstep)
      exact id
    | some index => exact absurd trivial hph
  | reading requested index first => exact absurd trivial hph
  | read requested index tail =>
    obtain ⟨rfl, rfl⟩ := mk.inj (some.inj hstep)
    exact id
  | batches index startMs endMs batch last cursor selected => exact absurd trivial hph
  | answered answer => cases hstep

lemma proceed [DecidableEq Rest] (h : Consistent s) {request : HistoryRequest}
    (hat : s.readers[i]? = some ⟨request, phase⟩)
    (hstep : proceedRead s phase = some (tails, next)) :
    Consistent { s with
      tails := tails
      readers := s.readers.set i ⟨request, next⟩ } := by
  have hmem := mem_of_getElem? hat
  obtain ⟨hnext, htails⟩ := h.proceedRead_ok (h.readers _ hmem) hstep
  refine { h with
    writers := fun writer hwrit => (h.writers writer hwrit).mono id (fun _ => rfl) ?_
    readers := fun reader hreade => ?_
    tails := htails }
  · intro _ hunrea
    exact forall_mem_set hunrea (proceedRead_not_busy (hunrea _ hmem) hstep)
  · have hok := forall_mem_set h.readers hnext reader hreade
    exact hok.mono (List.Subset.refl _) (fun _ => rfl) fun _ => rfl

lemma step [DecidableEq Rest] (h : Consistent s) {a : HistoryAction Bar Rest}
    (hcond : Undisturbed s a) (hstep : historyStep s a = some t) : Consistent t := by
  cases a with
  | write written =>
    cases hstep
    exact h.write written hcond.1 hcond.2
  | advance i rest => exact h.advance hcond hstep
  | read request =>
    cases hstep
    exact h.read request
  | proceed i =>
    unfold historyStep at hstep
    dsimp only at hstep
    split at hstep
    · cases hstep
    · rename_i request phase hat
      obtain ⟨⟨tails, next⟩, hproc, rfl⟩ := map_eq_some_iff.mp hstep
      exact h.proceed hat hproc
  | evict =>
    cases hstep
    exact { h with
      writers := fun writer hwrit => (h.writers writer hwrit).mono id (fun _ => rfl) fun _ => id
      readers := fun reader hreade => (h.readers reader hreade).mono (List.Subset.refl _)
        (fun _ => rfl) fun _ => rfl
      tails := fun entry hent => h.tails entry (mem_of_mem_drop hent) }
  | expireChunks =>
    obtain ⟨-, hsome⟩ := ite_none_right_eq_some.mp hstep
    cases hsome
    obtain ⟨hnone, hsettl, hunrea⟩ := hcond
    exact { h with
      stored := fun index hidx => by rw [hnone] at hidx; cases hidx
      writers := fun writer hwrit => writerOk_of_not_replaces (hsettl writer hwrit)
      readers := h.readers_of_unread hunrea (List.Subset.refl _) }
  | expireMeta =>
    obtain ⟨-, hsome⟩ := ite_none_right_eq_some.mp hstep
    cases hsome
    exact { h with
      stored := fun index hidx => by cases hidx
      writers := fun writer hwrit => (h.writers writer hwrit).mono (fun _ => rfl) (fun _ => rfl)
        fun _ => id
      readers := h.readers_of_lookedUp hcond (List.Subset.refl _) rfl }

lemma noMixture (h : Consistent s) : NoMixture s where
  answers := fun reader hreade candles hph => by
    have hok := h.readers reader hreade
    obtain ⟨request, phase⟩ := reader
    obtain rfl : phase = .answered (.found candles) := hph
    dsimp only at hok
    cases hok with
    | @found _ index written hpub =>
      exact ⟨index, written, hpub, rfl, fun hsort => request.answer_eq_selection hsort⟩
  stored := fun index hidx _ => by
    obtain ⟨written, hpub, hchun⟩ := h.stored index hidx
    exact ⟨(h.ranges_eq hpub).trans (congrArg _ hchun.symm), written, hpub, hchun⟩
  cached := fun reader hreade requested index hph cached hcach hsig => by
    have hok := h.readers reader hreade
    obtain ⟨request, phase⟩ := reader
    obtain rfl : phase = .indexed requested (some index) := hph
    cases hok with
    | indexed hstor hpos =>
      obtain ⟨written, hpub, hchun⟩ := h.stored index hstor
      obtain ⟨owner, howner, htail⟩ := h.tails _ (mem_of_get? hcach)
      have hsame := written.chunks_eq (h.distinct _ hpub _ howner hsig.symm)
      exact ⟨hstor, owner, hsig ▸ howner, hchun.trans hsame, htail⟩

end Consistent

lemma consistent_empty : Consistent (({} : HistoryStore Bar Rest)) where
  distinct := forall_mem_nil _
  described := forall_mem_nil _
  stored := fun _ h => by cases h
  turn := ⟨0, nofun⟩
  writers := forall_mem_nil _
  readers := forall_mem_nil _
  tails := forall_mem_nil _

/-- **No mixture.** After every undisturbed run, however writers and readers interleave, every
answer from the chunks is that of one write and complete, the metadata describes the chunks, and the
cache is used only while the store has what the tail was read from. -/
theorem noMixture_of_undisturbed [DecidableEq Rest] {actions : List (HistoryAction Bar Rest)}
    {s : HistoryStore Bar Rest} (hmeets : Meets historyStep Undisturbed {} actions)
    (hrun : run historyStep {} actions = some s) : NoMixture s :=
  (invariant_of_meets (fun _ _ _ h hcond hstep => h.step hcond hstep) consistent_empty
    hmeets hrun).noMixture

/-- A history of one candle. -/
def oneCandle (timestamp : ℚ) (h : 0 < timestamp) : Written Unit :=
  ⟨[⟨timestamp, (), h⟩], cons_ne_nil _ _⟩

/-- All commands of a writer after its first one. -/
def wholeWrite (i : ℕ) : List (HistoryAction Unit Unit) := replicate 5 (.advance i ())

/-- Two readers of a history; the second one puts its tail into the cache after the next writer has
replaced the chunks.  The third reader comes before the metadata of that writer, the fourth before
it has ended. -/
def writesAndReads : List (HistoryAction Unit Unit) :=
  .write (oneCandle 1 one_pos) :: wholeWrite 0 ++
    [.read (.tail (some 1)), .read (.tail (some 1)), .proceed 0, .proceed 1, .proceed 0, .proceed 0,
      .proceed 1, .write (oneCandle 2 two_pos), .read (.tail (some 1)), .advance 1 (), .proceed 2,
      .advance 1 (), .proceed 1, .advance 1 (), .read (.tail (some 1)), .proceed 3, .advance 1 (),
      .proceed 3, .advance 1 (), .proceed 3]

theorem noMixture_writesAndReads : ∃ s, run historyStep {} writesAndReads = some s ∧ NoMixture s ∧
      s.readers.map Reader.phase = [.answered (.found (oneCandle 1 one_pos).candles),
        .answered (.found (oneCandle 1 one_pos).candles), .answered .legacy,
        .answered (.found (oneCandle 2 two_pos).candles)] := by
  have hphases : (run historyStep {} writesAndReads).map (fun s => s.readers.map Reader.phase) =
      some [.answered (.found (oneCandle 1 one_pos).candles),
        .answered (.found (oneCandle 1 one_pos).candles), .answered .legacy,
        .answered (.found (oneCandle 2 two_pos).candles)] := by decide +kernel
  obtain ⟨s, hs, hreaders⟩ := map_eq_some_iff.mp hphases
  exact ⟨s, hs, noMixture_of_undisturbed (by decide +kernel) hs, hreaders⟩

/-- While a reader has the metadata of the first history, a second writer deletes its chunks. -/
def overtakenRead : List (HistoryAction Unit Unit) :=
  .write (oneCandle 1 one_pos) :: wholeWrite 0 ++
    [.read (.tail (some 1)), .write (oneCandle 2 two_pos), .advance 1 (), .proceed 0, .proceed 0,
      .proceed 0]

/-- The reader finds nothing in the chunks, although every write has a candle, and puts this into
the cache. -/
theorem not_noMixture_overtakenRead :
    ¬ ∀ (actions : List (HistoryAction Unit Unit)) (s : HistoryStore Unit Unit),
      run historyStep {} actions = some s → NoMixture s := by
  intro h
  have hsome : (run historyStep {} overtakenRead).isSome = true := by decide +kernel
  obtain ⟨s, hs⟩ := isSome_iff_exists.mp hsome
  have hreaders : (run historyStep {} overtakenRead).map HistoryStore.readers =
      some [⟨.tail (some 1), .answered (.found [])⟩] := by decide +kernel
  have hpublished : (run historyStep {} overtakenRead).map HistoryStore.published =
      some [(⟨[⟨1, 1, 1⟩], ()⟩, oneCandle 1 one_pos)] := by decide +kernel
  rw [hs] at hreaders hpublished
  have hmem : ⟨.tail (some 1), .answered (.found [])⟩ ∈ s.readers := by
    rw [some.inj hreaders]
    exact mem_singleton_self _
  obtain ⟨index, written, hpair, hanswer, -⟩ := (h _ s hs).answers _ hmem [] rfl
  rw [some.inj hpublished] at hpair
  obtain ⟨-, rfl⟩ := mk.inj (mem_singleton.mp hpair)
  revert hanswer
  decide +kernel

end CtsEngine.HistoricCandles
