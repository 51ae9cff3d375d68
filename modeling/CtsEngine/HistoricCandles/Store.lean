import CtsEngine.HistoricCandles.Chunks
import CtsEngine.Transition.Runs

/-!
# Writers and readers of one history

The chunks of a symbol and their metadata are two keys of Redis.  A writer deletes both, appends the
chunks one after the other and stores the metadata again; a reader gets the metadata and then the
chunks that it needs.  Each of these is a command of its own, and writers and readers interleave.

The metadata is one string.  The readers look at the ranges in it and compare it as a whole, so
everything else in it (the number of candles, their coverage, the interval, the time of the write)
is one value, which the surroundings choose when it is stored.
-/

namespace CtsEngine.HistoricCandles

variable {Bar Rest : Type*}

/-- `HISTORIC_CHUNK_SIZE`. -/
def historicChunkSize : ℕ := 2000

/-- `HISTORIC_TAIL_MAX_ENTRIES`. -/
def historicTailMaxEntries : ℕ := 256

/-- What a call of `writeHistoricCandleChunks` writes.  The callers write complete histories only,
so there are candles. -/
structure Written (Bar : Type*) where
  candles : List (HistoricCandle Bar)
  nonempty : candles ≠ []
deriving DecidableEq

/-- The value of the metadata key. -/
structure HistoricMeta (Rest : Type*) where
  ranges : List HistoricChunkRange
  rest : Rest
deriving DecidableEq

/-- The next command of a writer. -/
inductive WriterPhase
  | deletesChunks
  | pushes (offset : ℕ) (ranges : List HistoricChunkRange)
  | expiresChunks
  | expiresMeta
  | done
deriving DecidableEq

/-- A call of `writeHistoricCandleChunks` after its first command. -/
structure Writer (Bar : Type*) where
  written : Written Bar
  phase : WriterPhase

/-- A call of a reader. -/
inductive HistoryRequest
  | tail (limit : Option ℚ)
  | range (bound other : ℚ) (batchChunks : Option ℚ)
deriving DecidableEq

/-- What a reader returns. -/
inductive HistoryAnswer (Bar : Type*)
  /-- No candles were requested. -/
  | nothing
  /-- The candles of the legacy key, as there was no metadata. -/
  | legacy
  | found (candles : List (HistoricCandle Bar))
deriving DecidableEq

/-- How far a reader is. -/
inductive ReaderPhase (Bar Rest : Type*)
  /-- A tail is wanted, and its reader has the metadata. -/
  | indexed (requested : ℕ) (index : Option (HistoricMeta Rest))
  /-- The tail is not in the cache. -/
  | reading (requested : ℕ) (index : HistoricMeta Rest) (first : ℕ)
  | read (requested : ℕ) (index : HistoricMeta Rest) (tail : List (HistoricCandle Bar))
  /-- A range is wanted, of which the chunks from `cursor` to `last` are missing. -/
  | batches (index : HistoricMeta Rest) (startMs endMs : ℚ) (batch last cursor : ℕ)
    (selected : List (ℚ × HistoricCandle Bar))
  | answered (answer : HistoryAnswer Bar)
deriving DecidableEq

/-- A call of `getHistoricCandleTail` or `getHistoricCandlesForRange` after its first command. -/
structure Reader (Bar Rest : Type*) where
  request : HistoryRequest
  phase : ReaderPhase Bar Rest
deriving DecidableEq

/-- An entry of the tail cache. -/
structure CachedTail (Bar Rest : Type*) where
  candles : List (HistoricCandle Bar)
  sig : HistoricMeta Rest

/-- The two keys of a symbol, the tails of the symbol in the cache of the process by how many
candles they have, and the calls. -/
structure HistoryStore (Bar Rest : Type*) where
  storedMeta : Option (HistoricMeta Rest) := none
  chunks : List (List (HistoricCandle Bar)) := []
  /-- The keys have a time to live. -/
  metaExpires : Bool := false
  chunksExpires : Bool := false
  tails : List (ℕ × CachedTail Bar Rest) := []
  writers : List (Writer Bar) := []
  readers : List (Reader Bar Rest) := []
  /-- The metadata that were stored so far, each with what its writer wrote. -/
  published : List (HistoricMeta Rest × Written Bar) := []

/-- What happens next. -/
inductive HistoryAction (Bar Rest : Type*)
  /-- A call of `writeHistoricCandleChunks`, with its first command. -/
  | write (written : Written Bar)
  /-- The next command of a writer; `rest` is what it would store besides the ranges. -/
  | advance (i : ℕ) (rest : Rest)
  /-- A call of a reader, with its first command. -/
  | read (request : HistoryRequest)
  /-- The next step of a reader. -/
  | proceed (i : ℕ)
  /-- The tails of other symbols drive out the oldest one. -/
  | evict
  /-- The times to live end. -/
  | expireChunks
  | expireMeta

/-- `candles.slice(offset, offset + HISTORIC_CHUNK_SIZE)`. -/
def Written.chunkAt (written : Written Bar) (offset : ℕ) : List (HistoricCandle Bar) :=
  (written.candles.drop offset).take historicChunkSize

/-- The next command of a writer. -/
def advance (s : HistoryStore Bar Rest) (i : ℕ) (rest : Rest) : Option (HistoryStore Bar Rest) :=
  match s.writers[i]? with
  | none => none
  | some ⟨written, phase⟩ =>
    match phase with
    | .deletesChunks => some { s with
        chunks := []
        chunksExpires := false
        writers := s.writers.set i ⟨written, .pushes 0 []⟩ }
    | .pushes offset ranges =>
      if offset < written.candles.length then
        let chunk := written.chunkAt offset
        let next := WriterPhase.pushes (offset + historicChunkSize) (ranges ++ [rangeOf chunk])
        some { s with
          chunks := s.chunks ++ [chunk]
          writers := s.writers.set i ⟨written, next⟩ }
      else some { s with
        storedMeta := some ⟨ranges, rest⟩
        published := s.published ++ [(⟨ranges, rest⟩, written)]
        writers := s.writers.set i ⟨written, .expiresChunks⟩ }
    | .expiresChunks => some { s with
        chunksExpires := s.chunksExpires || !s.chunks.isEmpty
        writers := s.writers.set i ⟨written, .expiresMeta⟩ }
    | .expiresMeta => some { s with
        metaExpires := s.metaExpires || s.storedMeta.isSome
        writers := s.writers.set i ⟨written, .done⟩ }
    | .done => none

def startRead (storedMeta : Option (HistoricMeta Rest)) : HistoryRequest → ReaderPhase Bar Rest
  | .tail limit =>
    if wholeCount limit = 0 then .answered .nothing else .indexed (wholeCount limit) storedMeta
  | .range bound other batchChunks =>
    let startMs := min bound other
    let endMs := max bound other
    match storedMeta with
    | none => .answered .legacy
    | some index =>
      if index.ranges = [] then .answered .legacy
      else
        match index.ranges.findIdx? fun range => startMs ≤ range.endAt ∧ range.start ≤ endMs with
        | none => .answered (.found [])
        | some first => .batches index startMs endMs (batchSize batchChunks)
            (rangeLast index.ranges first endMs) first []

/-- `HISTORIC_TAIL_CACHE.delete`. -/
def dropTail (tails : List (ℕ × CachedTail Bar Rest)) (requested : ℕ) :
    List (ℕ × CachedTail Bar Rest) := tails.filter fun entry => entry.1 ≠ requested

def storeHistoricTail (tails : List (ℕ × CachedTail Bar Rest)) (requested : ℕ)
    (cached : CachedTail Bar Rest) : List (ℕ × CachedTail Bar Rest) :=
  let stored := dropTail tails requested ++ [(requested, cached)]
  stored.drop (stored.length - historicTailMaxEntries)

/-- The next step of a reader: the tails in the cache, and its phase after the step. -/
def proceedRead [DecidableEq Rest] (s : HistoryStore Bar Rest) :
    ReaderPhase Bar Rest → Option (List (ℕ × CachedTail Bar Rest) × ReaderPhase Bar Rest)
  | .indexed requested none => some (dropTail s.tails requested, .answered .legacy)
  | .indexed requested (some index) =>
    if index.ranges = [] then some (dropTail s.tails requested, .answered .legacy)
    else
      let first := tailFirst index.ranges (index.ranges.length - 1) requested
      match Keyed.get? s.tails requested with
      | none => some (s.tails, .reading requested index first)
      | some cached =>
        if cached.sig = index then
          some (dropTail s.tails requested ++ [(requested, cached)],
            .answered (.found cached.candles))
        else some (s.tails, .reading requested index first)
  | .reading requested index first =>
    some (s.tails, .read requested index (sliceFromEnd requested
      (normalizeHistoricCandles (lrange s.chunks first (index.ranges.length - 1)))))
  | .read requested index tail =>
    some (storeHistoricTail s.tails requested ⟨tail, index⟩, .answered (.found tail))
  | .batches index startMs endMs batch last cursor selected =>
    let batchEnd := min last (cursor + batch - 1)
    let selected' := (lrange s.chunks cursor batchEnd).foldl (selectChunk startMs endMs) selected
    if cursor + batch ≤ last then
      some (s.tails, .batches index startMs endMs batch last (cursor + batch) selected')
    else some (s.tails, .answered (.found (sortedValues selected')))
  | .answered _ => none

/-- One step of the calls of a symbol. -/
def historyStep [DecidableEq Rest] (s : HistoryStore Bar Rest) :
    HistoryAction Bar Rest → Option (HistoryStore Bar Rest)
  | .write written => some { s with
      storedMeta := none
      metaExpires := false
      writers := s.writers ++ [⟨written, .deletesChunks⟩] }
  | .advance i rest => advance s i rest
  | .read request => some { s with
      readers := s.readers ++ [⟨request, startRead s.storedMeta request⟩] }
  | .proceed i =>
    match s.readers[i]? with
    | none => none
    | some ⟨request, phase⟩ => (proceedRead s phase).map fun (tails, next) => { s with
        tails := tails
        readers := s.readers.set i ⟨request, next⟩ }
  | .evict => some { s with tails := s.tails.drop 1 }
  | .expireChunks =>
    if s.chunksExpires then some { s with chunks := [], chunksExpires := false } else none
  | .expireMeta =>
    if s.metaExpires then some { s with storedMeta := none, metaExpires := false } else none

end CtsEngine.HistoricCandles
