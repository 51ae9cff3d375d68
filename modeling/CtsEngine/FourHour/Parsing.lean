import CtsEngine.Foundation.Grouping
import CtsEngine.Foundation.NumberText
import CtsEngine.Foundation.Tally
import Mathlib.Algebra.Group.Pi.Lemmas
import Mathlib.Data.List.Sort

/-!
# Recording four-hour statistics

The recorders of `lib/historic-four-hour-stats.ts`.  A batch collects its recordings in an
accumulator, a map from the start of a window to the numbers of that window, and leaves as a list
of increments for the fields of a stored hash, one field for each number that is not zero.

Numbers are exact.  `Date.parse` is given: it reads the times that are not numbers.

`parseHistoricFourHourAggregate` of `lib/historic-four-hour-stats.ts`.  The stored hash is given by
the fields of its windows, with the numbers that their values read as, and by the texts of its
other fields.  `none` is a thrown error: `toISOString` knows no time past its last millisecond.
-/

namespace CtsEngine

/-! ## Values -/

/-- A value of an item, of unknown type. -/
inductive StatValue
  | undefined
  | null
  | boolean (b : Bool)
  | number (x : Double)
  | text (s : String)

namespace StatValue

/-- `Number(value)`. -/
def toNumber : StatValue → Double
  | undefined => .nan
  | null => .finite 0
  | boolean b => .finite (if b then 1 else 0)
  | number x => x
  | text s => numberOfString s

/-- `a ?? b`. -/
def orElse : StatValue → StatValue → StatValue
  | undefined, other => other
  | null, other => other
  | value, _ => value

/-- `String(value).trim().toLowerCase() === word`, for the words that the recorders compare with;
only a text can be one of them. -/
def reads (value : StatValue) (word : String) : Bool :=
  match value with
  | text s => toLowerCase (trim s) == word
  | _ => false

end StatValue

/-- `Number.isFinite(x)`. -/
def Double.isFinite : Double → Bool
  | .finite _ => true
  | _ => false

/-- `finite`. -/
def finiteOr (value : Double) (fallback : ℚ) : ℚ :=
  match value with
  | .finite parsed => parsed
  | _ => fallback

/-- `Math.max(0, Math.floor(finite(value, fallback)))`. -/
def wholeNumber (value : Double) (fallback : ℚ) : ℕ := ⌊finiteOr value fallback⌋.toNat

/-- `HISTORIC_FOUR_HOUR_BUCKET_MS`. -/
def historicFourHourBucketMs : ℕ := 4 * 60 * 60 * 1000

/-- A numeric time, in seconds below `10 ^ 11` and in milliseconds from there on. -/
def epochOfNumber : Double → Option ℕ
  | .finite parsed =>
    if parsed ≤ 0 then none
    else some ⌊if parsed < 100000000000 then parsed * 1000 else parsed⌋.toNat
  | _ => none

variable (dateParse : String → Option ℤ)

def historicEpochMs : StatValue → Option ℕ
  | .number x => epochOfNumber x
  | .text s =>
    if trim s ≠ "" ∧ (numberOfString s).isFinite = true then epochOfNumber (numberOfString s)
    else (dateParse s).bind fun parsed => if 0 < parsed then some parsed.toNat else none
  | _ => none

def historicFourHourBucketStartMs (value : StatValue) : Option ℕ :=
  (historicEpochMs dateParse value).map fun epochMs =>
    epochMs / historicFourHourBucketMs * historicFourHourBucketMs

def historicFourHourBucketStarts (values : List StatValue) : List ℕ :=
  (Keyed.firsts id (values.filterMap (historicFourHourBucketStartMs dateParse))).insertionSort
    (· ≤ ·)

/-- The numbers of a window. -/
inductive BucketProperty
  | symbols
  | indicationConfigs
  | strategyConfigs
  | indicationsTotal
  | indicationsBuy
  | indicationsSell
  | indicationsNeutral
  | setResultsTotal
  | setResultsClosed
  | setResultsOpen
  | wins
  | losses
  | breakeven
  | netPnlPct
  | grossProfitPct
  | grossLossPct
  | positionCostPct
  | positionCostSamples
  deriving DecidableEq

/-- `REDIS_FIELDS`. -/
def BucketProperty.redisField : BucketProperty → String
  | symbols => "symbols"
  | indicationConfigs => "indication_configs"
  | strategyConfigs => "strategy_configs"
  | indicationsTotal => "indications_total"
  | indicationsBuy => "indications_buy"
  | indicationsSell => "indications_sell"
  | indicationsNeutral => "indications_neutral"
  | setResultsTotal => "set_results_total"
  | setResultsClosed => "set_results_closed"
  | setResultsOpen => "set_results_open"
  | wins => "wins"
  | losses => "losses"
  | breakeven => "breakeven"
  | netPnlPct => "net_pnl_pct"
  | grossProfitPct => "gross_profit_pct"
  | grossLossPct => "gross_loss_pct"
  | positionCostPct => "position_cost_pct"
  | positionCostSamples => "position_cost_samples"

/-- The properties in the order of `REDIS_FIELDS`. -/
def BucketProperty.all : List BucketProperty :=
  [symbols, indicationConfigs, strategyConfigs, indicationsTotal, indicationsBuy, indicationsSell,
    indicationsNeutral, setResultsTotal, setResultsClosed, setResultsOpen, wins, losses, breakeven,
    netPnlPct, grossProfitPct, grossLossPct, positionCostPct, positionCostSamples]

/-- `MutableHistoricFourHourBucket`. -/
abbrev HistoricBucket := BucketProperty → ℚ

/-- `HistoricFourHourAccumulator`. -/
abbrev HistoricAccumulator := List (ℕ × HistoricBucket)

variable (accumulator : HistoricAccumulator)

/-- `bucketAt(accumulator, bucketStartMs)` with amounts added to its properties. -/
def HistoricAccumulator.addAt (bucketStartMs : ℕ) (amounts : List (BucketProperty × ℚ)) :
    HistoricAccumulator :=
  amounts.foldl (fun accumulator amount =>
    Keyed.tally accumulator bucketStartMs (Pi.single amount.1 amount.2)) accumulator

/-! ## Recorders -/

/-- What `markHistoricFourHourCoverage` adds to each window. -/
def coverageAmounts (indicationConfigs strategyConfigs : Double) : List (BucketProperty × ℚ) :=
  [(.symbols, 1), (.indicationConfigs, wholeNumber indicationConfigs 0),
    (.strategyConfigs, wholeNumber strategyConfigs 0)]

def markHistoricFourHourCoverage (bucketStarts : List ℕ)
    (indicationConfigs strategyConfigs : Double) : HistoricAccumulator :=
  (Keyed.firsts id bucketStarts).foldl (fun accumulator bucketStartMs =>
    accumulator.addAt bucketStartMs (coverageAmounts indicationConfigs strategyConfigs)) accumulator

/-- `HistoricIndicationStatInput`. -/
structure HistoricIndication where
  timestamp : StatValue
  signal : StatValue

variable (multiplier : ℕ)

/-- What `recordHistoricFourHourIndications` adds for a result. -/
def indicationAmounts (result : HistoricIndication) : List (BucketProperty × ℚ) :=
  [(.indicationsTotal, multiplier), (if result.signal.reads "buy" then .indicationsBuy
      else if result.signal.reads "sell" then .indicationsSell
      else .indicationsNeutral, multiplier)]

/-- A pass over items, each of which adds amounts to the window of its time. -/
def recordItems {A : Type*} (start : A → Option ℕ) (amounts : A → List (BucketProperty × ℚ))
    (accumulator : HistoricAccumulator) (items : List A) : HistoricAccumulator :=
  items.foldl (fun accumulator item =>
    match start item with
    | some bucketStartMs => accumulator.addAt bucketStartMs (amounts item)
    | none => accumulator) accumulator

def recordHistoricFourHourIndications (results : List HistoricIndication) (aliasCount : Double) :
    HistoricAccumulator :=
  let multiplier := wholeNumber aliasCount 1
  if multiplier = 0 then accumulator
  else recordItems (fun result => historicFourHourBucketStartMs dateParse result.timestamp)
    (indicationAmounts multiplier) accumulator results

/-- `HistoricPositionStatInput`. -/
structure HistoricPosition where
  entryTime : StatValue
  exitTime : StatValue
  status : StatValue
  result : StatValue
  positionCostPct : StatValue

def HistoricPosition.closed (position : HistoricPosition) : Bool := position.status.reads "closed"

/-- The time that a position counts at. -/
def HistoricPosition.eventTime (position : HistoricPosition) : StatValue :=
  if position.closed then position.exitTime.orElse position.entryTime
  else position.entryTime.orElse position.exitTime

/-- The cost of a position: its own one if that is a positive number. -/
def HistoricPosition.cost (position : HistoricPosition) (fallbackCost : ℚ) : ℚ :=
  match position.positionCostPct.toNumber with
  | .finite explicitCost => if 0 < explicitCost then explicitCost else fallbackCost
  | _ => fallbackCost

/-- What a closed position adds for its outcome. -/
def outcomeAmounts (resultPct : ℚ) : List (BucketProperty × ℚ) :=
  if 0 < resultPct then [(.wins, multiplier), (.grossProfitPct, resultPct * multiplier)]
  else if resultPct < 0 then [(.losses, multiplier), (.grossLossPct, |resultPct| * multiplier)]
  else [(.breakeven, multiplier)]

/-- What a closed position adds for its cost. -/
def costAmounts (positionCostPct : ℚ) : List (BucketProperty × ℚ) :=
  if 0 < positionCostPct then
    [(.positionCostPct, positionCostPct * multiplier), (.positionCostSamples, multiplier)]
  else []

/-- What `recordHistoricFourHourPositions` adds for a position. -/
def positionAmounts (fallbackCost : ℚ) (position : HistoricPosition) : List (BucketProperty × ℚ) :=
  let resultPct := finiteOr position.result.toNumber 0
  if position.closed then
    [(.setResultsTotal, (multiplier : ℚ)), (.setResultsClosed, (multiplier : ℚ)),
      (.netPnlPct, resultPct * multiplier)] ++ outcomeAmounts multiplier resultPct ++
      costAmounts multiplier (position.cost fallbackCost)
  else [(.setResultsTotal, (multiplier : ℚ)), (.setResultsOpen, (multiplier : ℚ))]

def recordHistoricFourHourPositions (positions : List HistoricPosition)
    (aliasCount fallbackPositionCostPct : Double) : HistoricAccumulator :=
  let multiplier := wholeNumber aliasCount 1
  let fallbackCost := max 0 (finiteOr fallbackPositionCostPct 0)
  if multiplier = 0 then accumulator
  else recordItems (fun position => historicFourHourBucketStartMs dateParse position.eventTime)
    (positionAmounts multiplier fallbackCost) accumulator positions

/-- A call of one of the recorders. -/
inductive HistoricRecording
  | coverage (times : List StatValue) (indicationConfigs strategyConfigs : Double)
  | indications (results : List HistoricIndication) (aliasCount : Double)
  | positions (items : List HistoricPosition) (aliasCount fallbackPositionCostPct : Double)

/-- The accumulator after a recording; coverage is marked for the windows of its times. -/
def HistoricRecording.perform : HistoricRecording → HistoricAccumulator
  | .coverage times indicationConfigs strategyConfigs =>
    markHistoricFourHourCoverage accumulator (historicFourHourBucketStarts dateParse times)
      indicationConfigs strategyConfigs
  | .indications results aliasCount =>
    recordHistoricFourHourIndications dateParse accumulator results aliasCount
  | .positions items aliasCount fallbackPositionCostPct =>
    recordHistoricFourHourPositions dateParse accumulator items aliasCount fallbackPositionCostPct

/-! ## Increments -/

/-- The text of a number from `10 ^ 21` on. -/
def exponentText (n : ℕ) : String :=
  let digits := Nat.toDigits 10 n
  let exponent := 'e' :: '+' :: Nat.toDigits 10 (digits.length - 1)
  match (digits.reverse.dropWhile (· = '0')).reverse with
  | [] => "0"
  | [digit] => String.ofList (digit :: exponent)
  | digit :: rest => String.ofList (digit :: '.' :: rest ++ exponent)

/-- The text of a whole number in a template. -/
def numberText (n : ℕ) : String := if n < 10 ^ 21 then n.repr else exponentText n

/-- The name of a field. -/
def bucketField (bucketStartMs : ℕ) (property : BucketProperty) : String :=
  "b:" ++ numberText bucketStartMs ++ ":" ++ property.redisField

def historicFourHourRedisIncrements : List (String × ℚ) :=
  (accumulator.insertionSort fun left right => left.1 ≤ right.1).flatMap fun (start, bucket) =>
    BucketProperty.all.filterMap fun property =>
      if bucket property = 0 then none else some (bucketField start property, bucket property)

def batchIncrements (recordings : List HistoricRecording) : List (String × ℚ) :=
  historicFourHourRedisIncrements (recordings.foldl (HistoricRecording.perform dateParse) [])

/-- The numbers of the hash after increments, in any order. -/
def persistIncrements (increments : List (String × ℚ)) : List (String × ℚ) :=
  Keyed.tallyAll [] increments

end CtsEngine

namespace CtsEngine

/-- The last millisecond of a `Date`. -/
def lastDateMs : ℕ := 8640000000000000

/-- The year, month and day of a day after the first of January 1970, in the proleptic Gregorian
calendar. -/
def civilFromDays (days : ℕ) : ℕ × ℕ × ℕ :=
  let shifted := days + 719468
  let dayOfEra := shifted % 146097
  let yearOfEra := (dayOfEra - dayOfEra / 1460 + dayOfEra / 36524 - dayOfEra / 146096) / 365
  let dayOfYear := dayOfEra - (365 * yearOfEra + yearOfEra / 4 - yearOfEra / 100)
  let monthFromMarch := (5 * dayOfYear + 2) / 153
  let month := if monthFromMarch < 10 then monthFromMarch + 3 else monthFromMarch - 9
  let year := yearOfEra + shifted / 146097 * 400
  (if month ≤ 2 then year + 1 else year, month, dayOfYear - (153 * monthFromMarch + 2) / 5 + 1)

/-- A number with leading zeros. -/
def padded (width n : ℕ) : String := String.ofList ((Nat.toDigits 10 n).leftpad width '0')

/-- `new Date(ms).toISOString()`. -/
def toISOString (ms : ℕ) : Option String :=
  if lastDateMs < ms then none
  else
    let (year, month, day) := civilFromDays (ms / 86400000)
    let yearText := if year < 10000 then padded 4 year else "+" ++ padded 6 year
    some (yearText ++ "-" ++ padded 2 month ++ "-" ++ padded 2 day ++ "T" ++
      padded 2 (ms / 3600000 % 24) ++ ":" ++ padded 2 (ms / 60000 % 60) ++ ":" ++
      padded 2 (ms / 1000 % 60) ++ "." ++ padded 3 (ms % 1000) ++ "Z")

example : toISOString 1787544000000 = some "2026-08-24T04:00:00.000Z" := by decide +kernel

/-! ## Metrics -/

/-- `Number.EPSILON`. -/
def numberEpsilon : ℚ := 1 / 2 ^ 52

/-- `Math.round((value + Number.EPSILON) * factor) / factor`. -/
def roundedTo (factor value : ℚ) : ℚ := ⌊(value + numberEpsilon) * factor + 1 / 2⌋ / factor

def rounded (value : ℚ) : ℚ := roundedTo (10 ^ 10) value

/-- `Math.max(0, Math.round(value))`. -/
def roundedCount (value : ℚ) : ℕ := ⌊value + 1 / 2⌋.toNat

def signedResultRToMainTradePfRatio (signedResultR : ℚ) : ℚ :=
  roundedTo (10 ^ 8) (1 + signedResultR * (1 / 10))

/-- `FLOAT_TOLERANCE`. -/
def floatTolerance : ℚ := 1 / 10 ^ 10

/-- `HISTORIC_FOUR_HOUR_PF_MINIMUM`. -/
def historicFourHourPfMinimum : ℚ := 11 / 10

/-- `HistoricFourHourPerformanceStats`. -/
structure HistoricPerformance where
  wins : ℕ
  losses : ℕ
  breakeven : ℕ
  netPnlPct : ℚ
  grossProfitPct : ℚ
  grossLossPct : ℚ
  averageNetPnlPct : Option ℚ
  averagePositionCostPct : Option ℚ
  signedPositionCostMultiple : Option ℚ
  pfCoordinate : Option ℚ
  meetsMinimumPf : Bool
  realizedProfitFactor : Option ℚ
  realizedProfitFactorInfinite : Bool

/-- `HistoricFourHourMetrics`. -/
structure HistoricMetrics where
  symbols : ℕ
  indicationConfigs : ℕ
  strategyConfigs : ℕ
  indicationsTotal : ℕ
  indicationsBuy : ℕ
  indicationsSell : ℕ
  indicationsNeutral : ℕ
  setResultsTotal : ℕ
  setResultsClosed : ℕ
  setResultsOpen : ℕ
  performance : HistoricPerformance

variable (bucket : HistoricBucket)

/-- `signedPositionCostMultiple`, before it is rounded. -/
def positionCostMultiple : Option ℚ :=
  if 0 < bucket .setResultsClosed ∧ 0 < bucket .positionCostSamples ∧ 0 < bucket .positionCostPct
  then some (bucket .netPnlPct / bucket .positionCostPct) else none

def performanceFromBucket : HistoricPerformance :=
  let pfCoordinate := (positionCostMultiple bucket).map signedResultRToMainTradePfRatio
  { wins := roundedCount (bucket .wins)
    losses := roundedCount (bucket .losses)
    breakeven := roundedCount (bucket .breakeven)
    netPnlPct := rounded (bucket .netPnlPct)
    grossProfitPct := rounded (bucket .grossProfitPct)
    grossLossPct := rounded (bucket .grossLossPct)
    averageNetPnlPct :=
      if 0 < bucket .setResultsClosed then
        some (rounded (bucket .netPnlPct / bucket .setResultsClosed)) else none
    averagePositionCostPct :=
      if 0 < bucket .positionCostSamples then
        some (rounded (bucket .positionCostPct / bucket .positionCostSamples)) else none
    signedPositionCostMultiple := (positionCostMultiple bucket).map rounded
    pfCoordinate := pfCoordinate
    meetsMinimumPf :=
      pfCoordinate.any fun pf => decide (historicFourHourPfMinimum ≤ pf + floatTolerance)
    realizedProfitFactor :=
      if floatTolerance < bucket .grossLossPct then
        some (rounded (bucket .grossProfitPct / bucket .grossLossPct)) else none
    realizedProfitFactorInfinite :=
      decide (0 < bucket .setResultsClosed ∧ 0 < bucket .grossProfitPct ∧
        bucket .grossLossPct ≤ floatTolerance) }

def metricsFromBucket : HistoricMetrics where
  symbols := roundedCount (bucket .symbols)
  indicationConfigs := roundedCount (bucket .indicationConfigs)
  strategyConfigs := roundedCount (bucket .strategyConfigs)
  indicationsTotal := roundedCount (bucket .indicationsTotal)
  indicationsBuy := roundedCount (bucket .indicationsBuy)
  indicationsSell := roundedCount (bucket .indicationsSell)
  indicationsNeutral := roundedCount (bucket .indicationsNeutral)
  setResultsTotal := roundedCount (bucket .setResultsTotal)
  setResultsClosed := roundedCount (bucket .setResultsClosed)
  setResultsOpen := roundedCount (bucket .setResultsOpen)
  performance := performanceFromBucket bucket

/-- A letter of a field name. -/
def isFieldLetter (c : Char) : Bool := c.isLower || c == '_'

/-- The match with `^b:(\d+):([a-z_]+)$`, and the property of its name. -/
def parseBucketField (field : String) : Option (ℕ × BucketProperty) :=
  match field.toList with
  | 'b' :: ':' :: rest =>
    match rest.dropWhile Char.isDigit with
    | ':' :: name =>
      let digits := rest.takeWhile Char.isDigit
      if digits ≠ [] ∧ name ≠ [] ∧ name.all isFieldLetter = true then
        (BucketProperty.all.find? fun property => property.redisField == String.ofList name).map
          fun property => (Nat.ofDigitChars 10 digits 0, property)
      else none
    | _ => none
  | _ => none

/-- The first whole number that is read as `Infinity`. -/
def infiniteFrom : ℕ := 2 ^ 1024 - 2 ^ 970

/-- The amount of a stored field: its window and property, and its number; neither may be
infinite. -/
def parseEntry (entry : String × Double) : Option (ℕ × HistoricBucket) :=
  match parseBucketField entry.1, entry.2 with
  | some (bucketStartMs, property), .finite value =>
    if bucketStartMs < infiniteFrom then some (bucketStartMs, Pi.single property value)
    else none
  | _, _ => none

/-- The buckets of the stored fields. -/
def parseBuckets (fields : List (String × Double)) : HistoricAccumulator :=
  (Keyed.tallyAll [] (fields.filterMap parseEntry)).insertionSort fun left right =>
    left.1 ≤ right.1

/-! ## The aggregate -/

/-- `HistoricFourHourBucketStats`. -/
structure HistoricBucketStats extends HistoricMetrics where
  bucketStartMs : ℕ
  bucketEndMs : ℕ
  bucketStart : String
  bucketEnd : String

/-- `HistoricFourHourStats`. -/
structure HistoricStats where
  schemaVersion : ℕ
  generation : Option String
  complete : Bool
  symbolsExpected : Option ℕ
  symbolsProcessed : Option ℕ
  indicationConfigs : Option ℕ
  strategyConfigs : Option ℕ
  rangeStart : Option String
  rangeEnd : Option String
  integrityValid : Bool
  integrityIssues : List String
  updatedAt : Option String
  bucketCount : ℕ
  summary : HistoricMetrics
  buckets : List HistoricBucketStats

/-- A parsed bucket. -/
def bucketStats (bucketStartMs : ℕ) (bucket : HistoricBucket) : Option HistoricBucketStats :=
  (toISOString bucketStartMs).bind fun bucketStart =>
    (toISOString (bucketStartMs + historicFourHourBucketMs)).map fun bucketEnd =>
      { metricsFromBucket bucket with
        bucketStartMs
        bucketEndMs := bucketStartMs + historicFourHourBucketMs
        bucketStart
        bucketEnd }

def optionalNonNegativeInteger (value : Option String) : Option ℕ :=
  value.bind fun text =>
    if trim text = "" then none
    else match numberOfString text with
      | .finite parsed => if 0 ≤ parsed then some ⌊parsed⌋.toNat else none
      | _ => none

/-- What the hash declares about its calculation. -/
structure DeclaredCoverage where
  symbolsExpected : Option ℕ
  indicationConfigs : Option ℕ
  strategyConfigs : Option ℕ
  rangeStartMs : Option ℕ
  rangeEndMs : Option ℕ

/-- An issue, if a check fails. -/
def issueIf (failed : Bool) (issue : String) : List String := if failed then [issue] else []

def bucketIssues (declared : DeclaredCoverage) (bucket : HistoricBucketStats) : List String :=
  let windowLabel := String.ofList (bucket.bucketStart.toList.take 16)
  issueIf (declared.symbolsExpected.any fun expected => decide (expected < bucket.symbols))
    (windowLabel ++ " contains " ++ numberText bucket.symbols ++
      " symbol evaluations, above the " ++
      numberText (declared.symbolsExpected.getD 0) ++ "-symbol generation.") ++
  issueIf (declared.indicationConfigs.any fun configs =>
      bucket.indicationConfigs != bucket.symbols * configs)
    (windowLabel ++ " indication-config coverage is inconsistent.") ++
  issueIf (declared.strategyConfigs.any fun configs =>
      bucket.strategyConfigs != bucket.symbols * configs)
    (windowLabel ++ " strategy-config coverage is inconsistent.") ++
  issueIf (bucket.indicationsTotal !=
      bucket.indicationsBuy + bucket.indicationsSell + bucket.indicationsNeutral)
    (windowLabel ++ " indication direction totals are inconsistent.") ++
  issueIf (bucket.setResultsTotal != bucket.setResultsClosed + bucket.setResultsOpen)
    (windowLabel ++ " closed/open set-result totals are inconsistent.") ++
  issueIf (bucket.setResultsClosed != bucket.performance.wins + bucket.performance.losses +
      bucket.performance.breakeven)
    (windowLabel ++ " realised outcome totals are inconsistent.") ++
  issueIf (declared.rangeStartMs.any fun rangeStart => declared.rangeEndMs.any fun rangeEnd =>
      decide (bucket.bucketEndMs ≤ rangeStart ∨ rangeEnd < bucket.bucketStartMs))
    (windowLabel ++ " lies outside the declared calculation range.")

/-- The issue of a calculation that is declared complete. -/
def coverageIssues (complete : Bool) (symbolsExpected symbolsProcessed : Option ℕ) : List String :=
  match symbolsExpected, symbolsProcessed with
  | some expected, some processed =>
    issueIf (complete && decide (processed < expected))
      ("Completed coverage is " ++ numberText processed ++ "/" ++ numberText expected ++
        " symbols.")
  | _, _ => []

variable (dateParse : String → Option ℤ)

/-- A text field as a value. -/
def textValue : Option String → StatValue
  | some s => .text s
  | none => .undefined

/-- A text with a time. -/
def textEpochMs (value : Option String) : Option ℕ := historicEpochMs dateParse (textValue value)

/-- `new Date(epochMs).toISOString()` for a time that may be missing. -/
def isoOfEpoch : Option ℕ → Option (Option String)
  | none => some none
  | some epochMs => (toISOString epochMs).map some

variable (metadata : String → Option String)

/-- What the texts of the hash declare. -/
def declaredCoverage : DeclaredCoverage where
  symbolsExpected := optionalNonNegativeInteger (metadata "symbols_expected")
  indicationConfigs := optionalNonNegativeInteger (metadata "indication_configs")
  strategyConfigs := optionalNonNegativeInteger (metadata "strategy_configs")
  rangeStartMs := textEpochMs dateParse (strOr (metadata "range_start_ms") (metadata "range_start"))
  rangeEndMs := textEpochMs dateParse (strOr (metadata "range_end_ms") (metadata "range_end"))

/-- The calculation is declared complete. -/
def declaredComplete : Bool :=
  metadata "complete" == some "1" || metadata "complete" == some "true"

/-- The issues of the aggregate, each once. -/
def integrityIssues (parsedBuckets : List HistoricBucketStats) : List String :=
  Keyed.firsts id (coverageIssues (declaredComplete metadata)
        (optionalNonNegativeInteger (metadata "symbols_expected"))
        (optionalNonNegativeInteger (metadata "symbols_processed")) ++
      parsedBuckets.flatMap (bucketIssues (declaredCoverage dateParse metadata)))

def parseHistoricFourHourAggregate (fields : List (String × Double))
    (metadata : String → Option String) : Option HistoricStats := do
  let parsedBuckets ← (parseBuckets fields).mapM fun entry => bucketStats entry.1 entry.2
  let rangeStart ← isoOfEpoch (declaredCoverage dateParse metadata).rangeStartMs
  let rangeEnd ← isoOfEpoch (declaredCoverage dateParse metadata).rangeEndMs
  let updatedAt ← isoOfEpoch
    (textEpochMs dateParse (strOr (metadata "updated_at_ms") (metadata "updated_at")))
  return {
    schemaVersion := max 1 (wholeNumber (textValue (metadata "schema_version")).toNumber 2)
    generation := strOr (some (trim (strOrEmpty (metadata "generation")))) none
    complete :=
      declaredComplete metadata && (integrityIssues dateParse metadata parsedBuckets).isEmpty
    symbolsExpected := optionalNonNegativeInteger (metadata "symbols_expected")
    symbolsProcessed := optionalNonNegativeInteger (metadata "symbols_processed")
    indicationConfigs := optionalNonNegativeInteger (metadata "indication_configs")
    strategyConfigs := optionalNonNegativeInteger (metadata "strategy_configs")
    rangeStart
    rangeEnd
    integrityValid := (integrityIssues dateParse metadata parsedBuckets).isEmpty
    integrityIssues := integrityIssues dateParse metadata parsedBuckets
    updatedAt
    bucketCount := parsedBuckets.length
    summary := metricsFromBucket ((parseBuckets fields).map Prod.snd).sum
    buckets := parsedBuckets }

end CtsEngine
