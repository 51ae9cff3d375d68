import CtsEngine.Foundation.JsValue

/-!
# USD notional of a position

`resolvePositionNotionalUsd` of `lib/live-position-pnl.ts` for an explicit quantity and price, with
`forexNotionalUsd` and `forexQuoteToUsdRate` of `lib/forex-market.ts`.  The market of a row is what
`isForexPosition`, `forexPairCurrencies`, `resolveForexLotSize` and `resolveForexQuoteToUsdRate`
resolve from its metadata.
-/

namespace CtsEngine

/-- The market contract of a position. -/
inductive PositionMarket
  /-- Quantities are base units. -/
  | crypto
  /-- Quantities are lots; the pair is `none` when the symbol is not a currency pair. -/
  | forex (pair : Option (String × String)) (lotSize : ℚ) (quoteToUsdRate : Option ℚ)

/-- The conversion rate from the quote currency to USD. -/
def forexQuoteToUsdRate (pair : Option (String × String)) (price : ℚ) (providedRate : Option ℚ) :
    Option ℚ :=
  match pair with
  | none => none
  | some (base, quote) =>
    if quote = "USD" then some 1
    else if 0 < providedRate.getD 0 then providedRate
    else if base = "USD" ∧ 0 < price then some (1 / price)
    else none

/-- USD notional of a Forex lot quantity at a pair price. -/
def forexNotionalUsd (lots price : ℚ) (pair : Option (String × String)) (lotSize : ℚ)
    (providedRate : Option ℚ) : ℚ :=
  let quantity := lots * lotSize
  if ¬ 0 < quantity ∨ ¬ 0 < price ∨ pair = none then 0
  else
    let rate := (forexQuoteToUsdRate pair price providedRate).getD 0
    if 0 < rate then quantity * price * rate else 0

/-- USD notional of an explicit quantity at an explicit price. -/
def resolvePositionNotionalUsd (market : PositionMarket) (quantity price : ℚ) : ℚ :=
  if ¬ 0 < quantity ∨ ¬ 0 < price then 0
  else match market with
    | .crypto => quantity * price
    | .forex pair lotSize rate => forexNotionalUsd quantity price pair lotSize rate

end CtsEngine
