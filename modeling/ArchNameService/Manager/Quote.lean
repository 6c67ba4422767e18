import ArchNameService.Lib.Decimal
import ArchNameService.Protocol.State
import ArchNameService.Sdk.Derive
import Mathlib.Data.List.DropRight

/-! Amounts as text (`quote-amount.ts`). -/

namespace ArchNameService

namespace Manager
open JsString
open Sdk (text)

def quoteDecimals : QuoteCurrency → Nat
  | .arch => 9
  | .btc => 8

/-! ## Padding -/

def padStart (length : Nat) (fill : UInt16) (s : JsString) : JsString :=
  List.replicate (length - s.length) fill ++ s

def padEnd (length : Nat) (fill : UInt16) (s : JsString) : JsString :=
  s ++ List.replicate (length - s.length) fill

/-! ## Amounts -/

/-- The groups of `/^(\d*)(?:\.(\d*))?$/`. -/
def matchAmount (s : JsString) : Option (JsString × Option JsString) :=
  match s.dropWhile isDigit with
  | [] => some (s, none)
  | point :: fraction =>
      if point = 0x2E ∧ fraction.all isDigit then some (s.takeWhile isDigit, some fraction) else none

def parseQuoteAmount (value : JsString) (currency : QuoteCurrency) : Option Nat :=
  let decimals := quoteDecimals currency
  match matchAmount value.trim with
  | none => none
  | some (whole, fraction) =>
      if (whole = [] ∧ fraction.getD [] = []) ∨ decimals < (fraction.getD []).length then none
      else
        let whole := if whole = [] then text "0" else whole
        let fraction := padEnd decimals digitZero (fraction.getD [])
        some (bigInt whole * 10 ^ decimals + bigInt (if fraction = [] then text "0" else fraction))

def formatQuoteBaseUnits (amount : Nat) (currency : QuoteCurrency) : JsString :=
  let decimals := quoteDecimals currency
  let scale := 10 ^ decimals
  let whole := amount / scale
  -- `.replace(/0+$/, "")`
  let fraction := (padStart decimals digitZero (decimal (amount % scale))).rdropWhile (· == digitZero)
  if fraction = [] then decimal whole else decimal whole ++ text "." ++ fraction

end Manager

end ArchNameService
