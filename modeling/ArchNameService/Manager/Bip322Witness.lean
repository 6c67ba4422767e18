import ArchNameService.Lib.Base64
import ArchNameService.Lib.Outcome
import ArchNameService.Sdk.Types

/-! The signature inside what a wallet returns (`bip322-witness.ts`). -/

namespace ArchNameService

namespace Manager
open JsString
open Sdk (Thrown)

def decodeHex (input : JsString) : Except Thrown (List UInt8) := do
  let clean := stripHexPrefix input
  reject (¬ clean.all isHexDigit ∨ clean.length % 2 ≠ 0)
    (.error "Cannot decode signature: not valid hex.")
  pure (bytesOfHexPairs clean)

def isHex (value : JsString) : Bool :=
  let clean := stripHexPrefix value
  0 < clean.length && clean.length % 2 == 0 && clean.all isHexDigit

def decodeRawWalletSignature (raw : JsString) : Except Thrown (List UInt8) :=
  if isHex raw then decodeHex raw
  else orElseError (.error "Cannot decode signature: not base64 or hex.") (atob raw)

/-! ## Witness stacks -/

/-- A size and the offset behind it; four bytes are a signed integer. -/
def readCompactSize (bytes : List UInt8) (offset : Nat) : Option (Int × Nat) :=
  match bytes[offset]? with
  | none => none
  | some first =>
      if first < 0xFD then some (first.toNat, offset + 1)
      else if first = 0xFD then
        if bytes.length ≤ offset + 2 then none
        else some (leNat ((bytes.drop (offset + 1)).take 2), offset + 3)
      else if first = 0xFE then
        if bytes.length ≤ offset + 4 then none
        else some ((BitVec.ofNat 32 (leNat ((bytes.drop (offset + 1)).take 4))).toInt, offset + 5)
      else none

/-- The turns of the loop that are left: the items, and the offset behind them. -/
def readItems (bytes : List UInt8) : Nat → Nat → Option (List (List UInt8) × Nat)
  | 0, offset => some ([], offset)
  | n+1, offset => do
      let (size, offset) ← readCompactSize bytes offset
      if size < 0 ∨ (bytes.length : Int) < offset + size then none
      else
        let item := (bytes.drop offset).take size.toNat
        let (items, offset) ← readItems bytes n (offset + size.toNat)
        some (item :: items, offset)

def parseWitnessStack (bytes : List UInt8) : Option (List (List UInt8)) := do
  let (count, offset) ← readCompactSize bytes 0
  if count ≤ 0 ∨ 16 < count then none
  else
    let (items, offset) ← readItems bytes count.toNat offset
    if offset = bytes.length then some items else none

def getWalletWitnessSignatureItem (raw : JsString) : Except Thrown (Option (List UInt8)) := do
  let bytes ← decodeRawWalletSignature raw
  pure ((parseWitnessStack bytes).bind List.head?)

/-! ## The signature -/

def failedToExtract (witnessItem : Option (List UInt8)) (rawBytes : List UInt8) : Thrown :=
  .error ("Failed to extract a valid 64-byte signature (witness=" ++
    (witnessItem.map fun item => toString item.length).getD "none" ++ ", raw=" ++
    toString rawBytes.length ++ ").")

/-- The signature util of the package is `adjustSignature`; what it throws is not caught. -/
def extractSchnorrHexFromWalletSignature
    (adjustSignature : List UInt8 → Except Thrown (List UInt8)) (rawSignature : JsString) :
    Except Thrown JsString := do
  let witnessItem ← getWalletWitnessSignatureItem rawSignature
  match witnessItem with
  | some item => do
      let adjusted ← adjustSignature item
      if adjusted.length = 64 then pure (bytesToHex adjusted) else fallback witnessItem
  | none => fallback witnessItem
where
  fallback (witnessItem : Option (List UInt8)) : Except Thrown JsString := do
    let rawBytes ← decodeRawWalletSignature rawSignature
    let adjusted ← adjustSignature rawBytes
    if adjusted.length = 64 then pure (bytesToHex adjusted)
    else throw (failedToExtract witnessItem rawBytes)

end Manager

end ArchNameService
