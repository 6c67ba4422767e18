import ArchNameService.Lib.Values
import ArchNameService.Sdk.Derive

/-! The transaction that is sent to a node (`rpc-params.ts`). -/

namespace ArchNameService

namespace Sdk
open JsString JsValue

variable {ν : Type} [JsNumber ν]

/-! ## Numbers -/

mutual

/-- `String(value)`: there is none where `toString` is no function. -/
def stringOf : JsValue ν → Option JsString
  | .undefined => some (text "undefined")
  | .null => some Json.nullText
  | .bool b => some (if b then Json.trueText else Json.falseText)
  | .number n => some (JsonNumber.toText n)
  | .string s => some s
  | .uint8Array bytes => some ([Json.comma].intercalate (bytes.map fun b => decimal b.toNat))
  | .array items => (joinedTexts items).map [Json.comma].intercalate
  | .object members =>
      if (members.lookup (text "toString")).isSome then none else some (text "[object Object]")

/-- What is joined of the items of an array. -/
def joinedTexts : List (JsValue ν) → Option (List JsString)
  | [] => some []
  | item :: items => do
      let part ← match item with
        | .undefined | .null => some []
        | item => stringOf item
      let parts ← joinedTexts items
      pure (part :: parts)

end

/-- `Number(value)`. -/
def numberOf : JsValue ν → Option ν
  | .undefined => some JsNumber.nan
  | .null => some (JsNumber.ofNat 0)
  | .bool b => some (JsNumber.ofNat b.toNat)
  | .number n => some n
  | value => (stringOf value).map JsonNumber.ofText

/-- `n || 0`. -/
def orZero (n : ν) : ν := if JsNumber.falsy n then JsNumber.ofNat 0 else n

def numberOrZero (value : JsValue ν) : Option ν := (numberOf value).map orZero

/-! ## Byte buffers -/

/-- The keys of an object that are runs of digits, in the order of their numbers. -/
def digitKeys (members : List (JsString × JsValue ν)) : List JsString :=
  let keys := ((inKeyOrder members).map Prod.fst).filter isDigits
  (Comparator.onKey JsonNumber.ofText (JsNumber.difference : Comparator ν)).sort keys

def toNumberArray : JsValue ν → Option (List ν)
  | .uint8Array bytes => some (bytes.map ofByte)
  | .array items => items.mapM numberOrZero
  | .object members => do
      let entries ← (digitKeys members).mapM fun key => numberOrZero (get key (.object members))
      pure (if 0 < entries.length then entries else [])
  | _ => some []

/-! ## Transactions -/

structure MessageHeader (ν : Type) where
  numRequiredSignatures : ν
  numReadonlySignedAccounts : ν
  numReadonlyUnsignedAccounts : ν

structure MessageInstruction (ν : Type) where
  programIdIndex : ν
  accounts : List ν
  data : List ν

structure Message (ν : Type) where
  header : MessageHeader ν
  accountKeys : List (List ν)
  recentBlockhash : List ν
  instructions : List (MessageInstruction ν)

structure Transaction (ν : Type) where
  version : ν
  signatures : List (List ν)
  message : Message ν

/-- `Array.isArray(value) ? value.map(f) : []`. -/
def mapArray {α : Type} (f : JsValue ν → Option α) : JsValue ν → Option (List α)
  | .array items => items.mapM f
  | _ => some []

def normalizeHeader (header : JsValue ν) : Option (MessageHeader ν) := do
  let numRequiredSignatures ← numberOrZero (get (text "num_required_signatures") header)
  let numReadonlySignedAccounts ← numberOrZero (get (text "num_readonly_signed_accounts") header)
  let numReadonlyUnsignedAccounts ← numberOrZero (get (text "num_readonly_unsigned_accounts") header)
  pure { numRequiredSignatures, numReadonlySignedAccounts, numReadonlyUnsignedAccounts }

/-- Nothing is read of `null` or `undefined`. -/
def normalizeInstruction : JsValue ν → Option (MessageInstruction ν)
  | .undefined | .null => none
  | ix => do
      let programIdIndex ← numberOrZero (get (text "program_id_index") ix)
      let accounts ← mapArray numberOrZero (get (text "accounts") ix)
      let data ← toNumberArray (get (text "data") ix)
      pure { programIdIndex, accounts, data }

def normalizeMessage (message : JsValue ν) : Option (Message ν) := do
  let header ← normalizeHeader (get (text "header") message)
  let accountKeys ← mapArray toNumberArray (get (text "account_keys") message)
  let recentBlockhash ← toNumberArray (get (text "recent_blockhash") message)
  let instructions ← mapArray normalizeInstruction (get (text "instructions") message)
  pure { header, accountKeys, recentBlockhash, instructions }

/-- It throws at `none`. A member of `null` or `undefined` is read as `undefined`, as `?.` and
the default of the transaction have it. -/
def normalizeRuntimeTransaction (value : JsValue ν) : Option (Transaction ν) := do
  let version := match get (text "version") value with
    | .number n => n
    | _ => JsNumber.ofNat 0
  let signatures ← mapArray toNumberArray (get (text "signatures") value)
  let message ← normalizeMessage (get (text "message") value)
  pure { version, signatures, message }

/-! ## The result as a value -/

def numbersValue (ns : List ν) : JsValue ν := .array (ns.map .number)

def MessageHeader.value (header : MessageHeader ν) : JsValue ν :=
  .object [(text "num_required_signatures", .number header.numRequiredSignatures),
    (text "num_readonly_signed_accounts", .number header.numReadonlySignedAccounts),
    (text "num_readonly_unsigned_accounts", .number header.numReadonlyUnsignedAccounts)]

def MessageInstruction.value (ix : MessageInstruction ν) : JsValue ν :=
  .object [(text "program_id_index", .number ix.programIdIndex),
    (text "accounts", numbersValue ix.accounts), (text "data", numbersValue ix.data)]

def Message.value (message : Message ν) : JsValue ν :=
  .object [(text "header", message.header.value),
    (text "account_keys", .array (message.accountKeys.map numbersValue)),
    (text "recent_blockhash", numbersValue message.recentBlockhash),
    (text "instructions", .array (message.instructions.map MessageInstruction.value))]

def Transaction.value (transaction : Transaction ν) : JsValue ν :=
  .object [(text "version", .number transaction.version),
    (text "signatures", .array (transaction.signatures.map numbersValue)),
    (text "message", transaction.message.value)]

/-- The body of the request that `rpc` makes. -/
def requestBody (method : JsString) (params : JsValue ν) : Option JsString :=
  stringify (.object [(text "jsonrpc", .string (text "2.0")), (text "id", .number (JsNumber.ofNat 1)),
    (text "method", .string method), (text "params", params)])

end Sdk

end ArchNameService
