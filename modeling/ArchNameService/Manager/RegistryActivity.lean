import Mathlib.Data.Rat.Floor
import ArchNameService.Manager.Marketplace
import ArchNameService.Manager.SignerRegistry
import ArchNameService.Sdk.Codec

/-! The rows of the Explorer, and the timeline of the registry (`explorer-tx.ts`,
`registry-activity.ts`). -/

namespace ArchNameService

namespace Manager
open JsString JsValue
open Sdk (Platform Thrown text toLowerCase)

section
variable {ν : Type}

/-! ## Rows -/

/-- A property of `null` is read; the text is the browser's. -/
def typeError : Thrown := .error "Cannot read properties of null"

/-- `value.key` of a value that is not known to be an object. -/
def property (key : JsString) : Json ν → Except Thrown (Option (Json ν))
  | .null => .error typeError
  | value => .ok (jsonMember key value)

/-- The Explorer reports failures as `{ Failed: reason }` and successes as a string. -/
def isFailedStatus [Platform] : Option (Json ν) → Bool
  | some (.string s) => toLowerCase s == text "failed"
  | some (.object members) => (members.lookup (text "Failed")).isSome
  | _ => false

/-- What follows where a value is a string. -/
def asString : Option (Json ν) → Option JsString
  | some (.string s) => some s
  | _ => none

def explorerCreatedAt (row : Json ν) : Option JsString :=
  asString (jsonMember (text "created_at") row) <|> asString (jsonMember (text "createdAt") row)

/-- The payload of an instruction that is the program's. -/
def instructionPayload [Platform] (wanted : JsString) (ix : Json ν) :
    Except Thrown (Option JsString) := do
  let programId ← property (text "program_id") ix
  match asString programId with
  | some programId =>
      if toLowerCase programId = wanted then pure (asString (jsonMember (text "data") ix))
      else pure none
  | none => pure none

/-- Hex instruction payloads in this row that target `programIdHex`. -/
def ansInstructionPayloads [Platform] (row : Json ν) (programIdHex : JsString) :
    Except Thrown (List JsString) := do
  let raw := ((jsonMember (text "data") row).bind (jsonMember (text "message"))).bind
    (jsonMember (text "instructions"))
  match raw with
  | some (.array instructions) => do
      let payloads ← instructions.mapM (instructionPayload (toLowerCase programIdHex))
      pure (payloads.filterMap id)
  | _ => pure []

/-- A payload of odd length is not read. -/
def decodePayload (payload : JsString) : Option Sdk.NameInstruction :=
  if (stripHexPrefix payload).length % 2 ≠ 0 then none
  else (Sdk.decodeInstruction (hexToBytes payload)).toOption

/-- Decoded ANS instructions in this row; non-ANS payloads are skipped. -/
def decodeAnsInstructions [Platform] (row : Json ν) (programIdHex : JsString) :
    Except Thrown (List Sdk.NameInstruction) := do
  let payloads ← ansInstructionPayloads row programIdHex
  pure (payloads.filterMap decodePayload)

/-- The answer to a request for a page; there is none where the status is 404. -/
abbrev Explorer (ν : Type) := Nat → Except Thrown (Option (Json ν))

def fetchTransactionRows (explorer : Explorer ν) (page : Nat) : Except Thrown (List (Json ν)) := do
  match ← explorer page with
  | none => pure []
  | some body => do
      match ← property (text "transactions") body with
      | some (.array rows) => pure rows
      | _ => pure []

/-! ## The timeline -/

/-- `Date.parse`, in milliseconds. -/
class DateText where
  parse : JsString → Option Int

/-- `new Date(createdAt)` of an empty text is not looked at. -/
def toEpochMs [DateText] (createdAt : Option JsString) : Option Int :=
  (createdAt.filter (· ≠ [])).bind DateText.parse

structure RegistrationEvent where
  name : JsString
  txid : JsString
  createdAt : Option JsString
  time : Option Int
  deriving DecidableEq

structure RegistryTimeline where
  registrations : List RegistrationEvent
  registeredAtByName : List (JsString × Int)
  listedAtByNameHash : List (JsString × Int)

/-- The timeline with the names that it has. -/
structure TimelineState extends RegistryTimeline where
  seenNames : List JsString

def timelinePageSize : Nat := 100

/-- The keys of a map keep their places. -/
def setAt (map : List (JsString × Int)) (key : JsString) : Option Int → List (JsString × Int)
  | some time => setMember map (key, time)
  | none => map

/-- One instruction of a row. -/
def sightInstruction [Platform] (txid : JsString) (createdAt : Option JsString) (time : Option Int)
    (t : TimelineState) : Sdk.NameInstruction → Except Thrown TimelineState
  | .register label _ | .reclaimExpired label _ => do
      let name ← Sdk.canonicalizeName (label ++ Sdk.archSuffix)
      if t.seenNames.contains name then pure t
      else
        pure { seenNames := name :: t.seenNames
               registrations := t.registrations ++ [{ name, txid, createdAt, time }]
               registeredAtByName := setAt t.registeredAtByName name time
               listedAtByNameHash := t.listedAtByNameHash }
  | .listName nameHash _ _ =>
      let key := bytesToHex nameHash.toList
      if (t.listedAtByNameHash.map Prod.fst).contains key then pure t
      else pure { t with listedAtByNameHash := setAt t.listedAtByNameHash key time }
  | _ => pure t

/-- One row: failed ones and those without an id are passed over. -/
def sightRow [Platform] [DateText] (programIdHex : JsString) (t : TimelineState) (row : Json ν) :
    Except Thrown TimelineState := do
  let status ← property (text "status") row
  if isFailedStatus status then pure t
  else
    match (asString (jsonMember (text "txid") row)).filter (· ≠ []) with
    | none => pure t
    | some txid => do
        let createdAt := explorerCreatedAt row
        let instructions ← decodeAnsInstructions row programIdHex
        instructions.foldlM (sightInstruction txid createdAt (toEpochMs createdAt)) t

/-- The pages from one on, of which so many are left. -/
def sightPages [Platform] [DateText] (explorer : Explorer ν) (programIdHex : JsString) :
    Nat → Nat → TimelineState → Except Thrown TimelineState
  | 0, _, t => pure t
  | left + 1, page, t => do
      let rows ← fetchTransactionRows explorer page
      let t ← rows.foldlM (sightRow programIdHex) t
      if rows.length < timelinePageSize then pure t
      else sightPages explorer programIdHex left (page + 1) t

def defaultPages : ℚ := 2

/-- How many pages are asked for at most. What is no number, `some none`, asks for none, and
an infinite number is left out. -/
def pageCount (pages : Option (Option ℚ)) : Nat :=
  match pages.getD (some defaultPages) with
  | some pages => (max 1 ⌊pages⌋).toNat
  | none => 0

def fetchRegistryTimeline [Platform] [DateText] (explorer : Explorer ν) (programIdHex : JsString)
    (pages : Option (Option ℚ)) : Except Thrown RegistryTimeline := do
  let t ← sightPages explorer (toLowerCase programIdHex) (pageCount pages) 1
    { registrations := [], registeredAtByName := [], listedAtByNameHash := [], seenNames := [] }
  pure t.toRegistryTimeline

end

/-! ## The order of names -/

section
variable [Locale]

/-- The closure that `orderNamesByRegistration` passes to `sort`. -/
def compareRegistration (registeredAt : JsString → Option Int) : Comparator JsString := fun a b =>
  match registeredAt a, registeredAt b with
  | some aAt, some bAt => if bAt ≠ aAt then bAt - aAt else Locale.localeCompare a b
  | some _, none => -1
  | none, some _ => 1
  | none, none => if b < a then -1 else if a < b then 1 else 0

/-- A limit that is no number, `none`, counts as zero, and an infinite one as a long one. -/
def orderNamesByRegistration {α : Type} (name : α → JsString) (onChain : List α)
    (registeredAtByName : List (JsString × Int)) (limit : Option ℚ) : List α :=
  let capped := match limit with
    | some limit => (max 0 ⌊limit⌋).toNat
    | none => 0
  (((compareRegistration fun key => registeredAtByName.lookup key).onKey name).sort onChain).take
    capped

end

end Manager

end ArchNameService
