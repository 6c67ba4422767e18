import ArchNameService.Lib.Hex
import ArchNameService.Sdk.Derive

/-! The catalog of text records and the checks of the form (`records/catalog.ts`). -/

namespace ArchNameService

namespace Sdk
open JsString

/-- `new URL(value).protocol`; none where the constructor throws. -/
class WebUrl where
  protocol : JsString → Option JsString

structure TextRecordSpec where
  key : JsString
  validate : Option (JsString → Option String)

/-! ## The checks -/

def ethAddressError (value : JsString) : Option String :=
  if value.take 2 = text "0x" ∧ (value.drop 2).length = 40 ∧ (value.drop 2).all isHexDigit then none
  else some "Enter a 0x-prefixed 40-hex ETH address."

/-- `[^\s@]+`. -/
def isEmailPart (s : JsString) : Bool := !s.isEmpty && s.all fun u => !isSpace u && u != 0x40

/-- `/^[^\s@]+@[^\s@]+\.[^\s@]+$/`. -/
def matchesEmail (value : JsString) : Bool :=
  let domain := (value.dropWhile (· != 0x40)).drop 1
  value.contains 0x40 && isEmailPart (value.takeWhile (· != 0x40)) &&
    (List.range domain.length).any fun i =>
      domain[i]? == some 0x2E && isEmailPart (domain.take i) && isEmailPart (domain.drop (i + 1))

def emailError (value : JsString) : Option String :=
  if ¬ matchesEmail value ∨ 254 < value.length then some "Enter a valid email address." else none

def urlError [WebUrl] (value : JsString) : Option String :=
  match WebUrl.protocol value with
  | some protocol =>
      if protocol ≠ text "https:" ∧ protocol ≠ text "http:" then
        some "URL must start with https:// or http://."
      else none
  | none => some "Enter a valid URL."

def nonEmptyHandle (label : String) : JsString → Option String := fun value =>
  let trimmed := value.trim
  if trimmed = [] ∨ trimmed.any isSpace ∨ 64 < trimmed.length then
    some ("Enter a valid " ++ label ++ ".")
  else none

/-! ## The catalog -/

section
variable [WebUrl]

def textRecordCatalog : List TextRecordSpec :=
  [ ⟨text "eth", some ethAddressError⟩,
    ⟨text "ltc", none⟩,
    ⟨text "doge", none⟩,
    ⟨text "bsc", some ethAddressError⟩,
    ⟨text "inj", none⟩,
    ⟨text "ipfs", none⟩,
    ⟨text "arwv", none⟩,
    ⟨text "ipns", none⟩,
    ⟨text "shdw", none⟩,
    ⟨text "point", none⟩,
    ⟨text "url", some urlError⟩,
    ⟨text "email", some emailError⟩,
    ⟨text "pic", none⟩,
    ⟨text "discord", some (nonEmptyHandle "Discord username")⟩,
    ⟨text "twitter", some (nonEmptyHandle "Twitter handle")⟩,
    ⟨text "github", some (nonEmptyHandle "GitHub username")⟩,
    ⟨text "reddit", some (nonEmptyHandle "Reddit username")⟩,
    ⟨text "telegram", some (nonEmptyHandle "Telegram username")⟩ ]

def textRecordSpec (key : JsString) : Option TextRecordSpec :=
  textRecordCatalog.find? (·.key == key)

/-- The message of an error, or none. -/
def validateTextRecordInput (key value : JsString) : Option String :=
  match textRecordSpec key with
  | none => some "Unknown record type."
  | some spec =>
      let trimmed := value.trim
      if trimmed = [] then some "Enter a value."
      else
        match spec.validate with
        | some validate => validate trimmed
        | none => if 256 < trimmed.length then some "Value is too long." else none

end

end Sdk

end ArchNameService
