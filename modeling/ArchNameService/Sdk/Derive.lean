import ArchNameService.Protocol.Derive
import ArchNameService.Sdk.Types

/-! Names and derived addresses of the SDK (`name.ts`, `hash.ts`, `derive.ts`). -/

namespace ArchNameService

namespace Sdk
open Crypto JsString

/-- What the platform and the packages outside the repository compute: case folding by
the tables of Unicode, for text that is not ASCII, and the two functions of `bech32m`. -/
class Platform where
  lowerUnicode : JsString → JsString
  bech32mToWords : List UInt8 → List Nat
  bech32mEncode : JsString → List Nat → Except Thrown JsString

/-- The string of a literal. -/
def text (s : String) : JsString := ofAscii (ascii s)

/-! ## Names -/

def archSuffix : JsString := text ".arch"
def nameHashDomain : List UInt8 := (text "arch-name-service:name-hash:v1").encode ++ [0]
def namespaceDomain : List UInt8 := (text "arch-name-service:namespace:v1").encode ++ [0]
def recordKeyDomain : List UInt8 := (text "arch-name-service:record-key:v1").encode ++ [0]

/-- `String.prototype.toLowerCase`. -/
def toLowerCase [Platform] (s : JsString) : JsString :=
  if s.all (· < 0x80) then s.map lowerAscii else Platform.lowerUnicode s

def validateLabel (label : JsString) : Except Thrown Unit := do
  reject (label.length < 1 ∨ 63 < label.length) (.ansError .invalidLabelLength none)
  reject (startsWith (text "-") label ∨ endsWith (text "-") label ∨ includes (text "--") label)
    (.ansError .invalidHyphenPlacement none)
  reject (label.encode.any fun byte =>
      !(0x61 ≤ byte && byte ≤ 0x7A) && !(0x30 ≤ byte && byte ≤ 0x39) && byte != 0x2D)
    (.ansError .invalidLabelCharacter none)

def canonicalizeName [Platform] (input : JsString) : Except Thrown JsString := do
  let normalized := toLowerCase input.trim
  reject (¬ endsWith archSuffix normalized) (.ansError .invalidSuffix none)
  let label := dropEnd archSuffix.length normalized
  validateLabel label
  pure (label ++ archSuffix)

/-- The canonical label, without the suffix, of any accepted spelling. -/
def canonicalizeLabel [Platform] (label : JsString) : Except Thrown JsString := do
  let name ← canonicalizeName (label.trim ++ archSuffix)
  pure (dropEnd archSuffix.length name)

section Hashes
variable [Crypto]

def namespaceHash (ns : JsString) : Bytes 32 := sha256 (namespaceDomain ++ ns.encode)

def hashName (canonicalName : JsString) : Bytes 32 := sha256 (nameHashDomain ++ canonicalName.encode)

def recordKeyHash (key : JsString) : Bytes 32 := sha256 (recordKeyDomain ++ key.encode)

def nameHash [Platform] (input : JsString) : Except Thrown (Bytes 32) := do
  let canonicalName ← canonicalizeName input
  pure (hashName canonicalName)

end Hashes

/-! ## Addresses -/

def configSeed : List UInt8 := (text "ans:config:v1").encode
def nameSeed : List UInt8 := (text "ans:name:v1").encode
def recordSeed : List UInt8 := (text "ans:record:v1").encode
def reverseSeed : List UInt8 := (text "ans:reverse:v1").encode
def listingSeed : List UInt8 := (text "ans:listing:v1").encode
def offerSeed : List UInt8 := (text "ans:offer:v1").encode

def encodeU32LE (value : UInt32) : List UInt8 := leBytes 4 value.toNat

def recordTypeByte : RecordType → UInt8
  | .archOwner => 0
  | .bitcoinTaproot => 1
  | .tokenAta => 2
  | .text => 3

section Addresses
variable [Crypto]

def derive (programId : ArchAddress) (seeds : List (List UInt8)) : ArchAddress :=
  (findProgramAddress seeds programId).1

def deriveConfigAddress (programId : ArchAddress) (networkId : UInt32) (ns : JsString) :
    ArchAddress :=
  derive programId [configSeed, encodeU32LE networkId, (namespaceHash ns).toList]

def deriveNameAddress (programId : ArchAddress) (ns : JsString) (nameHash : Bytes 32) :
    ArchAddress :=
  derive programId [nameSeed, (namespaceHash ns).toList, nameHash.toList]

def deriveRecordAddress (programId : ArchAddress) (ns : JsString) (nameHash : Bytes 32)
    (recordType : RecordType) : ArchAddress :=
  derive programId [recordSeed, (namespaceHash ns).toList, nameHash.toList,
    [recordTypeByte recordType]]

def deriveTextRecordAddress (programId : ArchAddress) (ns : JsString) (nameHash : Bytes 32)
    (key : JsString) : ArchAddress :=
  derive programId [recordSeed, (namespaceHash ns).toList, nameHash.toList,
    [recordTypeByte .text], (recordKeyHash key).toList]

/-- An empty key counts as a missing one. -/
def deriveRecordAddressFor (programId : ArchAddress) (ns : JsString) (nameHash : Bytes 32)
    (recordType : RecordType) (textKey : Option JsString) : Except Thrown ArchAddress :=
  match recordType with
  | .text => do
      let key ← orElseError (.error "Text records require a key") (textKey.filter (· ≠ []))
      pure (deriveTextRecordAddress programId ns nameHash key)
  | _ => pure (deriveRecordAddress programId ns nameHash recordType)

/-- The bytes of the owner need not be a key. -/
def deriveReverseAddress (programId : ArchAddress) (ns : JsString) (owner : List UInt8) :
    ArchAddress :=
  derive programId [reverseSeed, (namespaceHash ns).toList, owner]

def deriveListingAddress (programId : ArchAddress) (ns : JsString) (nameHash : Bytes 32) :
    ArchAddress :=
  derive programId [listingSeed, (namespaceHash ns).toList, nameHash.toList]

def deriveOfferAddress (programId : ArchAddress) (ns : JsString) (nameHash : Bytes 32)
    (buyer : List UInt8) : ArchAddress :=
  derive programId [offerSeed, (namespaceHash ns).toList, nameHash.toList, buyer]

def deriveTokenAta (owner tokenId tokenProgramId associatedTokenProgramId : ArchAddress) :
    ArchAddress :=
  (findProgramAddress [owner.toList, tokenProgramId.toList, tokenId.toList]
    associatedTokenProgramId).1

end Addresses

end Sdk

end ArchNameService
