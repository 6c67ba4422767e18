import ArchNameService.Sdk.Codec
import ArchNameService.Sdk.Derive

/-!
# Instructions that the SDK builds

The builders of `instructions/builders.ts`. An address that a caller supplies is an
array of bytes of any length; a price is a `bigint` of any size.
-/

namespace ArchNameService

namespace Sdk
open BorshWriter

structure AccountMeta where
  pubkey : List UInt8
  isSigner : Bool
  isWritable : Bool
  deriving DecidableEq

structure BuiltInstruction where
  programId : ArchAddress
  accounts : List AccountMeta
  data : List UInt8
  deriving DecidableEq

def systemProgramId : ArchAddress := Bytes.fill 32 0

def tokenProgramBytes : List UInt8 :=
  [6, 221, 246, 225, 185, 234, 132, 65, 44, 16, 184, 223, 2, 28, 16, 15, 200, 135, 25, 7, 195, 9,
    195, 53, 53, 222, 32, 156, 52, 23, 99, 191]

theorem length_tokenProgramBytes : tokenProgramBytes.length = 32 := rfl

def tokenProgramId : ArchAddress := ⟨tokenProgramBytes, length_tokenProgramBytes⟩

def abtcMintBytes : List UInt8 :=
  [0x72, 0x61, 0x79, 0xcf, 0x49, 0xb6, 0xdc, 0x40, 0x7c, 0x14, 0x38, 0xce, 0xc9, 0x88, 0x15, 0xd9,
    0x22, 0x77, 0xb6, 0x25, 0xb0, 0x9d, 0xe8, 0x18, 0x18, 0xf5, 0xf3, 0xa5, 0x79, 0x89, 0xf1, 0xf1]

theorem length_abtcMintBytes : abtcMintBytes.length = 32 := rfl

def testnetAbtcMint : ArchAddress := ⟨abtcMintBytes, length_abtcMintBytes⟩

/-! ## What the encoder takes besides values of the wire -/

/-- `n` times `v & 0xffn` and `v >>= 8n`, of a `bigint`. -/
def bigBytes : Nat → Int → List UInt8
  | 0, _ => []
  | n+1, v => UInt8.ofNat (v % 256).toNat :: bigBytes n (v / 256)

/-- `BorshWriter.u64` checks no range. -/
def bigU64 (value : Int) : List UInt8 := bigBytes 8 value

/-- `encodeInstruction` of `ListName`. -/
def encodeListName (nameHash : Bytes 32) (currency : QuoteCurrency) (price : Int) : List UInt8 :=
  u8 10 ++ pubkey nameHash ++ encodeQuoteCurrency currency ++ bigU64 price

/-- `encodeInstruction` of `MakeOffer`. -/
def encodeMakeOffer (nameHash : Bytes 32) (currency : QuoteCurrency) (price : Int) : List UInt8 :=
  u8 13 ++ pubkey nameHash ++ encodeQuoteCurrency currency ++ bigU64 price

/-- `BorshWriter.pubkey` checks the length. -/
def asPubkey (value : List UInt8) : Except Thrown (Bytes 32) :=
  orElseError (.error "pubkey must be 32 bytes") (Bytes.ofList? 32 value)

/-! ## Builders -/

section Builders
variable [Crypto] [Platform] (programId registryConfig : ArchAddress) (ns : JsString)

def buildRegisterInstruction (owner : List UInt8) (label : JsString) (durationSlots : Option UInt64) :
    Except Thrown BuiltInstruction := do
  let label ← canonicalizeLabel label
  let hash ← nameHash (label ++ text ".arch")
  let nameAccount := deriveNameAddress programId ns hash
  pure
    { programId
      accounts :=
        [ ⟨owner, true, true⟩, ⟨registryConfig.toList, false, false⟩,
          ⟨nameAccount.toList, false, true⟩, ⟨systemProgramId.toList, false, false⟩ ]
      data := encodeInstruction (.register label (durationSlots.getD 0)) }

def buildTransferInstruction (owner : List UInt8) (name : JsString) (newOwner : List UInt8) :
    Except Thrown BuiltInstruction := do
  let hash ← nameHash name
  let nameAccount := deriveNameAddress programId ns hash
  let listingAccount := deriveListingAddress programId ns hash
  let newOwner ← asPubkey newOwner
  pure
    { programId
      accounts :=
        [ ⟨owner, true, true⟩, ⟨registryConfig.toList, false, false⟩,
          ⟨nameAccount.toList, false, true⟩, ⟨listingAccount.toList, false, false⟩ ]
      data := encodeInstruction (.transfer hash newOwner) }

def buildListNameInstruction (seller : List UInt8) (name : JsString) (currency : QuoteCurrency)
    (price : Int) : Except Thrown BuiltInstruction := do
  let hash ← nameHash name
  let nameAccount := deriveNameAddress programId ns hash
  let listingAccount := deriveListingAddress programId ns hash
  pure
    { programId
      accounts :=
        [ ⟨seller, true, true⟩, ⟨registryConfig.toList, false, false⟩,
          ⟨nameAccount.toList, false, false⟩, ⟨listingAccount.toList, false, true⟩,
          ⟨systemProgramId.toList, false, false⟩ ]
      data := encodeListName hash currency price }

def buildCancelListingInstruction (seller : List UInt8) (name : JsString) :
    Except Thrown BuiltInstruction := do
  let hash ← nameHash name
  let nameAccount := deriveNameAddress programId ns hash
  let listingAccount := deriveListingAddress programId ns hash
  pure
    { programId
      accounts :=
        [ ⟨seller, true, true⟩, ⟨registryConfig.toList, false, false⟩,
          ⟨nameAccount.toList, false, false⟩, ⟨listingAccount.toList, false, true⟩ ]
      data := encodeInstruction (.cancelListing hash) }

/-- The accounts of an aBTC settlement, and the message where one is missing. -/
def tokenMetas (currency : QuoteCurrency) (message : String) (buyerAta sellerAta : Option (List UInt8)) :
    Except Thrown (List AccountMeta) :=
  match currency with
  | .arch => pure []
  | .btc =>
      match buyerAta, sellerAta with
      | some buyerAta, some sellerAta =>
          pure
            [ ⟨buyerAta, false, true⟩, ⟨sellerAta, false, true⟩,
              ⟨testnetAbtcMint.toList, false, false⟩, ⟨tokenProgramId.toList, false, false⟩ ]
      | _, _ => throw (.error message)

def buildBuyNameInstruction (buyer seller : List UInt8) (name : JsString) (currency : QuoteCurrency)
    (buyerAta sellerAta : Option (List UInt8)) : Except Thrown BuiltInstruction := do
  let hash ← nameHash name
  let nameAccount := deriveNameAddress programId ns hash
  let listingAccount := deriveListingAddress programId ns hash
  let tokens ← tokenMetas currency "BTC purchases require buyer and seller aBTC ATAs" buyerAta sellerAta
  pure
    { programId
      accounts :=
        [ ⟨buyer, true, true⟩, ⟨seller, false, true⟩, ⟨registryConfig.toList, false, false⟩,
          ⟨nameAccount.toList, false, true⟩, ⟨listingAccount.toList, false, true⟩ ] ++ tokens
      data := encodeInstruction (.buyName hash) }

def buildMakeOfferInstruction (buyer : List UInt8) (name : JsString) (currency : QuoteCurrency)
    (price : Int) : Except Thrown BuiltInstruction := do
  let hash ← nameHash name
  let nameAccount := deriveNameAddress programId ns hash
  let offerAccount := deriveOfferAddress programId ns hash buyer
  pure
    { programId
      accounts :=
        [ ⟨buyer, true, true⟩, ⟨registryConfig.toList, false, false⟩,
          ⟨nameAccount.toList, false, false⟩, ⟨offerAccount.toList, false, true⟩,
          ⟨systemProgramId.toList, false, false⟩ ]
      data := encodeMakeOffer hash currency price }

def buildCancelOfferInstruction (buyer : List UInt8) (name : JsString) :
    Except Thrown BuiltInstruction := do
  let hash ← nameHash name
  let offerAccount := deriveOfferAddress programId ns hash buyer
  pure
    { programId
      accounts :=
        [ ⟨buyer, true, true⟩, ⟨registryConfig.toList, false, false⟩,
          ⟨offerAccount.toList, false, true⟩ ]
      data := encodeInstruction (.cancelOffer hash) }

/-- The buyer signs as well where the offer is in aBTC. -/
def buildAcceptOfferInstruction (seller buyer : List UInt8) (name : JsString)
    (currency : QuoteCurrency) (buyerAta sellerAta : Option (List UInt8)) :
    Except Thrown BuiltInstruction := do
  let hash ← nameHash name
  let nameAccount := deriveNameAddress programId ns hash
  let offerAccount := deriveOfferAddress programId ns hash buyer
  let listingAccount := deriveListingAddress programId ns hash
  let buyerIsSigner := currency = .btc
  let tokens ←
    tokenMetas currency "BTC offer accepts require buyer and seller aBTC ATAs" buyerAta sellerAta
  let buyerKey ← asPubkey buyer
  pure
    { programId
      accounts :=
        [ ⟨seller, true, true⟩, ⟨buyer, buyerIsSigner, true⟩, ⟨registryConfig.toList, false, false⟩,
          ⟨nameAccount.toList, false, true⟩, ⟨offerAccount.toList, false, true⟩,
          ⟨listingAccount.toList, false, true⟩ ] ++ tokens
      data := encodeInstruction (.acceptOffer hash buyerKey) }

def buildSetRecordInstruction (owner : List UInt8) (name : JsString) (recordType : RecordType)
    (value : RecordValue) (expectedRevision : UInt64) : Except Thrown BuiltInstruction := do
  let hash ← nameHash name
  let nameAccount := deriveNameAddress programId ns hash
  let recordAccount ← deriveRecordAddressFor programId ns hash recordType value.key?
  pure
    { programId
      accounts :=
        [ ⟨owner, true, true⟩, ⟨registryConfig.toList, false, false⟩,
          ⟨nameAccount.toList, false, true⟩, ⟨recordAccount.toList, false, true⟩,
          ⟨systemProgramId.toList, false, false⟩ ]
      data := encodeInstruction (.setRecord hash recordType value expectedRevision) }

def buildSetPrimaryInstruction (owner : List UInt8) (name : JsString) :
    Except Thrown BuiltInstruction := do
  let hash ← nameHash name
  let nameAccount := deriveNameAddress programId ns hash
  let reverseAccount := deriveReverseAddress programId ns owner
  pure
    { programId
      accounts :=
        [ ⟨owner, true, true⟩, ⟨registryConfig.toList, false, false⟩,
          ⟨nameAccount.toList, false, true⟩, ⟨reverseAccount.toList, false, true⟩,
          ⟨systemProgramId.toList, false, false⟩ ]
      data := encodeInstruction (.setPrimary hash) }

def buildClearPrimaryInstruction (owner : List UInt8) : BuiltInstruction :=
  { programId
    accounts := [⟨owner, true, true⟩, ⟨(deriveReverseAddress programId ns owner).toList, false, true⟩]
    data := encodeInstruction .clearPrimary }

end Builders

end Sdk

end ArchNameService
