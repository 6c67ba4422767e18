import ArchNameService.Runtime.Ledger

/-! State transitions of single accounts (`transition.rs`, `marketplace.rs`, `availability.rs`). -/

namespace ArchNameService
open Borsh (Str)

/-! ## Names and records -/

namespace Transition

def permanentExpiry : UInt64 := UInt64.ofNat (2 ^ 64 - 1)

def register [Crypto] (label : Str) (owner : ArchAddress) : Except AnsError NameAccount := do
  let hash ← nameHash (label.bytes ++ archSuffix)
  pure
    { header := .fresh nameAccountDiscriminator
      nameHash := hash
      canonicalLabel := label
      owner
      registeredAtSlot := 0
      expiresAtSlot := permanentExpiry
      recordEpoch := 1
      primaryBindingNonce := 0 }

def transfer (name : NameAccount) (newOwner : ArchAddress) : NameAccount :=
  { name with
    owner := newOwner
    recordEpoch := saturatingAdd name.recordEpoch 1
    primaryBindingNonce := saturatingAdd name.primaryBindingNonce 1 }

/-- The revision a write leaves: compare-and-swap on the revision it expects. -/
def nextRevision (existing : Option RecordAccount) (expectedRevision : UInt64) :
    Except AnsError UInt64 :=
  match existing with
  | some record =>
      if record.revision = expectedRevision then .ok (saturatingAdd record.revision 1)
      else .error .staleRecord
  | none => if expectedRevision = 0 then .ok 1 else .error .staleRecord

def setRecord [Crypto] (config : RegistryConfig) (name : NameAccount)
    (existing : Option RecordAccount) (recordType : RecordType) (value : RecordValue)
    (expectedRevision : UInt64) : Except AnsError RecordAccount := do
  validateRecordValue config name recordType value
  let revision ← nextRevision existing expectedRevision
  pure
    { header := .fresh recordAccountDiscriminator
      nameHash := name.nameHash
      recordType
      ownerSnapshot := name.owner
      recordEpoch := name.recordEpoch
      revision
      value
      updatedAtSlot := 0 }

/-- The name with its nonce advanced, and the pointer bound to that nonce. -/
def setPrimary (name : NameAccount) : NameAccount × ReverseAccount :=
  let name := { name with primaryBindingNonce := saturatingAdd name.primaryBindingNonce 1 }
  (name,
    { header := .fresh reverseAccountDiscriminator
      owner := name.owner
      primaryNameHash := name.nameHash
      bindingNonce := name.primaryBindingNonce
      updatedAtSlot := 0 })

end Transition

/-! ## Listings and offers -/

namespace Marketplace

def createListing (nameHash : Bytes 32) (seller : ArchAddress) (currency : QuoteCurrency)
    (price : UInt64) : ListingAccount :=
  { header := .fresh listingAccountDiscriminator
    nameHash, seller, currency, price
    createdAtSlot := 0
    active := true }

def deactivateListing (listing : ListingAccount) : ListingAccount := { listing with active := false }

def createOffer (nameHash : Bytes 32) (buyer : ArchAddress) (currency : QuoteCurrency)
    (price : UInt64) : OfferAccount :=
  { header := .fresh offerAccountDiscriminator
    nameHash, buyer, currency, price
    createdAtSlot := 0
    active := true }

def deactivateOffer (offer : OfferAccount) : OfferAccount := { offer with active := false }

end Marketplace

/-! ## Availability of a name account -/

namespace Availability

def isInitializedNameAccount (data : List UInt8) : Bool :=
  match decodeState (T := NameAccount) data with
  | some existing => (existing.header.validate nameAccountDiscriminator).isOk
  | none => false

def isResumableNameAccountData (data : List UInt8) : Bool :=
  data.isEmpty || data.all fun b => b == 0

def ensureProgramOwnedNameAvailable (data : List UInt8) : Except AnsError Unit := do
  reject (isInitializedNameAccount data) .nameTaken
  if isResumableNameAccountData data then pure () else .error .unsupportedAccountVersion

/-- A stored name account with a valid header is taken. -/
theorem encoded_name_taken {name : NameAccount} (h : name.header = .fresh nameAccountDiscriminator) :
    ensureProgramOwnedNameAvailable (encodeState name) = .error .nameTaken := by
  have hvalid : name.header.validate nameAccountDiscriminator = .ok () :=
    AccountHeader.validate_ok_iff.mpr h
  have hinit : isInitializedNameAccount (encodeState name) = true := by
    simp only [isInitializedNameAccount, decodeState_encodeState, hvalid]
    rfl
  simp only [ensureProgramOwnedNameAvailable, reject, hinit, if_true]
  rfl

end Availability

end ArchNameService
