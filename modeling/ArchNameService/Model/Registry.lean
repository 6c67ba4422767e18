import ArchNameService.Registry.Handlers

/-!
# The registry as its users see it

What is registered, published, bound, listed and offered, without accounts,
bytes, rent or account lists. `Registry.Step` says which signed instruction may
change what.
-/

namespace ArchNameService
open Borsh (Str)

/-! ## What the accounts stand for -/

structure Label where
  str : Str
  valid : validateLabel str.bytes = .ok ()
  deriving DecidableEq

/-- A registered name in the hands of its owner. -/
structure Registration where
  label : Label
  owner : ArchAddress
  recordEpoch : UInt64
  primaryBindingNonce : UInt64
  deriving DecidableEq

/-- Which record of a name: its type, and for text records the key. -/
inductive RecordSlot where
  | archOwner
  | bitcoinTaproot
  | tokenAta
  | text (key : List UInt8)
  deriving DecidableEq

def RecordSlot.of (recordType : RecordType) (key : List UInt8) : RecordSlot :=
  match recordType with
  | .archOwner => .archOwner
  | .bitcoinTaproot => .bitcoinTaproot
  | .tokenAta => .tokenAta
  | .text => .text key

def RecordValue.slot : RecordValue → RecordSlot
  | .archOwner _ => .archOwner
  | .bitcoinTaproot _ => .bitcoinTaproot
  | .tokenAta _ _ => .tokenAta
  | .text key _ => .text key.bytes

/-- A record as its writer left it, with the tenure it was written in. -/
structure Publication where
  value : RecordValue
  ownerSnapshot : ArchAddress
  recordEpoch : UInt64
  revision : UInt64
  deriving DecidableEq

structure Binding where
  primaryNameHash : Bytes 32
  bindingNonce : UInt64
  deriving DecidableEq

/-- A price is never zero. -/
structure Terms where
  currency : QuoteCurrency
  price : UInt64
  positive : price ≠ 0
  deriving DecidableEq

structure Listing where
  seller : ArchAddress
  terms : Terms
  active : Bool
  deriving DecidableEq

structure Offer where
  terms : Terms
  active : Bool
  deriving DecidableEq

@[ext] structure Registry where
  authority : Option ArchAddress
  name : Bytes 32 → Option Registration
  record : Bytes 32 × RecordSlot → Option Publication
  reverse : ArchAddress → Option Binding
  listing : Bytes 32 → Option Listing
  offer : Bytes 32 × ArchAddress → Option Offer

namespace Registration

def fresh (label : Label) (owner : ArchAddress) : Registration :=
  { label, owner, recordEpoch := 1, primaryBindingNonce := 0 }

def transfer (n : Registration) (newOwner : ArchAddress) : Registration :=
  { n with
    owner := newOwner
    recordEpoch := saturatingAdd n.recordEpoch 1
    primaryBindingNonce := saturatingAdd n.primaryBindingNonce 1 }

def bind (n : Registration) : Registration :=
  { n with primaryBindingNonce := saturatingAdd n.primaryBindingNonce 1 }

/-- A value published by the owner of the name, over the revision it expects. -/
def publish (n : Registration) (value : RecordValue) (expected : UInt64) : Publication :=
  { value
    ownerSnapshot := n.owner
    recordEpoch := n.recordEpoch
    revision := saturatingAdd expected 1 }

def account (n : Registration) (nameHash : Bytes 32) : NameAccount :=
  { header := .fresh nameAccountDiscriminator
    nameHash
    canonicalLabel := n.label.str
    owner := n.owner
    registeredAtSlot := 0
    expiresAtSlot := Transition.permanentExpiry
    recordEpoch := n.recordEpoch
    primaryBindingNonce := n.primaryBindingNonce }

theorem account_transfer (n : Registration) (h : Bytes 32) (newOwner : ArchAddress) :
    Transition.transfer (n.account h) newOwner = (n.transfer newOwner).account h := rfl

end Registration

def Publication.account (p : Publication) (nameHash : Bytes 32) : RecordAccount :=
  { header := .fresh recordAccountDiscriminator
    nameHash
    recordType := p.value.recordType
    ownerSnapshot := p.ownerSnapshot
    recordEpoch := p.recordEpoch
    revision := p.revision
    value := p.value
    updatedAtSlot := 0 }

def Binding.account (b : Binding) (owner : ArchAddress) : ReverseAccount :=
  { header := .fresh reverseAccountDiscriminator
    owner
    primaryNameHash := b.primaryNameHash
    bindingNonce := b.bindingNonce
    updatedAtSlot := 0 }

def Listing.deactivate (l : Listing) : Listing := { l with active := false }

def Listing.account (l : Listing) (nameHash : Bytes 32) : ListingAccount :=
  { header := .fresh listingAccountDiscriminator
    nameHash
    seller := l.seller
    currency := l.terms.currency
    price := l.terms.price
    createdAtSlot := 0
    active := l.active }

def Offer.deactivate (o : Offer) : Offer := { o with active := false }

def Offer.account (o : Offer) (nameHash : Bytes 32) (buyer : ArchAddress) : OfferAccount :=
  { header := .fresh offerAccountDiscriminator
    nameHash
    buyer
    currency := o.terms.currency
    price := o.terms.price
    createdAtSlot := 0
    active := o.active }

/-! ## Actions -/

/-- An instruction of the registry with the account that signs it. -/
structure Action where
  signer : ArchAddress
  instruction : NameInstruction
  deriving DecidableEq

namespace Action

/-- The name passes to the owner the action names. -/
def moves (h : Bytes 32) (a : Action) : Bool :=
  match a.instruction with
  | .transfer n _ | .buyName n | .acceptOffer n _ => n = h
  | _ => false

/-- The slot a successful write of the value addresses. -/
def slotOfValue (recordType : RecordType) (value : RecordValue) : RecordSlot :=
  .of recordType (value.textKey.getD [])

@[simp] theorem slotOfValue_recordType (value : RecordValue) :
    slotOfValue value.recordType value = value.slot := by
  cases value <;> rfl

def deletesRecord (h : Bytes 32) (slot : RecordSlot) (a : Action) : Bool :=
  match a.instruction with
  | .deleteRecord n recordType textKey _ => n = h ∧ RecordSlot.of recordType textKey.bytes = slot
  | _ => false

def writesRecord (h : Bytes 32) (slot : RecordSlot) (a : Action) : Bool :=
  match a.instruction with
  | .setRecord n recordType value _ => n = h ∧ slotOfValue recordType value = slot
  | _ => a.deletesRecord h slot

def writesPrimary (o : ArchAddress) (a : Action) : Bool :=
  match a.instruction with
  | .setPrimary _ | .clearPrimary => a.signer = o
  | _ => false

def touchesListing (h : Bytes 32) (a : Action) : Bool :=
  match a.instruction with
  | .listName n _ _ | .cancelListing n | .buyName n | .acceptOffer n _ => n = h
  | _ => false

/-- Takes a listing off the market. -/
def endsListing (h : Bytes 32) (a : Action) : Bool :=
  match a.instruction with
  | .cancelListing n | .buyName n | .acceptOffer n _ => n = h
  | _ => false

/-- Takes an offer off the market: its buyer withdraws it, or an owner accepts it. -/
def settlesOffer (h : Bytes 32) (buyer : ArchAddress) (a : Action) : Bool :=
  match a.instruction with
  | .cancelOffer n => n = h ∧ a.signer = buyer
  | .acceptOffer n b => n = h ∧ b = buyer
  | _ => false

def touchesOffer (h : Bytes 32) (buyer : ArchAddress) (a : Action) : Bool :=
  match a.instruction with
  | .makeOffer n _ _ => n = h ∧ a.signer = buyer
  | _ => a.settlesOffer h buyer

end Action

/-! ## Steps -/

namespace Registry

def empty : Registry :=
  { authority := none
    name := fun _ => none
    record := fun _ => none
    reverse := fun _ => none
    listing := fun _ => none
    offer := fun _ => none }

variable (R : Registry)

def setName (h : Bytes 32) (n : Registration) : Registry :=
  { R with name := Function.update R.name h (some n) }

def setRecord (h : Bytes 32) (slot : RecordSlot) (p : Option Publication) : Registry :=
  { R with record := Function.update R.record (h, slot) p }

def setReverse (o : ArchAddress) (b : Option Binding) : Registry :=
  { R with reverse := Function.update R.reverse o b }

def setListing (h : Bytes 32) (l : Option Listing) : Registry :=
  { R with listing := Function.update R.listing h l }

def setOffer (h : Bytes 32) (buyer : ArchAddress) (o : Offer) : Registry :=
  { R with offer := Function.update R.offer (h, buyer) (some o) }

/-- The revision a writer must expect: zero where nothing is published. -/
def revision (h : Bytes 32) (slot : RecordSlot) : UInt64 :=
  match R.record (h, slot) with
  | some p => p.revision
  | none => 0

def listed (h : Bytes 32) : Bool := (R.listing h).any (·.active)

def offered (h : Bytes 32) (buyer : ArchAddress) : Bool := (R.offer (h, buyer)).any (·.active)

/-- A `ClearPrimary` may address an account that is nobody's pointer; whether
such accounts exist is the parameter `decoys`. -/
inductive Step [Crypto] (decoys : Prop) : Registry → Action → Registry → Prop
  | initializeRegistry {R : Registry} {signer : ArchAddress} (hfree : R.authority = none) :
      Step decoys R ⟨signer, .initializeRegistry testnetNetworkId signer⟩
        { R with authority := some signer }
  | register {R : Registry} {signer : ArchAddress} {label : Label} {duration : UInt64}
      (hopen : R.authority.isSome) (hfree : R.name (labelHash label.str.bytes) = none) :
      Step decoys R ⟨signer, .register label.str duration⟩
        (R.setName (labelHash label.str.bytes) (.fresh label signer))
  | transfer {R : Registry} {h : Bytes 32} {newOwner : ArchAddress} {n : Registration}
      (hname : R.name h = some n) (hunlisted : R.listed h = false)
      (hnew : newOwner ≠ Bytes.fill 32 0) :
      Step decoys R ⟨n.owner, .transfer h newOwner⟩ (R.setName h (n.transfer newOwner))
  | setRecord {R : Registry} {h : Bytes 32} {value : RecordValue} {expected : UInt64}
      {authority : ArchAddress} {n : Registration}
      (hopen : R.authority = some authority) (hname : R.name h = some n)
      (hvalue : validateRecordValue (initialConfig testnetNetworkId authority) (n.account h)
        value.recordType value = .ok ())
      (hrevision : R.revision h value.slot = expected) :
      Step decoys R ⟨n.owner, .setRecord h value.recordType value expected⟩
        (R.setRecord h value.slot (some (n.publish value expected)))
  | deleteRecord {R : Registry} {h : Bytes 32} {recordType : RecordType} {textKey : Str}
      {n : Registration} {p : Publication}
      (hname : R.name h = some n)
      (hrecord : R.record (h, .of recordType textKey.bytes) = some p)
      (howner : p.ownerSnapshot = n.owner) (hepoch : p.recordEpoch = n.recordEpoch) :
      Step decoys R ⟨n.owner, .deleteRecord h recordType textKey p.revision⟩
        (R.setRecord h (.of recordType textKey.bytes) none)
  | setPrimary {R : Registry} {h : Bytes 32} {n : Registration} (hname : R.name h = some n) :
      Step decoys R ⟨n.owner, .setPrimary h⟩
        ((R.setName h n.bind).setReverse n.owner (some ⟨h, n.bind.primaryBindingNonce⟩))
  | clearPrimary {R : Registry} {signer : ArchAddress} {b : Binding}
      (hbound : R.reverse signer = some b) :
      Step decoys R ⟨signer, .clearPrimary⟩ (R.setReverse signer none)
  | clearDecoy {R : Registry} {signer : ArchAddress} (hdecoys : decoys) :
      Step decoys R ⟨signer, .clearPrimary⟩ R
  | listName {R : Registry} {h : Bytes 32} {terms : Terms} {n : Registration}
      (hname : R.name h = some n) (hunlisted : R.listed h = false) :
      Step decoys R ⟨n.owner, .listName h terms.currency terms.price⟩
        (R.setListing h (some ⟨n.owner, terms, true⟩))
  | cancelListing {R : Registry} {h : Bytes 32} {n : Registration} {l : Listing}
      (hname : R.name h = some n) (hlisting : R.listing h = some l) (hactive : l.active = true)
      (hseller : l.seller = n.owner) :
      Step decoys R ⟨n.owner, .cancelListing h⟩ (R.setListing h (some l.deactivate))
  | buyName {R : Registry} {h : Bytes 32} {buyer : ArchAddress} {n : Registration} {l : Listing}
      (hname : R.name h = some n) (hlisting : R.listing h = some l) (hactive : l.active = true)
      (hseller : l.seller = n.owner) (hbuyer : buyer ≠ n.owner) :
      Step decoys R ⟨buyer, .buyName h⟩
        ((R.setName h (n.transfer buyer)).setListing h (some l.deactivate))
  | makeOffer {R : Registry} {h : Bytes 32} {buyer : ArchAddress} {terms : Terms}
      {n : Registration} (hname : R.name h = some n) (hbuyer : n.owner ≠ buyer)
      (hfree : R.offered h buyer = false) :
      Step decoys R ⟨buyer, .makeOffer h terms.currency terms.price⟩
        (R.setOffer h buyer ⟨terms, true⟩)
  | cancelOffer {R : Registry} {h : Bytes 32} {buyer : ArchAddress} {o : Offer}
      (hoffer : R.offer (h, buyer) = some o) (hactive : o.active = true) :
      Step decoys R ⟨buyer, .cancelOffer h⟩ (R.setOffer h buyer o.deactivate)
  | acceptOffer {R : Registry} {h : Bytes 32} {buyer : ArchAddress} {n : Registration} {o : Offer}
      (hname : R.name h = some n) (hoffer : R.offer (h, buyer) = some o)
      (hactive : o.active = true) :
      Step decoys R ⟨n.owner, .acceptOffer h buyer⟩
        (((R.setName h (n.transfer buyer)).setListing h ((R.listing h).map (·.deactivate))).setOffer
          h buyer o.deactivate)

end Registry

end ArchNameService
