import ArchNameService.Sdk.Builders
import ArchNameService.Sdk.Resolve

/-!
# The client

The reads of `ans-client.ts`: one account, one record, the primary name of an owner,
and the profile that loads them all in one batch; and its builders, which pass the
deployment on.
-/

namespace ArchNameService

namespace Sdk
open JsString

structure AccountInfo where
  data : List UInt8
  owner : List UInt8
  deriving DecidableEq

/-- The reads of `AnsTransport`. Batches are optional. -/
structure AnsTransport where
  readAccountInfo : ArchAddress → Except Thrown (Option AccountInfo)
  getMultipleAccounts : Option (List ArchAddress → Except Thrown (List (Option AccountInfo)))
  getCurrentSlot : Except Thrown UInt64

structure AnsClient where
  programId : ArchAddress
  registryConfigAddress : ArchAddress
  «namespace» : JsString
  transport : AnsTransport

/-- The text of a message. -/
def display (s : JsString) : String := String.ofList (s.codePoints.map Char.ofNat)

/-- `catch`: an invalid binding means that there is no primary name. -/
def catchInvalidBinding (attempt : Except Thrown (Option JsString)) :
    Except Thrown (Option JsString) :=
  match attempt with
  | .error (.ansError .invalidReverseBinding _) => .ok none
  | outcome => outcome

/-! ## An object of keys -/

inductive Prototype (α : Type) where
  | standard
  | null
  | value (a : α)

/-- An object literal that is used as a map: a value is something or `null`. -/
structure Dictionary (α : Type) where
  own : List (JsString × Option α)
  prototype : Prototype α

namespace Dictionary
variable {α : Type}

def empty : Dictionary α := { own := [], prototype := .standard }

def protoKey : JsString := text "__proto__"

/-- `object[key] = value`: `__proto__` sets the prototype, as long as there is one. -/
def set (d : Dictionary α) (key : JsString) (value : Option α) : Dictionary α :=
  match d.prototype, decide (key = protoKey) with
  | .null, _ | _, false => { d with own := (key, value) :: d.own }
  | _, true => { d with prototype := match value with | none => .null | some a => .value a }

/-- `object[key]` of a key that was assigned; `none` is `undefined`. -/
def get (d : Dictionary α) (key : JsString) : Option (Option α) :=
  match d.own.lookup key with
  | some value => some value
  | none =>
      match d.prototype with
      | .value a => if key = protoKey then some (some a) else none
      | _ => none

end Dictionary

/-! ## Reads -/

structure NameAvailabilityResult where
  canonical : JsString
  availability : NameAvailability
  account : Option NameAccount

structure NameProfile where
  nameAccount : Option NameAccount
  archOwner : Option RecordAccount
  taproot : Option RecordAccount
  textByKey : Dictionary RecordAccount
  primaryName : Option JsString

namespace AnsClient
variable [Crypto] [Platform] (client : AnsClient)

omit [Crypto] [Platform] in
def fetchRegistryConfig : Except Thrown RegistryConfig := do
  let account ← client.transport.readAccountInfo client.registryConfigAddress
  let account ← orElseError (.ansError .accountNotFound (some "registry config missing")) account
  reject (account.owner ≠ client.programId.toList) (.ansError .incorrectProgramId none)
  let config ← decodeRegistryConfig account.data
  validateHeader config.header registryConfigDiscriminator
  pure config

def getNameAvailability (name : JsString) : Except Thrown NameAvailabilityResult := do
  let canonical ← canonicalizeName name
  let hash ← nameHash canonical
  let address := deriveNameAddress client.programId client.namespace hash
  match ← client.transport.readAccountInfo address with
  | none => pure { canonical, availability := .available, account := none }
  | some accountInfo =>
      if accountInfo.data = [] then pure { canonical, availability := .available, account := none }
      else do
        reject (accountInfo.owner ≠ client.programId.toList) (.ansError .incorrectProgramId none)
        let classified := classifyNameAccountData (some accountInfo.data)
        pure { canonical, availability := classified.availability, account := classified.account }

def fetchNameAccount (name : JsString) : Except Thrown (Option NameAccount) := do
  let status ← client.getNameAvailability name
  match status.availability with
  | .taken => pure status.account
  | .available => pure none
  | .unavailable =>
      throw (.ansError .unsupportedAccountVersion (some
        (display status.canonical ++ " name account is present but not a valid registration")))

/-- The record in the data of an account that was found. -/
def recordOf (account : AccountInfo) : Except Thrown RecordAccount := do
  let decoded ← decodeRecordAccount account.data
  validateHeader decoded.header recordAccountDiscriminator
  pure decoded

def fetchRecord (name : JsString) (recordType : RecordType) (textKey : Option JsString) :
    Except Thrown (Option RecordAccount) := do
  let hash ← nameHash name
  let address ← deriveRecordAddressFor client.programId client.namespace hash recordType textKey
  match ← client.transport.readAccountInfo address with
  | none => pure none
  | some account =>
      if account.data = [] then pure none
      else do
        let record ← recordOf account
        pure (some record)

def resolvePrimary (owner : ArchAddress) : Except Thrown (Option JsString) := do
  let config ← client.fetchRegistryConfig
  let reverseAddress := deriveReverseAddress client.programId client.namespace owner.toList
  match ← client.transport.readAccountInfo reverseAddress with
  | none => pure none
  | some reverseAccount =>
      if reverseAccount.data = [] then pure none
      else do
        let reverse ← decodeReverseAccount reverseAccount.data
        validateHeader reverse.header reverseAccountDiscriminator
        let nameAddress := deriveNameAddress client.programId client.namespace reverse.primaryNameHash
        match ← client.transport.readAccountInfo nameAddress with
        | none => pure none
        | some nameAccount => do
            let slot ← client.transport.getCurrentSlot
            catchInvalidBinding do
              let name ← decodeNameAccount nameAccount.data
              let primary ← Sdk.resolvePrimary client.programId
                ⟨client.registryConfigAddress, config⟩ ⟨reverseAddress, reverse⟩
                ⟨nameAddress, name⟩ slot
              pure (some primary)

/-! ## The profile -/

omit [Crypto] [Platform] in
/-- One batch, or parallel reads where there are no batches. -/
def readAccounts (addresses : List ArchAddress) : Except Thrown (List (Option AccountInfo)) :=
  match client.transport.getMultipleAccounts with
  | some getMultipleAccounts => getMultipleAccounts addresses
  | none => addresses.mapM client.transport.readAccountInfo

/-- The name account of the profile. -/
def profileName (nameRaw : Option AccountInfo) : Except Thrown (Option NameAccount) :=
  match nameRaw with
  | none => pure none
  | some nameRaw =>
      if nameRaw.data = [] then pure none
      else do
        reject (nameRaw.owner ≠ client.programId.toList) (.ansError .incorrectProgramId none)
        let decoded ← decodeNameAccount nameRaw.data
        validateHeader decoded.header nameAccountDiscriminator
        pure (some decoded)

/-- A record that cannot be read counts as missing. -/
def decodeRecord (raw : Option AccountInfo) : Option RecordAccount :=
  match raw with
  | none => none
  | some raw => if raw.data = [] then none else (recordOf raw).toOption

/-- What the reverse account binds to the name account it points to. -/
def boundPrimary (reverseAddress primaryNameAddress : ArchAddress) (reverse : ReverseAccount)
    (primaryNameRaw : Option AccountInfo) : Except Thrown (Option JsString) :=
  match primaryNameRaw with
  | none => pure none
  | some primaryNameRaw =>
      if primaryNameRaw.data = [] then pure none
      else do
        let config ← client.fetchRegistryConfig
        let slot ← client.transport.getCurrentSlot
        let name ← decodeNameAccount primaryNameRaw.data
        let primary ← Sdk.resolvePrimary client.programId
          ⟨client.registryConfigAddress, config⟩ ⟨reverseAddress, reverse⟩
          ⟨primaryNameAddress, name⟩ slot
        pure (some primary)

/-- The primary name of the profile; the name account that was loaded is not read again. -/
def profilePrimary (nameAddress reverseAddress : ArchAddress)
    (nameRaw reverseRaw : Option AccountInfo) : Except Thrown (Option JsString) :=
  match reverseRaw with
  | none => pure none
  | some reverseRaw =>
      if reverseRaw.data = [] then pure none
      else catchInvalidBinding do
        let reverse ← decodeReverseAccount reverseRaw.data
        validateHeader reverse.header reverseAccountDiscriminator
        let primaryNameAddress :=
          deriveNameAddress client.programId client.namespace reverse.primaryNameHash
        let loaded := if primaryNameAddress = nameAddress then nameRaw else none
        let primaryNameRaw ←
          match loaded with
          | some raw => pure (some raw)
          | none => client.transport.readAccountInfo primaryNameAddress
        client.boundPrimary reverseAddress primaryNameAddress reverse primaryNameRaw

def fetchNameProfile (name : JsString) (textKeys : List JsString)
    (primaryOwner : Option ArchAddress) : Except Thrown NameProfile := do
  let canonical ← canonicalizeName name
  let hash ← nameHash canonical
  let nameAddress := deriveNameAddress client.programId client.namespace hash
  let archOwnerAddress ←
    deriveRecordAddressFor client.programId client.namespace hash .archOwner none
  let taprootAddress ←
    deriveRecordAddressFor client.programId client.namespace hash .bitcoinTaproot none
  let textAddresses ← textKeys.mapM fun key =>
    deriveRecordAddressFor client.programId client.namespace hash .text (some key)
  let reverseAddress := primaryOwner.map fun owner =>
    deriveReverseAddress client.programId client.namespace owner.toList
  let addresses :=
    [nameAddress, archOwnerAddress, taprootAddress] ++ textAddresses ++ reverseAddress.toList
  let accounts ← client.readAccounts addresses
  let nameRaw := accounts[0]?.join
  let nameAccount ← client.profileName nameRaw
  let archOwner := decodeRecord accounts[1]?.join
  let taproot := decodeRecord accounts[2]?.join
  let textByKey := textKeys.zipIdx.foldl
    (fun d (key, index) => d.set key (decodeRecord accounts[3 + index]?.join)) Dictionary.empty
  let primaryName ←
    match reverseAddress with
    | none => pure none
    | some reverseAddress =>
        client.profilePrimary nameAddress reverseAddress nameRaw accounts[3 + textKeys.length]?.join
  pure { nameAccount, archOwner, taproot, textByKey, primaryName }

/-- The record of a name, resolved from the accounts of the present. -/
def resolveRecord (name : JsString) (recordType : RecordType) (textKey : Option JsString) :
    Except Thrown RecordValue := do
  let config ← client.fetchRegistryConfig
  let hash ← nameHash name
  let nameAddress := deriveNameAddress client.programId client.namespace hash
  let recordAddress ←
    deriveRecordAddressFor client.programId client.namespace hash recordType textKey
  let nameAccount ← client.transport.readAccountInfo nameAddress
  let recordAccount ← client.transport.readAccountInfo recordAddress
  let nameAccount ← orElseError
    (.ansError .accountNotFound (some ("name account for " ++ display name))) nameAccount
  let recordAccount ← orElseError
    (.ansError .accountNotFound (some ("record account for " ++ display name))) recordAccount
  let slot ← client.transport.getCurrentSlot
  let nameState ← decodeNameAccount nameAccount.data
  let recordState ← decodeRecordAccount recordAccount.data
  Sdk.resolveRecord client.programId ⟨client.registryConfigAddress, config⟩ name
    ⟨nameAddress, nameState⟩ ⟨recordAddress, recordState⟩ recordType slot textKey

/-! ## Builders -/

def buildRegister (owner : List UInt8) (label : JsString) : Except Thrown BuiltInstruction :=
  buildRegisterInstruction client.programId client.registryConfigAddress client.namespace owner
    label none

def buildTransfer (owner : List UInt8) (name : JsString) (newOwner : List UInt8) :
    Except Thrown BuiltInstruction :=
  buildTransferInstruction client.programId client.registryConfigAddress client.namespace owner
    name newOwner

def buildListName (seller : List UInt8) (name : JsString) (currency : QuoteCurrency) (price : Int) :
    Except Thrown BuiltInstruction :=
  buildListNameInstruction client.programId client.registryConfigAddress client.namespace seller
    name currency price

def buildCancelListing (seller : List UInt8) (name : JsString) : Except Thrown BuiltInstruction :=
  buildCancelListingInstruction client.programId client.registryConfigAddress client.namespace
    seller name

/-- The token accounts are those of the buyer and of the seller. -/
def buildBuyName (buyer seller : List UInt8) (name : JsString) (currency : QuoteCurrency)
    (tokenAccounts : Option (ArchAddress × ArchAddress)) : Except Thrown BuiltInstruction :=
  buildBuyNameInstruction client.programId client.registryConfigAddress client.namespace buyer
    seller name currency (tokenAccounts.map fun atas => atas.1.toList)
    (tokenAccounts.map fun atas => atas.2.toList)

def buildMakeOffer (buyer : List UInt8) (name : JsString) (currency : QuoteCurrency) (price : Int) :
    Except Thrown BuiltInstruction :=
  buildMakeOfferInstruction client.programId client.registryConfigAddress client.namespace buyer
    name currency price

def buildCancelOffer (buyer : List UInt8) (name : JsString) : Except Thrown BuiltInstruction :=
  buildCancelOfferInstruction client.programId client.registryConfigAddress client.namespace buyer
    name

def buildAcceptOffer (seller buyer : List UInt8) (name : JsString) (currency : QuoteCurrency)
    (tokenAccounts : Option (ArchAddress × ArchAddress)) : Except Thrown BuiltInstruction :=
  buildAcceptOfferInstruction client.programId client.registryConfigAddress client.namespace seller
    buyer name currency (tokenAccounts.map fun atas => atas.1.toList)
    (tokenAccounts.map fun atas => atas.2.toList)

def buildSetRecord (owner : List UInt8) (name : JsString) (recordType : RecordType)
    (value : RecordValue) (expectedRevision : UInt64) : Except Thrown BuiltInstruction :=
  buildSetRecordInstruction client.programId client.registryConfigAddress client.namespace owner
    name recordType value expectedRevision

def buildSetPrimary (owner : List UInt8) (name : JsString) : Except Thrown BuiltInstruction :=
  buildSetPrimaryInstruction client.programId client.registryConfigAddress client.namespace owner
    name

def buildClearPrimary (owner : List UInt8) : BuiltInstruction :=
  buildClearPrimaryInstruction client.programId client.namespace owner

end AnsClient

end Sdk

end ArchNameService
