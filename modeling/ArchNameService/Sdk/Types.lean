import ArchNameService.Lib.Utf8
import ArchNameService.Protocol.Instruction

/-!
# Values of the SDK

The types of `types.ts` and `errors.ts`. What holds no text has the type of the
protocol crate; a string is one of the platform, and a vector is an array.
-/

namespace ArchNameService

namespace Sdk

inductive AnsErrorCode where
  | invalidSuffix
  | invalidLabelLength
  | invalidLabelCharacter
  | invalidHyphenPlacement
  | invalidDiscriminator
  | unsupportedAccountVersion
  | invalidAccountDerivation
  | nameMismatch
  | nameTaken
  | inactiveName
  | staleRecord
  | recordTypeMismatch
  | ownerRecordMismatch
  | invalidTaprootAddress
  | invalidTokenAta
  | recordValueTooLarge
  | invalidTextRecord
  | invalidReverseBinding
  | codecError
  | accountNotFound
  | incorrectProgramId
  | manifestMismatch
  deriving DecidableEq, Repr

/-- What is thrown: an `AnsError`, whose message is its code where none is given, or a
plain `Error`. -/
inductive Thrown where
  | ansError (code : AnsErrorCode) (message : Option String)
  | error (message : String)
  deriving DecidableEq, Repr

structure RegistryConfig where
  header : AccountHeader
  programVersion : UInt16
  networkId : UInt32
  «namespace» : JsString
  namespaceAuthority : ArchAddress
  gracePeriodSlots : UInt64
  minRegistrationSlots : UInt64
  maxRegistrationSlots : UInt64
  bitcoinNetwork : BitcoinNetwork
  tokenPrograms : List TokenProgramConfig
  paused : Bool
  mainnetEnabled : Bool
  deriving DecidableEq

structure NameAccount where
  header : AccountHeader
  nameHash : Bytes 32
  canonicalLabel : JsString
  owner : ArchAddress
  registeredAtSlot : UInt64
  expiresAtSlot : UInt64
  recordEpoch : UInt64
  primaryBindingNonce : UInt64
  deriving DecidableEq

inductive RecordValue where
  | archOwner (owner : ArchAddress)
  | bitcoinTaproot (witnessProgram : Bytes 32)
  | tokenAta (tokenId ata : ArchAddress)
  | text (key value : JsString)
  deriving DecidableEq

def RecordValue.kind : RecordValue → RecordType
  | .archOwner _ => .archOwner
  | .bitcoinTaproot _ => .bitcoinTaproot
  | .tokenAta _ _ => .tokenAta
  | .text _ _ => .text

/-- The key of a text record. -/
def RecordValue.key? : RecordValue → Option JsString
  | .text key _ => some key
  | _ => none

structure RecordAccount where
  header : AccountHeader
  nameHash : Bytes 32
  recordType : RecordType
  ownerSnapshot : ArchAddress
  recordEpoch : UInt64
  revision : UInt64
  value : RecordValue
  updatedAtSlot : UInt64
  deriving DecidableEq

inductive NameInstruction where
  | initializeRegistry (networkId : UInt32) (namespaceAuthority : ArchAddress)
  | register (label : JsString) (durationSlots : UInt64)
  | renew (nameHash : Bytes 32) (durationSlots : UInt64)
  | transfer (nameHash : Bytes 32) (newOwner : ArchAddress)
  | setRecord (nameHash : Bytes 32) (recordType : RecordType) (value : RecordValue)
      (expectedRevision : UInt64)
  | deleteRecord (nameHash : Bytes 32) (recordType : RecordType) (textKey : JsString)
      (expectedRevision : UInt64)
  | setPrimary (nameHash : Bytes 32)
  | clearPrimary
  | reclaimExpired (label : JsString) (durationSlots : UInt64)
  | updateConfig (paused : Option Bool) (gracePeriodSlots : Option UInt64)
  | listName (nameHash : Bytes 32) (currency : QuoteCurrency) (price : UInt64)
  | cancelListing (nameHash : Bytes 32)
  | buyName (nameHash : Bytes 32)
  | makeOffer (nameHash : Bytes 32) (currency : QuoteCurrency) (price : UInt64)
  | cancelOffer (nameHash : Bytes 32)
  | acceptOffer (nameHash : Bytes 32) (buyer : ArchAddress)
  deriving DecidableEq

end Sdk

/-! ## The values of the crate in the SDK -/

section ToSdk
open JsString (ofUtf8)

def RegistryConfig.toSdk (c : RegistryConfig) : Sdk.RegistryConfig :=
  { header := c.header
    programVersion := c.programVersion
    networkId := c.networkId
    «namespace» := ofUtf8 c.namespace.bytes
    namespaceAuthority := c.namespaceAuthority
    gracePeriodSlots := c.gracePeriodSlots
    minRegistrationSlots := c.minRegistrationSlots
    maxRegistrationSlots := c.maxRegistrationSlots
    bitcoinNetwork := c.bitcoinNetwork
    tokenPrograms := c.tokenPrograms.items
    paused := c.paused
    mainnetEnabled := c.mainnetEnabled }

def NameAccount.toSdk (n : NameAccount) : Sdk.NameAccount :=
  { header := n.header
    nameHash := n.nameHash
    canonicalLabel := ofUtf8 n.canonicalLabel.bytes
    owner := n.owner
    registeredAtSlot := n.registeredAtSlot
    expiresAtSlot := n.expiresAtSlot
    recordEpoch := n.recordEpoch
    primaryBindingNonce := n.primaryBindingNonce }

def RecordValue.toSdk : RecordValue → Sdk.RecordValue
  | .archOwner owner => .archOwner owner
  | .bitcoinTaproot witnessProgram => .bitcoinTaproot witnessProgram
  | .tokenAta tokenId ata => .tokenAta tokenId ata
  | .text key value => .text (ofUtf8 key.bytes) (ofUtf8 value.bytes)

def RecordAccount.toSdk (r : RecordAccount) : Sdk.RecordAccount :=
  { header := r.header
    nameHash := r.nameHash
    recordType := r.recordType
    ownerSnapshot := r.ownerSnapshot
    recordEpoch := r.recordEpoch
    revision := r.revision
    value := r.value.toSdk
    updatedAtSlot := r.updatedAtSlot }

def NameInstruction.toSdk : NameInstruction → Sdk.NameInstruction
  | .initializeRegistry networkId namespaceAuthority =>
      .initializeRegistry networkId namespaceAuthority
  | .register label durationSlots => .register (ofUtf8 label.bytes) durationSlots
  | .renew nameHash durationSlots => .renew nameHash durationSlots
  | .transfer nameHash newOwner => .transfer nameHash newOwner
  | .setRecord nameHash recordType value expectedRevision =>
      .setRecord nameHash recordType value.toSdk expectedRevision
  | .deleteRecord nameHash recordType textKey expectedRevision =>
      .deleteRecord nameHash recordType (ofUtf8 textKey.bytes) expectedRevision
  | .setPrimary nameHash => .setPrimary nameHash
  | .clearPrimary => .clearPrimary
  | .reclaimExpired label durationSlots => .reclaimExpired (ofUtf8 label.bytes) durationSlots
  | .updateConfig paused gracePeriodSlots => .updateConfig paused gracePeriodSlots
  | .listName nameHash currency price => .listName nameHash currency price
  | .cancelListing nameHash => .cancelListing nameHash
  | .buyName nameHash => .buyName nameHash
  | .makeOffer nameHash currency price => .makeOffer nameHash currency price
  | .cancelOffer nameHash => .cancelOffer nameHash
  | .acceptOffer nameHash buyer => .acceptOffer nameHash buyer

end ToSdk

end ArchNameService
