import ArchNameService.Lib.Layout
import ArchNameService.Sdk.Types

/-!
# The codec of the SDK

The reader and the writer of `codec/reader.ts` and `codec/writer.ts`, and with them
the accounts of `codec/state.ts`, the instructions of `codec/instruction.ts` and
the classification of `availability.ts`. A reader holds the bytes it has not read,
a writer is the bytes it has pushed.
-/

namespace ArchNameService

namespace Sdk

def codecError (message : String) : Thrown := .ansError .codecError (some message)

/-! ## `BorshReader` -/

abbrev BorshReader := Reader Thrown

namespace BorshReader

def bytes (length : Nat) : BorshReader (Bytes length) := fun data =>
  match Bytes.ofList? length (data.take length) with
  | some slice => .ok (slice, data.drop length)
  | none => .error (codecError "unexpected end of buffer")

def u8 : BorshReader UInt8 := do
  let slice ← bytes 1
  pure slice.head

def bool : BorshReader Bool := do
  let byte ← u8
  pure (byte != 0)

def u16 : BorshReader UInt16 := do
  let slice ← bytes 2
  pure (UInt16.ofNat (slice.head.toNat ||| (slice.tail.head.toNat <<< 8)))

/-- `DataView.getUint32(0, true)`. -/
def u32 : BorshReader UInt32 := do
  let slice ← bytes 4
  pure (UInt32.ofNat (leNat slice.toList))

/-- `value |= BigInt(byte) << BigInt(i * 8)` from the `i`-th byte on. -/
def orBytes : Nat → Nat → List UInt8 → Nat
  | _, value, [] => value
  | i, value, byte :: rest => orBytes (i + 1) (value ||| (byte.toNat <<< (i * 8))) rest

def u64 : BorshReader UInt64 := do
  let slice ← bytes 8
  pure (UInt64.ofNat (orBytes 0 0 slice.toList))

def pubkey : BorshReader (Bytes 32) := bytes 32

def string : BorshReader JsString := do
  let length ← u32
  let slice ← bytes length.toNat
  pure (JsString.decode slice.toList)

/-- A new reader of the data, up to its `finish()`. -/
def finish {α : Type} (reader : BorshReader α) (data : List UInt8) : Except Thrown α := do
  let (value, rest) ← reader.run data
  if rest ≠ [] then throw (codecError "trailing bytes after decode") else pure value

end BorshReader

/-! ## `BorshWriter` -/

namespace BorshWriter

def u8 (value : UInt8) : List UInt8 := [value]

def bool (value : Bool) : List UInt8 := u8 (if value then 1 else 0)

def u16 (value : UInt16) : List UInt8 :=
  [UInt8.ofNat (value.toNat &&& 0xFF), UInt8.ofNat ((value.toNat >>> 8) &&& 0xFF)]

/-- `value & 0xff` of a 32-bit integer. -/
def lowByte (value : BitVec 32) : UInt8 := UInt8.ofNat (value &&& 0xFF).toNat

/-- `>>` keeps the sign of a 32-bit integer, `>>>` does not. -/
def u32 (value : UInt32) : List UInt8 :=
  [lowByte value.toBitVec, lowByte (value.toBitVec.sshiftRight 8),
    lowByte (value.toBitVec.sshiftRight 16), lowByte (value.toBitVec >>> 24)]

/-- `n` times `v & 0xffn` and `v >>= 8n`. -/
def shiftBytes : Nat → Nat → List UInt8
  | 0, _ => []
  | n+1, v => UInt8.ofNat (v &&& 0xFF) :: shiftBytes n (v >>> 8)

def u64 (value : UInt64) : List UInt8 := shiftBytes 8 value.toNat

def bytes {n : Nat} (value : Bytes n) : List UInt8 := value.toList

def pubkey (value : Bytes 32) : List UInt8 := bytes value

def string (value : JsString) : List UInt8 := u32 (UInt32.ofNat value.encode.length) ++ value.encode

end BorshWriter

open BorshReader (finish)

/-! ## Tags -/

def bitcoinNetworks : List BitcoinNetwork := [.mainnet, .testnet, .signet, .regtest]
def recordTypes : List RecordType := [.archOwner, .bitcoinTaproot, .tokenAta, .text]
def quoteCurrencies : List QuoteCurrency := [.arch, .btc]

/-- The value at an index that was read. -/
def lookup {α : Type} (values : List α) (message : String) : BorshReader α := do
  let index ← BorshReader.u8
  match values[index.toNat]? with
  | some value => pure value
  | none => throw (codecError message)

def decodeBitcoinNetwork : BorshReader BitcoinNetwork := lookup bitcoinNetworks "invalid bitcoin network"
def decodeRecordType : BorshReader RecordType := lookup recordTypes "invalid record type"
def decodeQuoteCurrency : BorshReader QuoteCurrency := lookup quoteCurrencies "invalid quote currency"

def encodeBitcoinNetwork (network : BitcoinNetwork) : List UInt8 :=
  BorshWriter.u8 (UInt8.ofNat (bitcoinNetworks.idxOf network))

def encodeRecordType (recordType : RecordType) : List UInt8 :=
  BorshWriter.u8 (UInt8.ofNat (recordTypes.idxOf recordType))

def encodeQuoteCurrency (currency : QuoteCurrency) : List UInt8 :=
  BorshWriter.u8 (UInt8.ofNat (quoteCurrencies.idxOf currency))

/-! ## Accounts -/

section Decoders
open BorshReader

def decodeHeader : BorshReader AccountHeader := do
  let discriminator ← bytes 8
  let initialized ← bool
  let stateVersion ← u16
  pure { discriminator, initialized, stateVersion }

def validateHeader (header : AccountHeader) (discriminator : Bytes 8) : Except Thrown Unit := do
  if header.discriminator ≠ discriminator then throw (.ansError .invalidDiscriminator none)
  else if ¬ header.initialized ∨ header.stateVersion ≠ stateVersion then
    throw (.ansError .unsupportedAccountVersion none)
  else pure ()

def decodeRecordValue : BorshReader RecordValue := do
  match ← u8 with
  | 0 => do
      let owner ← pubkey
      pure (.archOwner owner)
  | 1 => do
      let witnessProgram ← pubkey
      pure (.bitcoinTaproot witnessProgram)
  | 2 => do
      let tokenId ← pubkey
      let ata ← pubkey
      pure (.tokenAta tokenId ata)
  | 3 => do
      let key ← string
      let value ← string
      pure (.text key value)
  | _ => throw (codecError "invalid record value")

def decodeTokenProgram : BorshReader TokenProgramConfig := do
  let tokenProgramId ← pubkey
  let associatedTokenProgramId ← pubkey
  pure { tokenProgramId, associatedTokenProgramId }

/-- The loop over the count. -/
def decodeTokenPrograms : Nat → BorshReader (List TokenProgramConfig)
  | 0 => pure []
  | n+1 => do
      let program ← decodeTokenProgram
      let programs ← decodeTokenPrograms n
      pure (program :: programs)

def decodeTokenProgramList : BorshReader (List TokenProgramConfig) := do
  let tokenProgramCount ← u32
  decodeTokenPrograms tokenProgramCount.toNat

def readRegistryConfig : BorshReader RegistryConfig := do
  let header ← decodeHeader
  let programVersion ← u16
  let networkId ← u32
  let ns ← string
  let namespaceAuthority ← pubkey
  let gracePeriodSlots ← u64
  let minRegistrationSlots ← u64
  let maxRegistrationSlots ← u64
  let bitcoinNetwork ← decodeBitcoinNetwork
  let tokenPrograms ← decodeTokenProgramList
  let paused ← bool
  let mainnetEnabled ← bool
  pure
    { header, programVersion, networkId, «namespace» := ns, namespaceAuthority, gracePeriodSlots,
      minRegistrationSlots, maxRegistrationSlots, bitcoinNetwork, tokenPrograms, paused,
      mainnetEnabled }

def decodeRegistryConfig (data : List UInt8) : Except Thrown RegistryConfig :=
  finish readRegistryConfig data

def readNameAccount : BorshReader NameAccount := do
  let header ← decodeHeader
  let nameHash ← pubkey
  let canonicalLabel ← string
  let owner ← pubkey
  let registeredAtSlot ← u64
  let expiresAtSlot ← u64
  let recordEpoch ← u64
  let primaryBindingNonce ← u64
  pure
    { header, nameHash, canonicalLabel, owner, registeredAtSlot, expiresAtSlot, recordEpoch,
      primaryBindingNonce }

def decodeNameAccount (data : List UInt8) : Except Thrown NameAccount := finish readNameAccount data

def readRecordAccount : BorshReader RecordAccount := do
  let header ← decodeHeader
  let nameHash ← pubkey
  let recordType ← decodeRecordType
  let ownerSnapshot ← pubkey
  let recordEpoch ← u64
  let revision ← u64
  let value ← decodeRecordValue
  let updatedAtSlot ← u64
  pure { header, nameHash, recordType, ownerSnapshot, recordEpoch, revision, value, updatedAtSlot }

def decodeRecordAccount (data : List UInt8) : Except Thrown RecordAccount :=
  finish readRecordAccount data

def readReverseAccount : BorshReader ReverseAccount := do
  let header ← decodeHeader
  let owner ← pubkey
  let primaryNameHash ← pubkey
  let bindingNonce ← u64
  let updatedAtSlot ← u64
  pure { header, owner, primaryNameHash, bindingNonce, updatedAtSlot }

def decodeReverseAccount (data : List UInt8) : Except Thrown ReverseAccount :=
  finish readReverseAccount data

def readListingAccount : BorshReader ListingAccount := do
  let header ← decodeHeader
  let nameHash ← pubkey
  let seller ← pubkey
  let currency ← decodeQuoteCurrency
  let price ← u64
  let createdAtSlot ← u64
  let active ← bool
  pure { header, nameHash, seller, currency, price, createdAtSlot, active }

def decodeListingAccount (data : List UInt8) : Except Thrown ListingAccount :=
  finish readListingAccount data

def readOfferAccount : BorshReader OfferAccount := do
  let header ← decodeHeader
  let nameHash ← pubkey
  let buyer ← pubkey
  let currency ← decodeQuoteCurrency
  let price ← u64
  let createdAtSlot ← u64
  let active ← bool
  pure { header, nameHash, buyer, currency, price, createdAtSlot, active }

def decodeOfferAccount (data : List UInt8) : Except Thrown OfferAccount := finish readOfferAccount data

end Decoders

section Encoders
open BorshWriter

def encodeHeader (header : AccountHeader) : List UInt8 :=
  bytes header.discriminator ++ bool header.initialized ++ u16 header.stateVersion

def encodeRecordValue : RecordValue → List UInt8
  | .archOwner owner => u8 0 ++ pubkey owner
  | .bitcoinTaproot witnessProgram => u8 1 ++ pubkey witnessProgram
  | .tokenAta tokenId ata => u8 2 ++ pubkey tokenId ++ pubkey ata
  | .text key value => u8 3 ++ string key ++ string value

def encodeTokenProgram (program : TokenProgramConfig) : List UInt8 :=
  pubkey program.tokenProgramId ++ pubkey program.associatedTokenProgramId

def encodeRegistryConfig (config : RegistryConfig) : List UInt8 :=
  encodeHeader config.header ++
  u16 config.programVersion ++ u32 config.networkId ++ string config.namespace ++
  pubkey config.namespaceAuthority ++
  u64 config.gracePeriodSlots ++ u64 config.minRegistrationSlots ++ u64 config.maxRegistrationSlots ++
  encodeBitcoinNetwork config.bitcoinNetwork ++
  u32 (UInt32.ofNat config.tokenPrograms.length) ++
  config.tokenPrograms.flatMap encodeTokenProgram ++
  bool config.paused ++ bool config.mainnetEnabled

def encodeNameAccount (name : NameAccount) : List UInt8 :=
  encodeHeader name.header ++ pubkey name.nameHash ++ string name.canonicalLabel ++
  pubkey name.owner ++ u64 name.registeredAtSlot ++ u64 name.expiresAtSlot ++ u64 name.recordEpoch ++
  u64 name.primaryBindingNonce

def encodeRecordAccount (record : RecordAccount) : List UInt8 :=
  encodeHeader record.header ++ pubkey record.nameHash ++ encodeRecordType record.recordType ++
  pubkey record.ownerSnapshot ++ u64 record.recordEpoch ++ u64 record.revision ++
  encodeRecordValue record.value ++ u64 record.updatedAtSlot

def encodeReverseAccount (reverse : ReverseAccount) : List UInt8 :=
  encodeHeader reverse.header ++ pubkey reverse.owner ++ pubkey reverse.primaryNameHash ++
  u64 reverse.bindingNonce ++ u64 reverse.updatedAtSlot

def encodeListingAccount (listing : ListingAccount) : List UInt8 :=
  encodeHeader listing.header ++ pubkey listing.nameHash ++ pubkey listing.seller ++
  encodeQuoteCurrency listing.currency ++ u64 listing.price ++ u64 listing.createdAtSlot ++
  bool listing.active

def encodeOfferAccount (offer : OfferAccount) : List UInt8 :=
  encodeHeader offer.header ++ pubkey offer.nameHash ++ pubkey offer.buyer ++
  encodeQuoteCurrency offer.currency ++ u64 offer.price ++ u64 offer.createdAtSlot ++
  bool offer.active

end Encoders

/-! ## Instructions -/

section Instructions

def decodeOption {α : Type} (reader : BorshReader α) : BorshReader (Option α) := do
  let tag ← BorshReader.u8
  if tag = 0 then pure none
  else do
    let value ← reader
    pure (some value)

def decodeOptionBool : BorshReader (Option Bool) := decodeOption BorshReader.bool
def decodeOptionU64 : BorshReader (Option UInt64) := decodeOption BorshReader.u64

def encodeOption {α : Type} (write : α → List UInt8) : Option α → List UInt8
  | none => BorshWriter.u8 0
  | some value => BorshWriter.u8 1 ++ write value

def encodeOptionBool : Option Bool → List UInt8 := encodeOption BorshWriter.bool
def encodeOptionU64 : Option UInt64 → List UInt8 := encodeOption BorshWriter.u64

open BorshReader in
def readInstruction : BorshReader NameInstruction := do
  match ← u8 with
  | 0 => do
      let networkId ← u32
      let namespaceAuthority ← pubkey
      pure (.initializeRegistry networkId namespaceAuthority)
  | 1 => do
      let label ← string
      let durationSlots ← u64
      pure (.register label durationSlots)
  | 2 => do
      let nameHash ← pubkey
      let durationSlots ← u64
      pure (.renew nameHash durationSlots)
  | 3 => do
      let nameHash ← pubkey
      let newOwner ← pubkey
      pure (.transfer nameHash newOwner)
  | 4 => do
      let nameHash ← pubkey
      let recordType ← decodeRecordType
      let value ← decodeRecordValue
      let expectedRevision ← u64
      pure (.setRecord nameHash recordType value expectedRevision)
  | 5 => do
      let nameHash ← pubkey
      let recordType ← decodeRecordType
      let textKey ← string
      let expectedRevision ← u64
      pure (.deleteRecord nameHash recordType textKey expectedRevision)
  | 6 => do
      let nameHash ← pubkey
      pure (.setPrimary nameHash)
  | 7 => pure .clearPrimary
  | 8 => do
      let label ← string
      let durationSlots ← u64
      pure (.reclaimExpired label durationSlots)
  | 9 => do
      let paused ← decodeOptionBool
      let gracePeriodSlots ← decodeOptionU64
      pure (.updateConfig paused gracePeriodSlots)
  | 10 => do
      let nameHash ← pubkey
      let currency ← decodeQuoteCurrency
      let price ← u64
      pure (.listName nameHash currency price)
  | 11 => do
      let nameHash ← pubkey
      pure (.cancelListing nameHash)
  | 12 => do
      let nameHash ← pubkey
      pure (.buyName nameHash)
  | 13 => do
      let nameHash ← pubkey
      let currency ← decodeQuoteCurrency
      let price ← u64
      pure (.makeOffer nameHash currency price)
  | 14 => do
      let nameHash ← pubkey
      pure (.cancelOffer nameHash)
  | 15 => do
      let nameHash ← pubkey
      let buyer ← pubkey
      pure (.acceptOffer nameHash buyer)
  | kind => throw (codecError ("unknown instruction variant " ++ toString kind.toNat))

def decodeInstruction (data : List UInt8) : Except Thrown NameInstruction := finish readInstruction data

open BorshWriter in
def encodeInstruction : NameInstruction → List UInt8
  | .initializeRegistry networkId namespaceAuthority =>
      u8 0 ++ u32 networkId ++ pubkey namespaceAuthority
  | .register label durationSlots => u8 1 ++ string label ++ u64 durationSlots
  | .renew nameHash durationSlots => u8 2 ++ pubkey nameHash ++ u64 durationSlots
  | .transfer nameHash newOwner => u8 3 ++ pubkey nameHash ++ pubkey newOwner
  | .setRecord nameHash recordType value expectedRevision =>
      u8 4 ++ pubkey nameHash ++ encodeRecordType recordType ++ encodeRecordValue value ++
      u64 expectedRevision
  | .deleteRecord nameHash recordType textKey expectedRevision =>
      u8 5 ++ pubkey nameHash ++ encodeRecordType recordType ++ string textKey ++ u64 expectedRevision
  | .setPrimary nameHash => u8 6 ++ pubkey nameHash
  | .clearPrimary => u8 7
  | .reclaimExpired label durationSlots => u8 8 ++ string label ++ u64 durationSlots
  | .updateConfig paused gracePeriodSlots =>
      u8 9 ++ encodeOptionBool paused ++ encodeOptionU64 gracePeriodSlots
  | .listName nameHash currency price =>
      u8 10 ++ pubkey nameHash ++ encodeQuoteCurrency currency ++ u64 price
  | .cancelListing nameHash => u8 11 ++ pubkey nameHash
  | .buyName nameHash => u8 12 ++ pubkey nameHash
  | .makeOffer nameHash currency price =>
      u8 13 ++ pubkey nameHash ++ encodeQuoteCurrency currency ++ u64 price
  | .cancelOffer nameHash => u8 14 ++ pubkey nameHash
  | .acceptOffer nameHash buyer => u8 15 ++ pubkey nameHash ++ pubkey buyer

end Instructions

/-! ## Availability of a name account -/

inductive NameAvailability where
  | available
  | taken
  | unavailable
  deriving DecidableEq

structure ClassifiedNameAccount where
  availability : NameAvailability
  account : Option NameAccount

def isBlankAccountData (data : List UInt8) : Bool := data.isEmpty || data.all fun b => b == 0

/-- Missing data is `none`. -/
def classifyNameAccountData : Option (List UInt8) → ClassifiedNameAccount
  | none => { availability := .available, account := none }
  | some data =>
      if isBlankAccountData data then { availability := .available, account := none }
      else
        match (do
            let account ← decodeNameAccount data
            validateHeader account.header nameAccountDiscriminator
            pure account) with
        | .ok account => { availability := .taken, account := some account }
        | .error _ => { availability := .unavailable, account := none }

end Sdk

end ArchNameService
