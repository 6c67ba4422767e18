import ArchNameService.Protocol.Resolve
import ArchNameService.Sdk.Codec
import ArchNameService.Sdk.Derive

/-! Record validation and resolution of the SDK (`validate.ts`, `resolve.ts`). -/

namespace ArchNameService

namespace Sdk
open JsString

/-! ## Record values -/

def maxTextKeyLen : Nat := 32
def maxTextValueLen : Nat := 256

def isActive (name : NameAccount) (currentSlot : UInt64) : Bool := currentSlot < name.expiresAtSlot

def hrp : BitcoinNetwork → JsString
  | .mainnet => text "bc"
  | .testnet => text "tb"
  | .signet => text "tb"
  | .regtest => text "bcrt"

def encodeTaprootAddress [Platform] (witnessProgram : Bytes 32) (network : BitcoinNetwork) :
    Except Thrown JsString :=
  Platform.bech32mEncode (hrp network) (1 :: Platform.bech32mToWords witnessProgram.toList)

def maxRecordValueLen : RecordType → Nat
  | .archOwner => 33
  | .bitcoinTaproot => 33
  | .tokenAta => 65
  | .text => 297

/-- `/[a-z0-9_-]/` of one code unit. -/
def isTextKeyUnit (u : UInt16) : Bool :=
  (0x61 ≤ u && u ≤ 0x7A) || (0x30 ≤ u && u ≤ 0x39) || u == 0x5F || u == 0x2D

def validateTextKey (key : JsString) : Except Thrown Unit := do
  reject (key = [] ∨ maxTextKeyLen < key.length) (.ansError .invalidTextRecord none)
  reject (¬ key.characters.all fun c => c.any isTextKeyUnit) (.ansError .invalidTextRecord none)

def validateTextValue (value : JsString) : Except Thrown Unit := do
  reject (value = [] ∨ maxTextValueLen < value.length) (.ansError .invalidTextRecord none)
  reject (value.any fun code => code < 0x20 || 0x7E < code) (.ansError .invalidTextRecord none)

section
variable [Crypto]

def validateTokenAta (owner tokenId ata : ArchAddress) :
    List TokenProgramConfig → Except Thrown Unit
  | [] => throw (.ansError .invalidTokenAta none)
  | programs :: rest =>
      if deriveTokenAta owner tokenId programs.tokenProgramId programs.associatedTokenProgramId = ata
      then pure ()
      else validateTokenAta owner tokenId ata rest

variable [Platform]

def validateRecordValue (config : RegistryConfig) (name : NameAccount) (recordType : RecordType)
    (value : RecordValue) : Except Thrown Unit := do
  reject (value.kind ≠ recordType) (.ansError .recordTypeMismatch none)
  reject (maxRecordValueLen recordType < (encodeRecordValue value).length)
    (.ansError .recordValueTooLarge none)
  match value with
  | .archOwner owner => reject (owner ≠ name.owner) (.ansError .ownerRecordMismatch none)
  | .bitcoinTaproot witnessProgram => do
      let _ ← encodeTaprootAddress witnessProgram config.bitcoinNetwork
      pure ()
  | .tokenAta tokenId ata => validateTokenAta name.owner tokenId ata config.tokenPrograms
  | .text key value => do
      validateTextKey key
      validateTextValue value

/-! ## Resolution -/

def validateConfig (programId : ArchAddress) (config : AccountAt RegistryConfig) :
    Except Thrown Unit := do
  validateHeader config.state.header registryConfigDiscriminator
  reject (config.address ≠
      deriveConfigAddress programId config.state.networkId config.state.namespace)
    (.ansError .invalidAccountDerivation none)

def validateName (programId : ArchAddress) (config : RegistryConfig) (requestedName : JsString)
    (name : AccountAt NameAccount) (currentSlot : UInt64) : Except Thrown Unit := do
  validateHeader name.state.header nameAccountDiscriminator
  let canonical ← canonicalizeName requestedName
  let expectedHash ← nameHash canonical
  reject (name.address ≠ deriveNameAddress programId config.namespace expectedHash)
    (.ansError .invalidAccountDerivation none)
  reject (¬ isActive name.state currentSlot) (.ansError .inactiveName none)
  reject (name.state.nameHash ≠ expectedHash ∨ name.state.canonicalLabel ++ text ".arch" ≠ canonical)
    (.ansError .nameMismatch none)

def resolveOwner (programId : ArchAddress) (config : AccountAt RegistryConfig)
    (requestedName : JsString) (name : AccountAt NameAccount) (currentSlot : UInt64) :
    Except Thrown ArchAddress := do
  validateConfig programId config
  validateName programId config.state requestedName name currentSlot
  pure name.state.owner

def resolveRecord (programId : ArchAddress) (config : AccountAt RegistryConfig)
    (requestedName : JsString) (name : AccountAt NameAccount) (record : AccountAt RecordAccount)
    (recordType : RecordType) (currentSlot : UInt64) (textKey : Option JsString) :
    Except Thrown RecordValue := do
  validateConfig programId config
  validateName programId config.state requestedName name currentSlot
  validateHeader record.state.header recordAccountDiscriminator
  let key := if recordType = .text then textKey.or record.state.value.key? else none
  let expected ← deriveRecordAddressFor programId config.state.namespace name.state.nameHash
    recordType key
  reject (record.address ≠ expected) (.ansError .invalidAccountDerivation none)
  let state := record.state
  reject (state.nameHash ≠ name.state.nameHash ∨ state.recordType ≠ recordType ∨
      state.ownerSnapshot ≠ name.state.owner ∨ state.recordEpoch ≠ name.state.recordEpoch)
    (.ansError .staleRecord none)
  validateRecordValue config.state name.state recordType state.value
  pure state.value

def resolvePrimary (programId : ArchAddress) (config : AccountAt RegistryConfig)
    (reverse : AccountAt ReverseAccount) (name : AccountAt NameAccount) (currentSlot : UInt64) :
    Except Thrown JsString := do
  validateConfig programId config
  validateHeader reverse.state.header reverseAccountDiscriminator
  reject (reverse.address ≠
      deriveReverseAddress programId config.state.namespace reverse.state.owner.toList)
    (.ansError .invalidAccountDerivation none)
  reject (name.address ≠
      deriveNameAddress programId config.state.namespace reverse.state.primaryNameHash)
    (.ansError .invalidAccountDerivation none)
  validateHeader name.state.header nameAccountDiscriminator
  reject (¬ isActive name.state currentSlot ∨
      name.state.nameHash ≠ reverse.state.primaryNameHash ∨
      name.state.owner ≠ reverse.state.owner ∨
      name.state.primaryBindingNonce ≠ reverse.state.bindingNonce)
    (.ansError .invalidReverseBinding none)
  canonicalizeName (name.state.canonicalLabel ++ text ".arch")

end

end Sdk

end ArchNameService
