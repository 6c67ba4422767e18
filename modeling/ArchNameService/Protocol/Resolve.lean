import ArchNameService.Protocol.Derive

/-! Record validation and reference resolution (`validate.rs`, `resolve.rs`). -/

namespace ArchNameService
open Crypto

/-! ## Record values -/

def maxTextKeyLen : Nat := 32
def maxTextValueLen : Nat := 256

def isActive (name : NameAccount) (currentSlot : UInt64) : Bool := currentSlot < name.expiresAtSlot

def validateTextKey (key : List UInt8) : Except AnsError Unit := do
  reject (key.isEmpty ∨ maxTextKeyLen < key.length) .invalidTextRecord
  reject (¬ key.all fun b => isAsciiLowercase b || isAsciiDigit b || b == 0x5F || b == 0x2D)
    .invalidTextRecord

def validateTextValue (value : List UInt8) : Except AnsError Unit := do
  reject (value.isEmpty ∨ maxTextValueLen < value.length) .invalidTextRecord
  reject (¬ (value.all fun b => decide (b < 0x80)) ∨ value.any fun b => b < 0x20 || b == 0x7F)
    .invalidTextRecord

def maxRecordValueLen : RecordType → Nat
  | .archOwner => 33
  | .bitcoinTaproot => 33
  | .tokenAta => 65
  | .text => 297

section
variable [Crypto]

def encodeTaprootAddress (witnessProgram : Bytes 32) (network : BitcoinNetwork) :
    Except AnsError (List UInt8) :=
  orElseError .invalidTaprootAddress (taprootAddress witnessProgram network)

def deriveTokenAta (owner tokenId : ArchAddress) (programs : TokenProgramConfig) : ArchAddress :=
  (findProgramAddress [owner.toList, programs.tokenProgramId.toList, tokenId.toList]
    programs.associatedTokenProgramId).1

def validateTokenAta (owner tokenId ata : ArchAddress) :
    List TokenProgramConfig → Except AnsError Unit
  | [] => .error .invalidTokenAta
  | programs :: rest =>
      if deriveTokenAta owner tokenId programs = ata then .ok ()
      else validateTokenAta owner tokenId ata rest

def validateRecordValue (config : RegistryConfig) (name : NameAccount) (recordType : RecordType)
    (value : RecordValue) : Except AnsError Unit := do
  reject (value.recordType ≠ recordType) .recordTypeMismatch
  reject (maxRecordValueLen recordType < (Borsh.serialize value).length) .recordValueTooLarge
  match value with
  | .archOwner owner => reject (owner ≠ name.owner) .ownerRecordMismatch
  | .bitcoinTaproot witnessProgram => do
      let _ ← encodeTaprootAddress witnessProgram config.bitcoinNetwork
      pure ()
  | .tokenAta tokenId ata =>
      validateTokenAta name.owner tokenId ata config.tokenPrograms.items
  | .text key value => do
      validateTextKey key.bytes
      validateTextValue value.bytes

/-- Only the owner of the name enters the check of a record value. -/
theorem validateRecordValue_congr {config : RegistryConfig} {name name' : NameAccount}
    (h : name.owner = name'.owner) (recordType : RecordType) (value : RecordValue) :
    validateRecordValue config name recordType value =
      validateRecordValue config name' recordType value := by
  cases value <;> simp only [validateRecordValue, h]

theorem validateRecordValue_recordType {config : RegistryConfig} {name : NameAccount}
    {recordType : RecordType} {value : RecordValue}
    (h : validateRecordValue config name recordType value = .ok ()) :
    value.recordType = recordType := by
  simp only [validateRecordValue, Outcome.bind_ok, Outcome.reject_ok, not_not] at h
  obtain ⟨_, htype, _⟩ := h
  exact htype

/-! ## Resolution -/

structure AccountAt (T : Type) where
  address : ArchAddress
  state : T

def validateConfig (programId : ArchAddress) (config : AccountAt RegistryConfig) :
    Except AnsError Unit := do
  config.state.header.validate registryConfigDiscriminator
  reject (config.address ≠
      deriveConfigAddress programId config.state.networkId config.state.namespace.bytes)
    .invalidAccountDerivation

def validateName (programId : ArchAddress) (config : RegistryConfig) (requestedName : List UInt8)
    (name : AccountAt NameAccount) (currentSlot : UInt64) : Except AnsError Unit := do
  name.state.header.validate nameAccountDiscriminator
  let canonicalName ← canonicalizeName requestedName
  let expectedHash ← nameHash canonicalName
  reject (name.address ≠ deriveNameAddress programId config.namespace.bytes expectedHash)
    .invalidAccountDerivation
  reject (¬ isActive name.state currentSlot) .inactiveName
  reject (name.state.nameHash ≠ expectedHash ∨
      stripSuffix archSuffix canonicalName ≠ some name.state.canonicalLabel.bytes)
    .nameMismatch

def resolveOwner (programId : ArchAddress) (config : AccountAt RegistryConfig)
    (requestedName : List UInt8) (name : AccountAt NameAccount) (currentSlot : UInt64) :
    Except AnsError ArchAddress := do
  validateConfig programId config
  validateName programId config.state requestedName name currentSlot
  pure name.state.owner

def resolveRecord (programId : ArchAddress) (config : AccountAt RegistryConfig)
    (requestedName : List UInt8) (name : AccountAt NameAccount) (record : AccountAt RecordAccount)
    (recordType : RecordType) (currentSlot : UInt64) : Except (Abort AnsError) RecordValue := do
  (validateConfig programId config).mapError .error
  (validateName programId config.state requestedName name currentSlot).mapError .error
  let state := record.state
  (state.header.validate recordAccountDiscriminator).mapError .error
  let expected ← orElseError .panic
    (deriveRecordAddressForValue programId config.state.namespace.bytes name.state.nameHash
      recordType state.value.textKey)
  reject (record.address ≠ expected) (.error .invalidAccountDerivation)
  reject (state.nameHash ≠ name.state.nameHash ∨ state.recordType ≠ recordType ∨
      state.ownerSnapshot ≠ name.state.owner ∨ state.recordEpoch ≠ name.state.recordEpoch)
    (.error .staleRecord)
  (validateRecordValue config.state name.state recordType state.value).mapError .error
  pure state.value

def resolvePrimary (programId : ArchAddress) (config : AccountAt RegistryConfig)
    (reverse : AccountAt ReverseAccount) (name : AccountAt NameAccount) (currentSlot : UInt64) :
    Except AnsError (List UInt8) := do
  validateConfig programId config
  reverse.state.header.validate reverseAccountDiscriminator
  reject (reverse.address ≠
      deriveReverseAddress programId config.state.namespace.bytes reverse.state.owner)
    .invalidAccountDerivation
  reject (name.address ≠
      deriveNameAddress programId config.state.namespace.bytes reverse.state.primaryNameHash)
    .invalidAccountDerivation
  name.state.header.validate nameAccountDiscriminator
  reject (¬ isActive name.state currentSlot ∨
      name.state.nameHash ≠ reverse.state.primaryNameHash ∨
      name.state.owner ≠ reverse.state.owner ∨
      name.state.primaryBindingNonce ≠ reverse.state.bindingNonce)
    .invalidReverseBinding
  canonicalizeName (name.state.canonicalLabel.bytes ++ archSuffix)

end

end ArchNameService
