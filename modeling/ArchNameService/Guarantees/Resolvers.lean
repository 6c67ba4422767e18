import ArchNameService.Refinement.Execution
import ArchNameService.Refinement.Resolve

/-!
# The resolvers of the SDK resolve what the protocol resolves

On every state, of any address and any field, each resolver of the SDK returns a
value exactly where the reference resolver does, and the same one.
-/

namespace ArchNameService
open JsString (ofUtf8 ofAscii)
open Borsh (Str)

def AccountAt.map {T U : Type} (f : T → U) (account : AccountAt T) : AccountAt U :=
  { address := account.address, state := f account.state }

/-- Two calls that return in the same cases return the same value in each. -/
theorem Outcome.toOption_eq_map {ε δ α β : Type} {x : Except ε α} {y : Except δ β} {f : β → α}
    (h : ∀ a, x = .ok a ↔ ∃ b, y = .ok b ∧ f b = a) : x.toOption = y.toOption.map f := by
  apply Option.ext
  intro a
  rw [Outcome.toOption_eq_some, h, Option.map_eq_some_iff]
  simp only [Outcome.toOption_eq_some]

section
variable [Crypto] [Sdk.Platform] {programId : ArchAddress} {config : AccountAt RegistryConfig}
  {name : AccountAt NameAccount} {currentSlot : UInt64}

/-! ## The checks of the accounts -/

omit [Sdk.Platform] in
theorem validateConfig_iff {u : Unit} :
    Sdk.validateConfig programId (config.map RegistryConfig.toSdk) = .ok u ↔
      validateConfig programId config = .ok u := by
  simp only [Sdk.validateConfig, validateConfig, Outcome.bind_ok, Outcome.reject_ok]
  refine exists_congr fun _ => and_congr validateHeader_ok ?_
  change ¬ config.address ≠ Sdk.deriveConfigAddress programId config.state.networkId
    (ofUtf8 config.state.namespace.bytes) ↔ _
  rw [Sdk.deriveConfigAddress_eq]

theorem validateName_iff {requestedName canonicalName : List UInt8}
    (hname : canonicalizeName requestedName = .ok canonicalName) {u : Unit} :
    Sdk.validateName programId (config.map RegistryConfig.toSdk).state (ofUtf8 requestedName)
        (name.map NameAccount.toSdk) currentSlot = .ok u ↔
      validateName programId config.state requestedName name currentSlot = .ok u := by
  obtain ⟨label, hlabel, rfl, rfl⟩ := canonicalizeName_ok.mp hname
  have hstored : ofUtf8 name.state.canonicalLabel.bytes ++ Sdk.text ".arch" ≠
      ofAscii (label ++ archSuffix) ↔
      stripSuffix archSuffix (label ++ archSuffix) ≠ some name.state.canonicalLabel.bytes := by
    have hascii := validateLabel_ascii hlabel
    rw [stripSuffix_append, ofAscii, List.map_append, Ne, Ne]
    change ¬ _ ++ ofAscii archSuffix = ofAscii label ++ ofAscii archSuffix ↔ _
    rw [List.append_left_inj, ← JsString.ofUtf8_ascii hascii, Option.some_inj,
      JsString.ofUtf8_inj name.state.canonicalLabel.utf8 (validUtf8_of_ascii hascii), eq_comm]
  have hhash : nameHash (label ++ archSuffix) = .ok (labelHash label) :=
    nameHash_label.mpr ⟨hlabel, rfl⟩
  rw [JsString.ofUtf8_ascii (canonical_ascii hlabel)]
  simp only [Sdk.validateName, validateName, Outcome.bind_ok, Outcome.reject_ok,
    Sdk.canonicalizeName_label hlabel, Sdk.nameHash_label hlabel, hname, hhash, Except.ok.injEq,
    exists_eq_left']
  refine exists_congr fun _ => and_congr validateHeader_ok ?_
  change (∃ _, ¬ name.address ≠ Sdk.deriveNameAddress programId (ofUtf8 config.state.namespace.bytes)
      (labelHash label) ∧ ∃ _, ¬ ¬ isActive name.state currentSlot ∧
      ¬ (name.state.nameHash ≠ labelHash label ∨
        ofUtf8 name.state.canonicalLabel.bytes ++ Sdk.text ".arch" ≠ _)) ↔ _
  rw [Sdk.deriveNameAddress_eq, hstored]

/-! ## The resolvers -/

theorem resolveOwner_iff {requestedName canonicalName : List UInt8}
    (hname : canonicalizeName requestedName = .ok canonicalName) (owner : ArchAddress) :
    Sdk.resolveOwner programId (config.map RegistryConfig.toSdk) (ofUtf8 requestedName)
        (name.map NameAccount.toSdk) currentSlot = .ok owner ↔
      resolveOwner programId config requestedName name currentSlot = .ok owner := by
  simp only [Sdk.resolveOwner, resolveOwner, Outcome.bind_ok, Outcome.pure_ok]
  exact exists_congr fun _ => and_congr validateConfig_iff <|
    exists_congr fun _ => and_congr (validateName_iff hname) Iff.rfl

omit [Sdk.Platform] in
/-- The two sides look for a record that passes its check at the same address. -/
theorem recordAddress_iff {ns : Str} {hash : Bytes 32} {recordType : RecordType}
    {value : RecordValue} {config : RegistryConfig} {name : NameAccount}
    (hvalue : validateRecordValue config name recordType value = .ok ()) (address : ArchAddress) :
    Sdk.deriveRecordAddressFor programId (ofUtf8 ns.bytes) hash recordType
        (if recordType = .text then (none : Option JsString).or value.toSdk.key? else none) =
        .ok address ↔
      deriveRecordAddressForValue programId ns.bytes hash recordType value.textKey = some address := by
  have htype := validateRecordValue_recordType hvalue
  subst htype
  cases value with
  | archOwner owner =>
      change Except.ok (Sdk.deriveRecordAddress ..) = _ ↔ some (deriveRecordAddress ..) = _
      rw [Sdk.deriveRecordAddress_eq, Except.ok.injEq, Option.some_inj]
  | bitcoinTaproot witnessProgram =>
      change Except.ok (Sdk.deriveRecordAddress ..) = _ ↔ some (deriveRecordAddress ..) = _
      rw [Sdk.deriveRecordAddress_eq, Except.ok.injEq, Option.some_inj]
  | tokenAta tokenId ata =>
      change Except.ok (Sdk.deriveRecordAddress ..) = _ ↔ some (deriveRecordAddress ..) = _
      rw [Sdk.deriveRecordAddress_eq, Except.ok.injEq, Option.some_inj]
  | text key value =>
      have hkey : ofUtf8 key.bytes ≠ [] := by
        simp only [validateRecordValue, validateTextKey, Outcome.bind_ok, Outcome.reject_ok] at hvalue
        obtain ⟨_, -, _, -, _, ⟨_, hkey, -⟩, -⟩ := hvalue
        intro h
        rw [(Sdk.ofUtf8_eq_nil key.utf8).mp h] at hkey
        exact hkey (.inl rfl)
      have hfilter : (some (ofUtf8 key.bytes)).filter (· ≠ []) = some (ofUtf8 key.bytes) :=
        Option.filter_eq_some_iff.mpr ⟨rfl, decide_eq_true hkey⟩
      change (orElseError _ ((some (ofUtf8 key.bytes)).filter (· ≠ [])) >>= fun key => pure
        (Sdk.deriveTextRecordAddress programId (ofUtf8 ns.bytes) hash key)) = .ok address ↔
        some (deriveTextRecordAddress ..) = _
      rw [hfilter, ← Sdk.deriveTextRecordAddress_eq, Option.some_inj]
      exact ⟨fun h => Except.ok.inj h, fun h => congrArg Except.ok h⟩

theorem resolveRecord_iff (hlibraries : Sdk.SameAddresses) {requestedName canonicalName : List UInt8}
    (hname : canonicalizeName requestedName = .ok canonicalName) {record : AccountAt RecordAccount}
    {recordType : RecordType} (v : Sdk.RecordValue) :
    Sdk.resolveRecord programId (config.map RegistryConfig.toSdk) (ofUtf8 requestedName)
        (name.map NameAccount.toSdk) (record.map RecordAccount.toSdk) recordType currentSlot none =
        .ok v ↔
      ∃ value, resolveRecord programId config requestedName name record recordType currentSlot =
        .ok value ∧ value.toSdk = v := by
  simp only [Sdk.resolveRecord, resolveRecord, Outcome.bind_ok, Outcome.reject_ok,
    Outcome.mapError_ok, Outcome.orElseError_ok, Outcome.pure_ok, validateConfig_iff,
    validateName_iff hname, validateHeader_ok]
  constructor
  · rintro ⟨_, hconfig, _, hname, _, hheader, address, haddress, _, hat, _, hfresh, _, hvalue, rfl⟩
    have hvalue := (Sdk.validateRecordValue_iff hlibraries ..).mp hvalue
    exact ⟨_, ⟨(), hconfig, (), hname, (), hheader, address, (recordAddress_iff hvalue address).mp haddress,
      (), hat, (), hfresh, (), hvalue, rfl⟩, rfl⟩
  · rintro ⟨_, ⟨_, hconfig, _, hname, _, hheader, address, haddress, _, hat, _, hfresh, _, hvalue, rfl⟩, rfl⟩
    exact ⟨(), hconfig, (), hname, (), hheader, address, (recordAddress_iff hvalue address).mpr haddress,
      (), hat, (), hfresh, (), (Sdk.validateRecordValue_iff hlibraries ..).mpr hvalue, rfl⟩

theorem resolvePrimary_iff {reverse : AccountAt ReverseAccount}
    (hlabel : validateLabel name.state.canonicalLabel.bytes = .ok ()) (v : JsString) :
    Sdk.resolvePrimary programId (config.map RegistryConfig.toSdk) reverse
        (name.map NameAccount.toSdk) currentSlot = .ok v ↔
      ∃ primary, resolvePrimary programId config reverse name currentSlot = .ok primary ∧
        ofUtf8 primary = v := by
  have hcanonical := canonicalizeName_label hlabel
  have hstored : ofUtf8 name.state.canonicalLabel.bytes ++ Sdk.text ".arch" =
      ofAscii (name.state.canonicalLabel.bytes ++ archSuffix) := by
    rw [JsString.ofUtf8_ascii (validateLabel_ascii hlabel), ofAscii, ofAscii, List.map_append]
    rfl
  have hsdk : Sdk.canonicalizeName ((name.map NameAccount.toSdk).state.canonicalLabel ++
      Sdk.text ".arch") = .ok (ofUtf8 (name.state.canonicalLabel.bytes ++ archSuffix)) := by
    rw [JsString.ofUtf8_ascii (canonical_ascii hlabel)]
    exact (congrArg Sdk.canonicalizeName hstored).trans (Sdk.canonicalizeName_label hlabel)
  have hreverse : Sdk.deriveReverseAddress programId (config.map RegistryConfig.toSdk).state.namespace
      reverse.state.owner.toList =
      deriveReverseAddress programId config.state.namespace.bytes reverse.state.owner :=
    Sdk.deriveReverseAddress_eq ..
  have haddress : Sdk.deriveNameAddress programId (config.map RegistryConfig.toSdk).state.namespace
      reverse.state.primaryNameHash =
      deriveNameAddress programId config.state.namespace.bytes reverse.state.primaryNameHash :=
    Sdk.deriveNameAddress_eq ..
  simp only [Sdk.resolvePrimary, resolvePrimary, Outcome.bind_ok, Outcome.reject_ok, hsdk,
    hcanonical, Except.ok.injEq, hreverse, haddress, validateHeader_ok, validateConfig_iff]
  constructor
  · rintro ⟨_, hconfig, _, hheader, _, hat, _, hname, _, hnameHeader, _, hbinding, rfl⟩
    exact ⟨_, ⟨(), hconfig, (), hheader, (), hat, (), hname, (), hnameHeader, (), hbinding, rfl⟩, rfl⟩
  · rintro ⟨_, ⟨_, hconfig, _, hheader, _, hat, _, hname, _, hnameHeader, _, hbinding, rfl⟩, rfl⟩
    exact ⟨(), hconfig, (), hheader, (), hat, (), hname, (), hnameHeader, (), hbinding, rfl⟩

/-- The resolvers of the SDK refine the reference, on every state. -/
theorem resolvers_agree (hlibraries : Sdk.SameAddresses) (programId : ArchAddress)
    (config : AccountAt RegistryConfig) (name : AccountAt NameAccount)
    (record : AccountAt RecordAccount) (reverse : AccountAt ReverseAccount)
    (recordType : RecordType) (currentSlot : UInt64) (requestedName : List UInt8)
    (hrequested : ∃ canonicalName, canonicalizeName requestedName = .ok canonicalName)
    (hlabel : validateLabel name.state.canonicalLabel.bytes = .ok ()) :
    (Sdk.resolveOwner programId (config.map RegistryConfig.toSdk) (ofUtf8 requestedName)
        (name.map NameAccount.toSdk) currentSlot).toOption =
      (resolveOwner programId config requestedName name currentSlot).toOption ∧
    (Sdk.resolveRecord programId (config.map RegistryConfig.toSdk) (ofUtf8 requestedName)
        (name.map NameAccount.toSdk) (record.map RecordAccount.toSdk) recordType currentSlot
        none).toOption =
      (resolveRecord programId config requestedName name record recordType
        currentSlot).toOption.map RecordValue.toSdk ∧
    (Sdk.resolvePrimary programId (config.map RegistryConfig.toSdk) reverse
        (name.map NameAccount.toSdk) currentSlot).toOption =
      (resolvePrimary programId config reverse name currentSlot).toOption.map ofUtf8 := by
  obtain ⟨canonicalName, hname⟩ := hrequested
  refine ⟨?_, ?_, ?_⟩
  · apply Option.ext
    intro owner
    rw [Outcome.toOption_eq_some, Outcome.toOption_eq_some]
    exact resolveOwner_iff hname owner
  · exact Outcome.toOption_eq_map (resolveRecord_iff hlibraries hname)
  · exact Outcome.toOption_eq_map (resolvePrimary_iff hlabel)

end

/-! A name, a Taproot record and a primary name, with the libraries at their values there. -/

namespace Taproot

def witnessProgram : Bytes 32 :=
  Testnet.word 0x79be667ef9dcbbac55a06295ce870b07029bfcdb2dce28d959f2815b16f81798

def hashes : List (List UInt8 × Bytes 32) :=
  (Testnet.derived [recordSeed, Testnet.arch.toList, Testnet.alice.toList, [1]],
    Testnet.word 0xc25b135fde93286495d23237d58d67c915d6aae4be4eed61adca34af0f7f7830) ::
  Testnet.hashes

def sha256 (bytes : List UInt8) : Bytes 32 := (hashes.lookup bytes).getD (Bytes.fill 32 0)

/-- The words of five bits of bytes, after `bits` bits of `value`. -/
def toWords (value bits : Nat) : List UInt8 → List Nat
  | [] => if bits = 0 then [] else [value <<< (5 - bits)]
  | b :: rest =>
      let value := value * 256 + b.toNat
      let bits := bits + 8
      if bits < 10 then value >>> (bits - 5) :: toWords (value % 2 ^ (bits - 5)) (bits - 5) rest
      else value >>> (bits - 5) :: value >>> (bits - 10) % 32 ::
        toWords (value % 2 ^ (bits - 10)) (bits - 10) rest

def address (hrp : JsString) (words : List Nat) : Option (List UInt8) :=
  if hrp = Sdk.text "tb" ∧ words = 1 :: toWords 0 0 witnessProgram.toList then
    some (ascii "tb1p0xlxvlhemja6c4dqv22uapctqupfhlxm9h8z3k2e72q4k9hcz7vq47zagq")
  else none

scoped instance crypto : Crypto where
  sha256 := sha256
  findProgramAddress seeds _ := (sha256 (Testnet.derived seeds), 255)
  createWithSeed _ _ _ := none
  taprootAddress program network := address (Sdk.hrp network) (1 :: toWords 0 0 program.toList)

scoped instance platform : Sdk.Platform where
  lowerUnicode s := s
  bech32mToWords := toWords 0 0
  bech32mEncode hrp words := orElseError (.error "Exceeds length limit") ((address hrp words).map ofAscii)

theorem sameAddresses : Sdk.SameAddresses := by
  intro program network
  change (orElseError _ ((address (Sdk.hrp network) (1 :: toWords 0 0 program.toList)).map
    ofAscii)).toOption = (address (Sdk.hrp network) (1 :: toWords 0 0 program.toList)).map ofAscii
  cases address (Sdk.hrp network) (1 :: toWords 0 0 program.toList) with
  | none => rfl
  | some bytes => rfl

def config : AccountAt RegistryConfig :=
  { address := deriveConfigAddress Testnet.program 2 testnetNamespace.bytes
    state := initialConfig 2 Testnet.ann }

def name : AccountAt NameAccount :=
  { address := deriveNameAddress Testnet.program testnetNamespace.bytes Testnet.alice
    state :=
      { header := .fresh nameAccountDiscriminator
        nameHash := Testnet.alice
        canonicalLabel := Testnet.aliceLabel
        owner := Testnet.ann
        registeredAtSlot := 0
        expiresAtSlot := 1
        recordEpoch := 1
        primaryBindingNonce := 1 } }

def record : AccountAt RecordAccount :=
  { address := deriveRecordAddress Testnet.program testnetNamespace.bytes Testnet.alice .bitcoinTaproot
    state :=
      { header := .fresh recordAccountDiscriminator
        nameHash := Testnet.alice
        recordType := .bitcoinTaproot
        ownerSnapshot := Testnet.ann
        recordEpoch := 1
        revision := 1
        value := .bitcoinTaproot witnessProgram
        updatedAtSlot := 0 } }

def reverse : AccountAt ReverseAccount :=
  { address := deriveReverseAddress Testnet.program testnetNamespace.bytes Testnet.ann
    state :=
      { header := .fresh reverseAccountDiscriminator
        owner := Testnet.ann
        primaryNameHash := Testnet.alice
        bindingNonce := 1
        updatedAtSlot := 0 } }

end Taproot

open Taproot in
theorem taproot_resolves :
    (Sdk.resolveOwner Testnet.program (config.map RegistryConfig.toSdk) (ofUtf8 (ascii "alice.arch"))
        (name.map NameAccount.toSdk) 0).toOption = some Testnet.ann ∧
    (Sdk.resolveRecord Testnet.program (config.map RegistryConfig.toSdk)
        (ofUtf8 (ascii "alice.arch")) (name.map NameAccount.toSdk)
        (record.map RecordAccount.toSdk) .bitcoinTaproot 0 none).toOption =
      some (.bitcoinTaproot witnessProgram) ∧
    (Sdk.resolvePrimary Testnet.program (config.map RegistryConfig.toSdk) reverse
        (name.map NameAccount.toSdk) 0).toOption = some (Sdk.text "alice.arch") := by
  have hlabel : validateLabel (ascii "alice") = .ok () := by decide
  have hrequested : ∃ canonicalName, canonicalizeName (ascii "alice.arch") = .ok canonicalName :=
    ⟨_, canonicalizeName_label hlabel⟩
  obtain ⟨howner, hrecord, hprimary⟩ := resolvers_agree sameAddresses Testnet.program config name
    record reverse .bitcoinTaproot 0 (ascii "alice.arch") hrequested (by decide)
  have howner' : (resolveOwner Testnet.program config (ascii "alice.arch") name 0).toOption =
      some Testnet.ann := by decide +kernel
  have hrecord' : (resolveRecord Testnet.program config (ascii "alice.arch") name record
      .bitcoinTaproot 0).toOption = some (.bitcoinTaproot witnessProgram) := by decide +kernel
  have hprimary' : (resolvePrimary Testnet.program config reverse name 0).toOption =
      some (ascii "alice.arch") := by decide +kernel
  rw [howner, hrecord, hprimary, howner', hrecord', hprimary']
  exact ⟨rfl, rfl, rfl⟩

/-! ## Panics -/

/-- What leads the reference to the panicking branch: a text record is asked for, and the
stored value has no key. -/
structure Unkeyed [Crypto] (programId : ArchAddress) (config : AccountAt RegistryConfig)
    (requestedName : List UInt8) (name : AccountAt NameAccount) (record : AccountAt RecordAccount)
    (recordType : RecordType) (currentSlot : UInt64) : Prop where
  validConfig : validateConfig programId config = .ok ()
  validName : validateName programId config.state requestedName name currentSlot = .ok ()
  validRecord : record.state.header.validate recordAccountDiscriminator = .ok ()
  requested : recordType = .text
  stored : record.state.value.recordType ≠ .text

theorem recordAddress_panics [Crypto] {programId : ArchAddress} {ns : List UInt8} {hash : Bytes 32}
    {recordType : RecordType} {value : RecordValue} :
    deriveRecordAddressForValue programId ns hash recordType value.textKey = none ↔
      recordType = .text ∧ value.recordType ≠ .text := by
  cases recordType <;> cases value <;> simp [deriveRecordAddressForValue, RecordValue.textKey,
    RecordValue.recordType]

/-- The reference does not panic exactly where an earlier check fails, no text is requested, or
a text record is stored. -/
theorem resolveRecord_noPanic_iff [Crypto] (programId : ArchAddress)
    (config : AccountAt RegistryConfig) (requestedName : List UInt8) (name : AccountAt NameAccount)
    (record : AccountAt RecordAccount) (recordType : RecordType) (currentSlot : UInt64) :
    Outcome.NoPanic (resolveRecord programId config requestedName name record recordType currentSlot)
      ↔ ¬ Unkeyed programId config requestedName name record recordType currentSlot := by
  rw [Outcome.NoPanic, Ne, not_iff_not]
  simp only [resolveRecord, Outcome.bind_error, Outcome.mapError_error, Outcome.mapError_ok,
    Outcome.reject_error, Outcome.orElseError_error, Outcome.pure_error, recordAddress_panics,
    reduceCtorEq, and_false, exists_false, or_false, false_or, and_true]
  constructor
  · rintro ⟨_, hconfig, _, hname, _, hheader, hrequested, hstored⟩
    exact ⟨hconfig, hname, hheader, hrequested, hstored⟩
  · intro h
    exact ⟨(), h.validConfig, (), h.validName, (), h.validRecord, h.requested, h.stored⟩

open Taproot in
theorem mismatched_record_panics :
    ¬ Outcome.NoPanic (resolveRecord Testnet.program config (ascii "alice.arch") name record .text 0) := by
  have hpanic : resolveRecord Testnet.program config (ascii "alice.arch") name record .text 0 =
      .error .panic := by decide +kernel
  exact fun h => h hpanic

end ArchNameService
