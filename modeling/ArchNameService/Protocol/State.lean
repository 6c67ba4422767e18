import ArchNameService.Lib.Borsh

/-! Account types of the protocol crate and their Borsh layouts (`state.rs`, `error.rs`). -/

namespace ArchNameService
open Borsh (Str Vec)

abbrev ArchAddress := Bytes 32

inductive AnsError where
  | invalidSuffix
  | invalidLabelLength
  | invalidLabelCharacter
  | invalidHyphenPlacement
  | invalidDiscriminator
  | unsupportedAccountVersion
  | invalidAccountDerivation
  | nameMismatch
  | nameTaken
  | inactiveName
  | staleRecord
  | recordTypeMismatch
  | ownerRecordMismatch
  | invalidTaprootAddress
  | invalidTokenAta
  | recordValueTooLarge
  | invalidTextRecord
  | invalidReverseBinding
  | listingActive
  | listingInactive
  | invalidListingPrice
  deriving DecidableEq, Repr

def stateVersion : UInt16 := 1

/-- `ANSCFG01` -/
def registryConfigDiscriminator : Bytes 8 := ⟨[0x41, 0x4E, 0x53, 0x43, 0x46, 0x47, 0x30, 0x31], rfl⟩
/-- `ANSNAME1` -/
def nameAccountDiscriminator : Bytes 8 := ⟨[0x41, 0x4E, 0x53, 0x4E, 0x41, 0x4D, 0x45, 0x31], rfl⟩
/-- `ANSRECR1` -/
def recordAccountDiscriminator : Bytes 8 := ⟨[0x41, 0x4E, 0x53, 0x52, 0x45, 0x43, 0x52, 0x31], rfl⟩
/-- `ANSREVR1` -/
def reverseAccountDiscriminator : Bytes 8 := ⟨[0x41, 0x4E, 0x53, 0x52, 0x45, 0x56, 0x52, 0x31], rfl⟩
/-- `ANSLIST1` -/
def listingAccountDiscriminator : Bytes 8 := ⟨[0x41, 0x4E, 0x53, 0x4C, 0x49, 0x53, 0x54, 0x31], rfl⟩
/-- `ANSOFFR1` -/
def offerAccountDiscriminator : Bytes 8 := ⟨[0x41, 0x4E, 0x53, 0x4F, 0x46, 0x46, 0x52, 0x31], rfl⟩

structure AccountHeader where
  discriminator : Bytes 8
  initialized : Bool
  stateVersion : UInt16
  deriving DecidableEq

namespace AccountHeader

def fresh (discriminator : Bytes 8) : AccountHeader :=
  { discriminator, initialized := true, stateVersion := ArchNameService.stateVersion }

def validate (header : AccountHeader) (discriminator : Bytes 8) : Except AnsError Unit :=
  if header.discriminator ≠ discriminator then .error .invalidDiscriminator
  else if ¬ header.initialized ∨ header.stateVersion ≠ ArchNameService.stateVersion then
    .error .unsupportedAccountVersion
  else .ok ()

/-- Only the initialized header of the discriminator passes its check. -/
theorem validate_ok_iff {header : AccountHeader} {discriminator : Bytes 8} {u : Unit} :
    header.validate discriminator = .ok u ↔ header = fresh discriminator := by
  unfold validate
  split
  · rename_i h
    refine ⟨fun e => (nomatch e), fun e => absurd (congrArg AccountHeader.discriminator e) h⟩
  · rename_i hd
    split
    · rename_i h
      refine ⟨fun e => (nomatch e), fun e => ?_⟩
      subst e
      exact absurd h (by simp [fresh])
    · rename_i h
      simp only [Bool.not_eq_true, not_or, Bool.not_eq_false, not_not] at h hd
      refine ⟨fun _ => ?_, fun _ => rfl⟩
      cases header
      simp only at h hd
      rw [fresh, h.1, h.2, hd]

end AccountHeader

inductive BitcoinNetwork where
  | mainnet
  | testnet
  | signet
  | regtest
  deriving DecidableEq, Repr

structure TokenProgramConfig where
  tokenProgramId : ArchAddress
  associatedTokenProgramId : ArchAddress
  deriving DecidableEq

structure RegistryConfig where
  header : AccountHeader
  programVersion : UInt16
  networkId : UInt32
  «namespace» : Str
  namespaceAuthority : ArchAddress
  gracePeriodSlots : UInt64
  minRegistrationSlots : UInt64
  maxRegistrationSlots : UInt64
  bitcoinNetwork : BitcoinNetwork
  tokenPrograms : Vec TokenProgramConfig
  paused : Bool
  mainnetEnabled : Bool
  deriving DecidableEq

structure NameAccount where
  header : AccountHeader
  nameHash : Bytes 32
  canonicalLabel : Str
  owner : ArchAddress
  registeredAtSlot : UInt64
  expiresAtSlot : UInt64
  recordEpoch : UInt64
  primaryBindingNonce : UInt64
  deriving DecidableEq

inductive RecordType where
  | archOwner
  | bitcoinTaproot
  | tokenAta
  | text
  deriving DecidableEq, Repr

inductive RecordValue where
  | archOwner (owner : ArchAddress)
  | bitcoinTaproot (witnessProgram : Bytes 32)
  | tokenAta (tokenId ata : ArchAddress)
  | text (key value : Str)
  deriving DecidableEq

namespace RecordValue

def recordType : RecordValue → RecordType
  | .archOwner _ => .archOwner
  | .bitcoinTaproot _ => .bitcoinTaproot
  | .tokenAta _ _ => .tokenAta
  | .text _ _ => .text

def textKey : RecordValue → Option (List UInt8)
  | .text key _ => some key.bytes
  | _ => none

end RecordValue

structure RecordAccount where
  header : AccountHeader
  nameHash : Bytes 32
  recordType : RecordType
  ownerSnapshot : ArchAddress
  recordEpoch : UInt64
  revision : UInt64
  value : RecordValue
  updatedAtSlot : UInt64
  deriving DecidableEq

structure ReverseAccount where
  header : AccountHeader
  owner : ArchAddress
  primaryNameHash : Bytes 32
  bindingNonce : UInt64
  updatedAtSlot : UInt64
  deriving DecidableEq

inductive QuoteCurrency where
  | arch
  | btc
  deriving DecidableEq, Repr

structure ListingAccount where
  header : AccountHeader
  nameHash : Bytes 32
  seller : ArchAddress
  currency : QuoteCurrency
  price : UInt64
  createdAtSlot : UInt64
  active : Bool
  deriving DecidableEq

structure OfferAccount where
  header : AccountHeader
  nameHash : Bytes 32
  buyer : ArchAddress
  currency : QuoteCurrency
  price : UInt64
  createdAtSlot : UInt64
  active : Bool
  deriving DecidableEq

/-! ## Layouts -/

def AccountHeader.fields : AccountHeader ≃ Bytes 8 × Bool × UInt16 where
  toFun h := (h.discriminator, h.initialized, h.stateVersion)
  invFun := fun (d, i, v) => ⟨d, i, v⟩
  left_inv _ := rfl
  right_inv _ := rfl

instance : Borsh AccountHeader := Borsh.ofEquiv AccountHeader.fields

instance : Borsh BitcoinNetwork :=
  letI := Borsh.tag 4 (by decide)
  Borsh.ofEquiv (α := Fin 4)
    { toFun := fun | .mainnet => 0 | .testnet => 1 | .signet => 2 | .regtest => 3
      invFun := fun | 0 => .mainnet | 1 => .testnet | 2 => .signet | 3 => .regtest
      left_inv := by intro n; cases n <;> rfl
      right_inv := by intro i; revert i; decide }

instance : Borsh TokenProgramConfig :=
  Borsh.ofEquiv
    { toFun := fun c => (c.tokenProgramId, c.associatedTokenProgramId)
      invFun := fun (t, a) => ⟨t, a⟩
      left_inv := fun _ => rfl
      right_inv := fun _ => rfl }

def RegistryConfig.fields : RegistryConfig ≃ AccountHeader × UInt16 × UInt32 × Str × ArchAddress ×
    UInt64 × UInt64 × UInt64 × BitcoinNetwork × Vec TokenProgramConfig × Bool × Bool where
  toFun c := (c.header, c.programVersion, c.networkId, c.namespace, c.namespaceAuthority,
    c.gracePeriodSlots, c.minRegistrationSlots, c.maxRegistrationSlots, c.bitcoinNetwork,
    c.tokenPrograms, c.paused, c.mainnetEnabled)
  invFun := fun (h, v, n, s, a, g, l, u, b, t, p, m) => ⟨h, v, n, s, a, g, l, u, b, t, p, m⟩
  left_inv _ := rfl
  right_inv _ := rfl

instance : Borsh RegistryConfig := Borsh.ofEquiv RegistryConfig.fields

def NameAccount.fields : NameAccount ≃ AccountHeader × Bytes 32 × Str × ArchAddress × UInt64 ×
    UInt64 × UInt64 × UInt64 where
  toFun n := (n.header, n.nameHash, n.canonicalLabel, n.owner, n.registeredAtSlot, n.expiresAtSlot,
    n.recordEpoch, n.primaryBindingNonce)
  invFun := fun (h, n, l, o, r, e, p, b) => ⟨h, n, l, o, r, e, p, b⟩
  left_inv _ := rfl
  right_inv _ := rfl

instance : Borsh NameAccount := Borsh.ofEquiv NameAccount.fields

instance : Borsh RecordType :=
  letI := Borsh.tag 4 (by decide)
  Borsh.ofEquiv (α := Fin 4)
    { toFun := fun | .archOwner => 0 | .bitcoinTaproot => 1 | .tokenAta => 2 | .text => 3
      invFun := fun | 0 => .archOwner | 1 => .bitcoinTaproot | 2 => .tokenAta | 3 => .text
      left_inv := by intro n; cases n <;> rfl
      right_inv := by intro i; revert i; decide }

/-- What follows the variant byte of a record value. -/
def RecordValue.Payload : RecordType → Type
  | .archOwner => ArchAddress
  | .bitcoinTaproot => Bytes 32
  | .tokenAta => ArchAddress × ArchAddress
  | .text => Str × Str

instance : ∀ t, Borsh (RecordValue.Payload t)
  | .archOwner => inferInstanceAs (Borsh ArchAddress)
  | .bitcoinTaproot => inferInstanceAs (Borsh (Bytes 32))
  | .tokenAta => inferInstanceAs (Borsh (ArchAddress × ArchAddress))
  | .text => inferInstanceAs (Borsh (Str × Str))

def RecordValue.fields : RecordValue ≃ Σ t, RecordValue.Payload t where
  toFun
    | .archOwner owner => ⟨.archOwner, owner⟩
    | .bitcoinTaproot program => ⟨.bitcoinTaproot, program⟩
    | .tokenAta tokenId ata => ⟨.tokenAta, (tokenId, ata)⟩
    | .text key value => ⟨.text, (key, value)⟩
  invFun
    | ⟨.archOwner, owner⟩ => .archOwner owner
    | ⟨.bitcoinTaproot, program⟩ => .bitcoinTaproot program
    | ⟨.tokenAta, (tokenId, ata)⟩ => .tokenAta tokenId ata
    | ⟨.text, (key, value)⟩ => .text key value
  left_inv v := by cases v <;> rfl
  right_inv := by rintro ⟨t, p⟩; cases t <;> rfl

instance : Borsh RecordValue := Borsh.ofEquiv RecordValue.fields

def RecordAccount.fields : RecordAccount ≃ AccountHeader × Bytes 32 × RecordType × ArchAddress ×
    UInt64 × UInt64 × RecordValue × UInt64 where
  toFun r := (r.header, r.nameHash, r.recordType, r.ownerSnapshot, r.recordEpoch, r.revision,
    r.value, r.updatedAtSlot)
  invFun := fun (h, n, t, o, e, r, v, u) => ⟨h, n, t, o, e, r, v, u⟩
  left_inv _ := rfl
  right_inv _ := rfl

instance : Borsh RecordAccount := Borsh.ofEquiv RecordAccount.fields

def ReverseAccount.fields : ReverseAccount ≃ AccountHeader × ArchAddress × Bytes 32 × UInt64 × UInt64
    where
  toFun r := (r.header, r.owner, r.primaryNameHash, r.bindingNonce, r.updatedAtSlot)
  invFun := fun (h, o, n, b, u) => ⟨h, o, n, b, u⟩
  left_inv _ := rfl
  right_inv _ := rfl

instance : Borsh ReverseAccount := Borsh.ofEquiv ReverseAccount.fields

/-- Two variants are numbered as a flag is. -/
instance : Borsh QuoteCurrency :=
  Borsh.ofEquiv (α := Bool)
    { toFun := fun | .arch => false | .btc => true
      invFun := fun | false => .arch | true => .btc
      left_inv := by intro n; cases n <;> rfl
      right_inv := by intro b; cases b <;> rfl }

def ListingAccount.fields : ListingAccount ≃ AccountHeader × Bytes 32 × ArchAddress ×
    QuoteCurrency × UInt64 × UInt64 × Bool where
  toFun l := (l.header, l.nameHash, l.seller, l.currency, l.price, l.createdAtSlot, l.active)
  invFun := fun (h, n, s, c, p, t, a) => ⟨h, n, s, c, p, t, a⟩
  left_inv _ := rfl
  right_inv _ := rfl

instance : Borsh ListingAccount := Borsh.ofEquiv ListingAccount.fields

def OfferAccount.fields : OfferAccount ≃ AccountHeader × Bytes 32 × ArchAddress ×
    QuoteCurrency × UInt64 × UInt64 × Bool where
  toFun o := (o.header, o.nameHash, o.buyer, o.currency, o.price, o.createdAtSlot, o.active)
  invFun := fun (h, n, b, c, p, t, a) => ⟨h, n, b, c, p, t, a⟩
  left_inv _ := rfl
  right_inv _ := rfl

instance : Borsh OfferAccount := Borsh.ofEquiv OfferAccount.fields

def encodeState {T : Type} [Borsh T] (state : T) : List UInt8 := Borsh.serialize state

def decodeState {T : Type} [Borsh T] (bytes : List UInt8) : Option T := Borsh.fromSlice bytes

@[simp] theorem decodeState_encodeState {T : Type} [Borsh T] (state : T) :
    decodeState (encodeState state) = some state := Borsh.fromSlice_serialize state

theorem decodeState_eq_some {T : Type} [Borsh T] {bytes : List UInt8} {state : T} :
    decodeState bytes = some state ↔ bytes = encodeState state := Borsh.fromSlice_eq_some

/-! ## Encoded lengths

The six account kinds share one owner program and are loaded without a tag
check in places; what keeps them apart there is the length of their encodings. -/

@[simp] theorem length_serialize_header (h : AccountHeader) : (Borsh.serialize h).length = 11 := by
  change (Borsh.serialize (h.discriminator, h.initialized, h.stateVersion)).length = 11
  simp

@[simp] theorem length_serialize_network (n : BitcoinNetwork) : (Borsh.serialize n).length = 1 := rfl
@[simp] theorem length_serialize_recordType (t : RecordType) : (Borsh.serialize t).length = 1 := rfl
@[simp] theorem length_serialize_currency (c : QuoteCurrency) : (Borsh.serialize c).length = 1 := rfl

theorem length_encode_name (n : NameAccount) :
    (encodeState n).length = 111 + n.canonicalLabel.bytes.length := by
  change (Borsh.serialize (n.header, n.nameHash, n.canonicalLabel, n.owner, n.registeredAtSlot,
        n.expiresAtSlot, n.recordEpoch, n.primaryBindingNonce)).length = _
  simp only [Borsh.length_prod, length_serialize_header, Borsh.length_bytes, Borsh.length_str,
    Borsh.length_u64]
  omega

theorem length_encode_reverse (r : ReverseAccount) : (encodeState r).length = 91 := by
  change (Borsh.serialize (r.header, r.owner, r.primaryNameHash, r.bindingNonce,
    r.updatedAtSlot)).length = _
  simp

theorem length_encode_listing (l : ListingAccount) : (encodeState l).length = 93 := by
  change (Borsh.serialize (l.header, l.nameHash, l.seller, l.currency, l.price, l.createdAtSlot,
    l.active)).length = _
  simp

theorem length_encode_offer (o : OfferAccount) : (encodeState o).length = 93 := by
  change (Borsh.serialize (o.header, o.nameHash, o.buyer, o.currency, o.price, o.createdAtSlot,
    o.active)).length = _
  simp

theorem length_encode_config (c : RegistryConfig) :
    (encodeState c).length = 80 + c.namespace.bytes.length + (Borsh.serialize c.tokenPrograms).length := by
  change (Borsh.serialize (c.header, c.programVersion, c.networkId, c.namespace, c.namespaceAuthority,
        c.gracePeriodSlots, c.minRegistrationSlots, c.maxRegistrationSlots, c.bitcoinNetwork,
        c.tokenPrograms, c.paused, c.mainnetEnabled)).length = _
  simp only [Borsh.length_prod, length_serialize_header, Borsh.length_bytes, Borsh.length_str,
    Borsh.length_u64, Borsh.length_u32, Borsh.length_u16, length_serialize_network, Borsh.length_bool]
  omega

theorem length_encode_value (v : RecordValue) : 9 ≤ (Borsh.serialize v).length := by
  cases v with
  | archOwner owner =>
      change 9 ≤ (Borsh.serialize (RecordType.archOwner) ++ Borsh.serialize owner).length
      simp
  | bitcoinTaproot program =>
      change 9 ≤ (Borsh.serialize (RecordType.bitcoinTaproot) ++ Borsh.serialize program).length
      simp
  | tokenAta tokenId ata =>
      change 9 ≤ (Borsh.serialize (RecordType.tokenAta) ++ Borsh.serialize (tokenId, ata)).length
      simp
  | text key value =>
      change 9 ≤ (Borsh.serialize (RecordType.text) ++ Borsh.serialize (key, value)).length
      simp only [List.length_append, length_serialize_recordType, Borsh.length_prod, Borsh.length_str]
      omega

theorem length_encode_record (r : RecordAccount) : 109 ≤ (encodeState r).length := by
  have hvalue := length_encode_value r.value
  change 109 ≤ (Borsh.serialize (r.header, r.nameHash, r.recordType, r.ownerSnapshot, r.recordEpoch,
        r.revision, r.value, r.updatedAtSlot)).length
  simp only [Borsh.length_prod, length_serialize_header, Borsh.length_bytes,
    length_serialize_recordType, Borsh.length_u64]
  omega

end ArchNameService
