import ArchNameService.Sdk.Codec
import Mathlib.Tactic.Ring

/-!
# The codec of the SDK against the Borsh layouts

Each reader of the SDK reads a layout of the protocol crate, in which it takes
flags, option tags and text more loosely; each writer gives the Borsh encoding.
-/

namespace ArchNameService
open Borsh (serialize deserialize Str Vec)

namespace Sdk
open JsString (ofUtf8 HasMark)

/-! ## Readers of the primitives -/

namespace BorshReader

theorem reads_bytes (n : Nat) : Reads (bytes n) (id : Bytes n → Bytes n) := by
  intro bs v rest
  have hok : bytes n bs = .ok (v, rest) ↔
      Bytes.ofList? n (bs.take n) = some v ∧ bs.drop n = rest := by
    unfold bytes
    cases Bytes.ofList? n (bs.take n) with
    | none => exact ⟨fun h => (nomatch h), fun h => (nomatch h.1)⟩
    | some w =>
        constructor
        · intro h
          cases h
          exact ⟨rfl, rfl⟩
        · rintro ⟨h, rfl⟩
          cases h
          rfl
  rw [hok, Bytes.ofList?_eq_some]
  constructor
  · rintro ⟨hfront, rfl⟩
    refine ⟨v, rfl, ?_⟩
    change bs = v.toList ++ bs.drop n
    rw [← hfront, List.take_append_drop]
  · rintro ⟨w, rfl, rfl⟩
    exact ⟨List.take_left' w.toList_length, List.drop_left' w.toList_length⟩

/-- A word that is computed from its bytes. -/
theorem reads_word {n : Nat} {α : Type} [Borsh α] {f : Bytes n → α}
    (hlength : ∀ a : α, (serialize a).length = n) (hword : ∀ v : Bytes n, serialize (f v) = v.toList) :
    Reads (bytes n >>= fun slice => pure (f slice)) (id : α → α) := by
  intro bs a rest
  rw [(Reads.last (reads_bytes n)) bs a rest]
  constructor
  · rintro ⟨v, rfl, rfl⟩
    exact ⟨f v, rfl, congrArg (· ++ rest) (hword v).symm⟩
  · rintro ⟨a, rfl, rfl⟩
    refine ⟨⟨serialize a, hlength a⟩, ?_, rfl⟩
    exact Borsh.serialize_injective (hword ⟨serialize a, hlength a⟩)

theorem reads_u8 : Reads u8 (id : UInt8 → UInt8) := by
  apply reads_word Borsh.length_u8
  intro v
  rw [Borsh.serialize_u8]
  obtain ⟨bs, h⟩ := v
  obtain ⟨b, rfl⟩ := List.length_eq_one_iff.mp h
  rfl

theorem reads_bool : Reads bool (fun w : UInt8 => w != 0) := Reads.last reads_u8

theorem reads_u32 : Reads u32 (id : UInt32 → UInt32) := by
  apply reads_word Borsh.length_u32
  intro v
  have hlt := leNat_lt v.toList
  rw [v.toList_length] at hlt
  change leBytes 4 (UInt32.ofNat (leNat v.toList)).toNat = v.toList
  rw [UInt32.toNat_ofNat_of_lt' hlt]
  have hbytes := leBytes_leNat v.toList
  rwa [v.toList_length] at hbytes

/-- The bytes that are or-ed at their places make up the number. -/
theorem orBytes_eq (i value : Nat) (bs : List UInt8) (h : value < 256 ^ i) :
    orBytes i value bs = value + 256 ^ i * leNat bs := by
  induction bs generalizing i value with
  | nil => rfl
  | cons b bs ih =>
      have hb := b.toNat_lt
      have hpow : (2 : Nat) ^ (i * 8) = 256 ^ i := by rw [Nat.mul_comm, pow_mul]; rfl
      have hor : value ||| (b.toNat <<< (i * 8)) = value + 256 ^ i * b.toNat := by
        rw [Nat.or_comm, ← Nat.shiftLeft_add_eq_or_of_lt (hpow ▸ h), Nat.shiftLeft_eq, hpow]
        ring
      have hlt : value + 256 ^ i * b.toNat < 256 ^ (i + 1) :=
        calc value + 256 ^ i * b.toNat < 256 ^ i + 256 ^ i * b.toNat := Nat.add_lt_add_right h _
          _ = 256 ^ i * (b.toNat + 1) := by ring
          _ ≤ 256 ^ i * 256 := Nat.mul_le_mul_left _ hb
          _ = 256 ^ (i + 1) := (pow_succ 256 i).symm
      rw [orBytes, hor, ih _ _ hlt, leNat, pow_succ]
      ring

theorem reads_u16 : Reads u16 (id : UInt16 → UInt16) := by
  apply reads_word Borsh.length_u16
  intro v
  have hlt := leNat_lt v.toList
  have hbytes := leBytes_leNat v.toList
  rw [v.toList_length] at hlt hbytes
  have hor : v.head.toNat ||| (v.tail.head.toNat <<< 8) = leNat v.toList := by
    obtain ⟨bs, h⟩ := v
    obtain ⟨a, b, rfl⟩ := List.length_eq_two.mp h
    exact (orBytes_eq 1 a.toNat [b] a.toNat_lt)
  change leBytes 2 (UInt16.ofNat (v.head.toNat ||| (v.tail.head.toNat <<< 8))).toNat = v.toList
  rw [hor, UInt16.toNat_ofNat_of_lt' hlt, hbytes]

theorem reads_u64 : Reads u64 (id : UInt64 → UInt64) := by
  apply reads_word Borsh.length_u64
  intro v
  have hlt := leNat_lt v.toList
  rw [v.toList_length] at hlt
  change leBytes 8 (UInt64.ofNat (orBytes 0 0 v.toList)).toNat = v.toList
  rw [orBytes_eq 0 0 _ (by decide), pow_zero, Nat.one_mul, Nat.zero_add, UInt64.toNat_ofNat_of_lt' hlt]
  have hbytes := leBytes_leNat v.toList
  rwa [v.toList_length] at hbytes

theorem reads_pubkey : Reads pubkey (id : Bytes 32 → Bytes 32) := reads_bytes 32

theorem reads_string : Reads string (fun w : Vec UInt8 => JsString.decode w.items) := by
  intro bs s rest
  unfold string
  rw [Reads.bind_ok]
  constructor
  · rintro ⟨length, mid, hlength, hs⟩
    obtain ⟨length, rfl, rfl⟩ := (reads_u32 _ _ _).mp hlength
    obtain ⟨slice, rfl, rfl⟩ := (Reads.last (reads_bytes _) _ _ _).mp hs
    have hfits : slice.toList.length < 2 ^ 32 := by
      rw [slice.toList_length]
      exact length.toNat_lt
    refine ⟨⟨slice.toList, hfits⟩, rfl, ?_⟩
    change _ = (serialize (UInt32.ofNat slice.toList.length) ++ Borsh.serializeAll slice.toList) ++ rest
    rw [Borsh.serializeAll_u8, slice.toList_length, List.append_assoc]
    exact congrArg (serialize · ++ _) (UInt32.ofNat_toNat).symm
  · rintro ⟨w, rfl, rfl⟩
    refine ⟨UInt32.ofNat w.items.length, w.items ++ rest, ?_, ?_⟩
    · refine (reads_u32 _ _ _).mpr ⟨_, rfl, ?_⟩
      change (serialize (UInt32.ofNat w.items.length) ++ Borsh.serializeAll w.items) ++ rest = _
      rw [Borsh.serializeAll_u8, List.append_assoc]
      rfl
    · refine (Reads.last (reads_bytes _) _ _ _).mpr ⟨⟨w.items, ?_⟩, rfl, rfl⟩
      exact (Borsh.u32_toNat_ofNat w.fits).symm

end BorshReader

/-! ## Writers of the primitives -/

namespace BorshWriter

theorem bool_eq (value : Bool) : bool value = serialize value := by cases value <;> rfl

theorem low_byte (n : Nat) : UInt8.ofNat (n &&& 0xFF) = UInt8.ofNat n := by
  apply UInt8.toNat_inj.mp
  rw [UInt8.toNat_ofNat', UInt8.toNat_ofNat', Nat.and_two_pow_sub_one_eq_mod n 8, Nat.mod_mod]

theorem shiftBytes_eq (n v : Nat) : shiftBytes n v = leBytes n v := by
  induction n generalizing v with
  | zero => rfl
  | succ n ih => rw [shiftBytes, leBytes, low_byte, ih, Nat.shiftRight_eq_div_pow]

theorem u16_eq (value : UInt16) : u16 value = serialize value := shiftBytes_eq 2 value.toNat

/-- The sign does not reach the byte that is kept. -/
theorem lowByte_sshiftRight (value : BitVec 32) {n : Nat} (hn : n ≤ 24) :
    lowByte (value.sshiftRight n) = UInt8.ofNat (value.toNat >>> n) := by
  have hbits : value.sshiftRight n &&& 0xFF = (value >>> n) &&& 0xFF := by
    apply BitVec.eq_of_getLsbD_eq
    intro i hi
    rw [BitVec.getLsbD_and, BitVec.getLsbD_and, BitVec.getLsbD_sshiftRight, BitVec.getLsbD_ushiftRight]
    by_cases hbyte : i < 8
    · have hshift : n + i < 32 := by omega
      simp only [hshift, if_pos, Nat.not_le.mpr hi, decide_false, Bool.not_false, Bool.true_and]
    · have hmask : ∀ i < 32, ¬ i < 8 → (0xFF : BitVec 32).getLsbD i = false := by decide
      rw [hmask i hi hbyte, Bool.and_false, Bool.and_false]
  rw [lowByte, hbits, BitVec.toNat_and, BitVec.toNat_ushiftRight]
  exact low_byte _

theorem u32_eq (value : UInt32) : u32 value = serialize value := by
  have hbyte := fun n hn => lowByte_sshiftRight value.toBitVec (n := n) hn
  have hlast : lowByte (value.toBitVec >>> 24) = UInt8.ofNat (value.toNat >>> 24) := by
    rw [lowByte, BitVec.toNat_and, BitVec.toNat_ushiftRight]
    exact low_byte _
  have hfirst : lowByte value.toBitVec = UInt8.ofNat value.toNat := by
    rw [lowByte, BitVec.toNat_and]
    exact low_byte _
  rw [u32, hfirst, hbyte 8 (by decide), hbyte 16 (by decide), hlast]
  change _ = leBytes 4 value.toNat
  simp only [leBytes, Nat.shiftRight_eq_div_pow, Nat.div_div_eq_div_mul]
  rfl

theorem u64_eq (value : UInt64) : u64 value = serialize value := shiftBytes_eq 8 value.toNat

theorem bytes_eq {n : Nat} (value : Bytes n) : bytes value = serialize value := rfl

theorem pubkey_eq (value : Bytes 32) : pubkey value = serialize value := rfl

theorem string_eq (s : Str) : string (ofUtf8 s.bytes) = serialize s := by
  rw [string, JsString.encode_ofUtf8 s.utf8, u32_eq]
  rfl

/-- Every string is written as the text of its bytes, where their number fits. -/
theorem string_encode {s : JsString} (h : s.encode.length < 2 ^ 32) :
    string s = serialize (⟨s.encode, JsString.encode_valid s, h⟩ : Str) := by
  rw [string, u32_eq]
  rfl

end BorshWriter

end Sdk

/-! ## Layouts of the accounts -/

open Layout (same flag list)

/-- Text is read by the decoder of the platform, which replaces what is ill formed and
drops a leading mark. -/
def Str.layout : Layout Str JsString :=
  .text JsString.decode JsString.ofUtf8 (fun bytes => ¬ JsString.HasMark bytes)
    (fun _ => JsString.decode_eq_ofUtf8_iff)

def AccountHeader.layout : Layout AccountHeader AccountHeader :=
  ((same _).prod (flag.prod (same _))).ofFields fields fields id (fun _ => rfl) (fun _ => rfl)

def Sdk.RegistryConfig.fields : Sdk.RegistryConfig ≃ AccountHeader × UInt16 × UInt32 × JsString ×
    ArchAddress × UInt64 × UInt64 × UInt64 × BitcoinNetwork × List TokenProgramConfig × Bool × Bool
    where
  toFun c := (c.header, c.programVersion, c.networkId, c.namespace, c.namespaceAuthority,
    c.gracePeriodSlots, c.minRegistrationSlots, c.maxRegistrationSlots, c.bitcoinNetwork,
    c.tokenPrograms, c.paused, c.mainnetEnabled)
  invFun := fun (h, v, n, s, a, g, l, u, b, t, p, m) => ⟨h, v, n, s, a, g, l, u, b, t, p, m⟩
  left_inv _ := rfl
  right_inv _ := rfl

def RegistryConfig.layout : Layout RegistryConfig Sdk.RegistryConfig :=
  (AccountHeader.layout.prod <| (same _).prod <| (same _).prod <| Str.layout.prod <|
    (same _).prod <| (same _).prod <| (same _).prod <| (same _).prod <| (same _).prod <|
    (list _).prod <| flag.prod flag).ofFields fields Sdk.RegistryConfig.fields toSdk
    (fun _ => rfl) (fun _ => rfl)

def Sdk.NameAccount.fields : Sdk.NameAccount ≃ AccountHeader × Bytes 32 × JsString × ArchAddress ×
    UInt64 × UInt64 × UInt64 × UInt64 where
  toFun n := (n.header, n.nameHash, n.canonicalLabel, n.owner, n.registeredAtSlot, n.expiresAtSlot,
    n.recordEpoch, n.primaryBindingNonce)
  invFun := fun (h, n, l, o, r, e, p, b) => ⟨h, n, l, o, r, e, p, b⟩
  left_inv _ := rfl
  right_inv _ := rfl

def NameAccount.layout : Layout NameAccount Sdk.NameAccount :=
  (AccountHeader.layout.prod <| (same _).prod <| Str.layout.prod <| (same _).prod <|
    (same _).prod <| (same _).prod <| (same _).prod (same _)).ofFields fields
    Sdk.NameAccount.fields toSdk (fun _ => rfl) (fun _ => rfl)

def Sdk.RecordValue.Payload : RecordType → Type
  | .archOwner => ArchAddress
  | .bitcoinTaproot => Bytes 32
  | .tokenAta => ArchAddress × ArchAddress
  | .text => JsString × JsString

def Sdk.RecordValue.fields : Sdk.RecordValue ≃ Σ t, Sdk.RecordValue.Payload t where
  toFun
    | .archOwner owner => ⟨.archOwner, owner⟩
    | .bitcoinTaproot program => ⟨.bitcoinTaproot, program⟩
    | .tokenAta tokenId ata => ⟨.tokenAta, (tokenId, ata)⟩
    | .text key value => ⟨.text, (key, value)⟩
  invFun
    | ⟨.archOwner, owner⟩ => .archOwner owner
    | ⟨.bitcoinTaproot, program⟩ => .bitcoinTaproot program
    | ⟨.tokenAta, (tokenId, ata)⟩ => .tokenAta tokenId ata
    | ⟨.text, (key, value)⟩ => .text key value
  left_inv v := by cases v <;> rfl
  right_inv := by rintro ⟨t, p⟩; cases t <;> rfl

def RecordValue.Payload.layout : ∀ t, Layout (RecordValue.Payload t) (Sdk.RecordValue.Payload t)
  | .archOwner => same ArchAddress
  | .bitcoinTaproot => same (Bytes 32)
  | .tokenAta => same (ArchAddress × ArchAddress)
  | .text => Str.layout.prod Str.layout

def RecordValue.layout : Layout RecordValue Sdk.RecordValue :=
  (Layout.sigma RecordValue.Payload.layout).ofFields fields Sdk.RecordValue.fields toSdk
    (fun _ => rfl) (fun v => by cases v <;> rfl)

def Sdk.RecordAccount.fields : Sdk.RecordAccount ≃ AccountHeader × Bytes 32 × RecordType ×
    ArchAddress × UInt64 × UInt64 × Sdk.RecordValue × UInt64 where
  toFun r := (r.header, r.nameHash, r.recordType, r.ownerSnapshot, r.recordEpoch, r.revision,
    r.value, r.updatedAtSlot)
  invFun := fun (h, n, t, o, e, r, v, u) => ⟨h, n, t, o, e, r, v, u⟩
  left_inv _ := rfl
  right_inv _ := rfl

def RecordAccount.layout : Layout RecordAccount Sdk.RecordAccount :=
  (AccountHeader.layout.prod <| (same _).prod <| (same _).prod <| (same _).prod <| (same _).prod <|
    (same _).prod <| RecordValue.layout.prod (same _)).ofFields fields Sdk.RecordAccount.fields toSdk
    (fun _ => rfl) (fun _ => rfl)

def ReverseAccount.layout : Layout ReverseAccount ReverseAccount :=
  (AccountHeader.layout.prod <| (same _).prod <| (same _).prod <| (same _).prod (same _)).ofFields
    fields fields id (fun _ => rfl) (fun _ => rfl)

def ListingAccount.layout : Layout ListingAccount ListingAccount :=
  (AccountHeader.layout.prod <| (same _).prod <| (same _).prod <| (same _).prod <| (same _).prod <|
    (same _).prod flag).ofFields fields fields id (fun _ => rfl) (fun _ => rfl)

def OfferAccount.layout : Layout OfferAccount OfferAccount :=
  (AccountHeader.layout.prod <| (same _).prod <| (same _).prod <| (same _).prod <| (same _).prod <|
    (same _).prod flag).ofFields fields fields id (fun _ => rfl) (fun _ => rfl)

namespace Sdk
open BorshReader

/-! ## Readers of the accounts -/

theorem reads_lookup {κ : Type} [Borsh κ] [DecidableEq κ] {values : List κ} {message : String}
    (hencode : ∀ t : κ, serialize t = [UInt8.ofNat (values.idxOf t)])
    (hvalues : ∀ t : κ, values[(UInt8.ofNat (values.idxOf t)).toNat]? = some t)
    (hnodup : values.Nodup) : Reads (lookup values message) (id : κ → κ) := by
  intro bs t rest
  unfold lookup
  rw [Reads.bind_ok]
  constructor
  · rintro ⟨b, mid, hb, ht⟩
    obtain ⟨b, rfl, rfl⟩ := (reads_u8 _ _ _).mp hb
    cases hvalue : values[b.toNat]? with
    | none =>
        simp only [id_eq, hvalue] at ht
        exact nomatch ht
    | some t' =>
        simp only [id_eq, hvalue] at ht
        cases ht
        refine ⟨t, rfl, ?_⟩
        have hindex : b.toNat = (UInt8.ofNat (values.idxOf t)).toNat := by
          obtain ⟨hlt, -⟩ := List.getElem?_eq_some_iff.mp hvalue
          exact (List.getElem?_inj hlt hnodup).mp (hvalue.trans (hvalues t).symm)
        rw [hencode, ← UInt8.toNat_inj.mp hindex, Borsh.serialize_u8]
  · rintro ⟨t, rfl, rfl⟩
    refine ⟨UInt8.ofNat (values.idxOf t), rest, ?_, ?_⟩
    · refine (reads_u8 _ _ _).mpr ⟨_, rfl, ?_⟩
      rw [hencode, Borsh.serialize_u8]
      rfl
    · simp only [hvalues t]
      rfl

theorem reads_bitcoinNetwork : Reads decodeBitcoinNetwork (id : BitcoinNetwork → BitcoinNetwork) := by
  apply reads_lookup
  · intro t
    cases t <;> rfl
  · intro t
    cases t <;> rfl
  · decide

theorem reads_recordType : Reads decodeRecordType (id : RecordType → RecordType) := by
  apply reads_lookup
  · intro t
    cases t <;> rfl
  · intro t
    cases t <;> rfl
  · decide

theorem reads_quoteCurrency : Reads decodeQuoteCurrency (id : QuoteCurrency → QuoteCurrency) := by
  apply reads_lookup
  · intro t
    cases t <;> rfl
  · intro t
    cases t <;> rfl
  · decide

theorem reads_header : Reads decodeHeader AccountHeader.layout.read := by
  have h : Reads decodeHeader _ :=
    .bind (reads_bytes 8) fun _ => .bind reads_bool fun _ => .last reads_u16
  exact h

theorem encodeRecordType_eq (t : RecordType) : encodeRecordType t = serialize t := by
  cases t <;> rfl

theorem reads_recordValue : Reads decodeRecordValue RecordValue.layout.read := by
  apply Reads.select (fun t (w : (RecordValue.Payload.layout t).Wire) =>
    RecordValue.layout.read ⟨t, w⟩) reads_u8 (fun t => (encodeRecordType_eq t).symm)
  · intro t
    cases t with
    | archOwner => exact .last reads_pubkey
    | bitcoinTaproot => exact .last reads_pubkey
    | tokenAta => exact .bind reads_pubkey fun _ => .last reads_pubkey
    | text => exact .bind reads_string fun _ => .last reads_string
  · intro b hb bs x
    split
    · exact absurd rfl (hb .archOwner)
    · exact absurd rfl (hb .bitcoinTaproot)
    · exact absurd rfl (hb .tokenAta)
    · exact absurd rfl (hb .text)
    · exact nofun

theorem reads_tokenProgram :
    Reads decodeTokenProgram (id : TokenProgramConfig → TokenProgramConfig) := by
  have h : Reads decodeTokenProgram _ := .bind reads_pubkey fun _ => .last reads_pubkey
  intro bs program rest
  rw [h bs program rest]
  constructor
  · rintro ⟨w, rfl, rfl⟩
    exact ⟨_, rfl, rfl⟩
  · rintro ⟨program, rfl, rfl⟩
    exact ⟨(program.tokenProgramId, program.associatedTokenProgramId), rfl, rfl⟩

theorem tokenPrograms_ok {n : Nat} {bs rest : List UInt8} {programs : List TokenProgramConfig} :
    decodeTokenPrograms n bs = .ok (programs, rest) ↔
      programs.length = n ∧ bs = Borsh.serializeAll programs ++ rest := by
  induction n generalizing bs rest programs with
  | zero =>
      constructor
      · intro h
        cases h
        exact ⟨rfl, rfl⟩
      · rintro ⟨hlength, rfl⟩
        obtain rfl := List.length_eq_zero_iff.mp hlength
        rfl
  | succ n ih =>
      rw [decodeTokenPrograms, Reads.bind_ok]
      simp only [Reads.bind_ok, reads_tokenProgram _ _ _, ih]
      constructor
      · rintro ⟨program, mid, ⟨_, rfl, rfl⟩, programs, _, ⟨rfl, rfl⟩, h⟩
        cases h
        exact ⟨rfl, (List.append_assoc _ _ _).symm⟩
      · rintro ⟨hlength, rfl⟩
        cases programs with
        | nil => exact nomatch hlength
        | cons program programs =>
            exact ⟨program, _, ⟨_, rfl, List.append_assoc _ _ _⟩, programs, rest,
              ⟨Nat.succ.inj hlength, rfl⟩, rfl⟩

theorem reads_tokenProgramList : Reads decodeTokenProgramList
    (Vec.items : Vec TokenProgramConfig → List TokenProgramConfig) := by
  intro bs programs rest
  unfold decodeTokenProgramList
  simp only [Reads.bind_ok, reads_u32 _ _ _, tokenPrograms_ok]
  constructor
  · rintro ⟨_, mid, ⟨count, rfl, rfl⟩, hlength, rfl⟩
    have hfits : programs.length < 2 ^ 32 := by
      rw [hlength]
      exact count.toNat_lt
    refine ⟨⟨programs, hfits⟩, rfl, ?_⟩
    change _ = (serialize (UInt32.ofNat programs.length) ++ Borsh.serializeAll programs) ++ rest
    rw [hlength, List.append_assoc, UInt32.ofNat_toNat]
    rfl
  · rintro ⟨v, rfl, rfl⟩
    exact ⟨_, _, ⟨UInt32.ofNat v.items.length, rfl, List.append_assoc _ _ _⟩,
      (Borsh.u32_toNat_ofNat v.fits).symm, rfl⟩

theorem reads_registryConfig : Reads readRegistryConfig RegistryConfig.layout.read := by
  have h : Reads readRegistryConfig _ :=
    .bind reads_header fun _ => .bind reads_u16 fun _ => .bind reads_u32 fun _ =>
      .bind reads_string fun _ => .bind reads_pubkey fun _ => .bind reads_u64 fun _ =>
        .bind reads_u64 fun _ => .bind reads_u64 fun _ => .bind reads_bitcoinNetwork fun _ =>
          .bind reads_tokenProgramList fun _ => .bind reads_bool fun _ => .last reads_bool
  exact h

theorem reads_nameAccount : Reads readNameAccount NameAccount.layout.read := by
  have h : Reads readNameAccount _ :=
    .bind reads_header fun _ => .bind reads_pubkey fun _ => .bind reads_string fun _ =>
      .bind reads_pubkey fun _ => .bind reads_u64 fun _ => .bind reads_u64 fun _ =>
        .bind reads_u64 fun _ => .last reads_u64
  exact h

theorem reads_recordAccount : Reads readRecordAccount RecordAccount.layout.read := by
  have h : Reads readRecordAccount _ :=
    .bind reads_header fun _ => .bind reads_pubkey fun _ => .bind reads_recordType fun _ =>
      .bind reads_pubkey fun _ => .bind reads_u64 fun _ => .bind reads_u64 fun _ =>
        .bind reads_recordValue fun _ => .last reads_u64
  exact h

theorem reads_reverseAccount : Reads readReverseAccount ReverseAccount.layout.read := by
  have h : Reads readReverseAccount _ :=
    .bind reads_header fun _ => .bind reads_pubkey fun _ => .bind reads_pubkey fun _ =>
      .bind reads_u64 fun _ => .last reads_u64
  exact h

theorem reads_listingAccount : Reads readListingAccount ListingAccount.layout.read := by
  have h : Reads readListingAccount _ :=
    .bind reads_header fun _ => .bind reads_pubkey fun _ => .bind reads_pubkey fun _ =>
      .bind reads_quoteCurrency fun _ => .bind reads_u64 fun _ => .bind reads_u64 fun _ =>
        .last reads_bool
  exact h

theorem reads_offerAccount : Reads readOfferAccount OfferAccount.layout.read := by
  have h : Reads readOfferAccount _ :=
    .bind reads_header fun _ => .bind reads_pubkey fun _ => .bind reads_pubkey fun _ =>
      .bind reads_quoteCurrency fun _ => .bind reads_u64 fun _ => .bind reads_u64 fun _ =>
        .last reads_bool
  exact h

end Sdk

/-! ## Options and instructions -/

/-- An option whose value is present after every tag but zero. -/
inductive Presence (W : Type) where
  | absent
  | present (tag : UInt8) (set : tag ≠ 0) (w : W)

namespace Presence
variable {W : Type} [Borsh W]

instance : Borsh (Presence W) where
  serialize
    | .absent => serialize (0 : UInt8)
    | .present tag _ w => serialize tag ++ serialize w
  deserialize := do
    let tag : UInt8 ← deserialize
    if h : tag = 0 then pure .absent
    else do
      let w : W ← deserialize
      pure (.present tag h w)
  deserialize_iff := by
    intro bs a rest
    simp only [Decoder.bind_eq_some, Borsh.deserialize_iff]
    constructor
    · rintro ⟨tag, mid, rfl, h⟩
      split at h
      · rename_i htag
        obtain ⟨rfl, rfl⟩ := Decoder.pure_eq_some.mp h
        rw [htag]
      · simp only [Decoder.bind_eq_some, Borsh.deserialize_iff, Decoder.pure_eq_some] at h
        obtain ⟨w, _, rfl, rfl, rfl⟩ := h
        exact (List.append_assoc _ _ _).symm
    · rintro rfl
      cases a with
      | absent => exact ⟨0, rest, rfl, rfl⟩
      | present tag set w =>
          refine ⟨tag, serialize w ++ rest, List.append_assoc _ _ _, ?_⟩
          rw [dif_neg set]
          simp only [Decoder.bind_eq_some, Borsh.deserialize_iff, Decoder.pure_eq_some]
          exact ⟨w, rest, rfl, rfl, rfl⟩

/-- An option is read after any tag. -/
def layout {α σ : Type} [Borsh α] (l : Layout α σ) : Layout (Option α) (Option σ) where
  Wire := Presence l.Wire
  borsh := inferInstance
  wire
    | none => .absent
    | some a => .present 1 (by decide) (l.wire a)
  read
    | .absent => none
    | .present _ _ w => some (l.read w)
  view := Option.map l.view
  Strict
    | .absent => True
    | .present tag _ w => tag = 1 ∧ l.Strict w
  Plain
    | .absent => True
    | .present _ _ w => l.Plain w
  serialize_wire a := by
    cases a with
    | none => rfl
    | some a => exact congrArg (serialize (1 : UInt8) ++ ·) (l.serialize_wire a)
  strict_iff w := by
    cases w with
    | absent => exact ⟨fun _ => ⟨none, rfl⟩, fun _ => trivial⟩
    | present tag set w =>
        constructor
        · rintro ⟨rfl, h⟩
          obtain ⟨a, rfl⟩ := (l.strict_iff w).mp h
          exact ⟨some a, rfl⟩
        · rintro ⟨a, h⟩
          cases a with
          | none => exact nomatch h
          | some a =>
              cases h
              exact ⟨rfl, (l.strict_iff _).mpr ⟨a, rfl⟩⟩
  plain_iff a := by
    cases a with
    | none => exact ⟨fun _ => trivial, fun _ => rfl⟩
    | some a => exact (Option.some_inj).trans (l.plain_iff a)

end Presence

/-- What follows the variant byte in the SDK. -/
def Sdk.NameInstruction.Payload : NameInstruction.Kind → Type
  | .initializeRegistry => UInt32 × ArchAddress
  | .register => JsString × UInt64
  | .renew => Bytes 32 × UInt64
  | .transfer => Bytes 32 × ArchAddress
  | .setRecord => Bytes 32 × RecordType × Sdk.RecordValue × UInt64
  | .deleteRecord => Bytes 32 × RecordType × JsString × UInt64
  | .setPrimary => Bytes 32
  | .clearPrimary => Unit
  | .reclaimExpired => JsString × UInt64
  | .updateConfig => Option Bool × Option UInt64
  | .listName => Bytes 32 × QuoteCurrency × UInt64
  | .cancelListing => Bytes 32
  | .buyName => Bytes 32
  | .makeOffer => Bytes 32 × QuoteCurrency × UInt64
  | .cancelOffer => Bytes 32
  | .acceptOffer => Bytes 32 × ArchAddress

def Sdk.NameInstruction.fields : Sdk.NameInstruction ≃ Σ k, Sdk.NameInstruction.Payload k where
  toFun
    | .initializeRegistry n a => ⟨.initializeRegistry, (n, a)⟩
    | .register l d => ⟨.register, (l, d)⟩
    | .renew n d => ⟨.renew, (n, d)⟩
    | .transfer n o => ⟨.transfer, (n, o)⟩
    | .setRecord n t v r => ⟨.setRecord, (n, t, v, r)⟩
    | .deleteRecord n t k r => ⟨.deleteRecord, (n, t, k, r)⟩
    | .setPrimary n => ⟨.setPrimary, n⟩
    | .clearPrimary => ⟨.clearPrimary, ()⟩
    | .reclaimExpired l d => ⟨.reclaimExpired, (l, d)⟩
    | .updateConfig p g => ⟨.updateConfig, (p, g)⟩
    | .listName n c p => ⟨.listName, (n, c, p)⟩
    | .cancelListing n => ⟨.cancelListing, n⟩
    | .buyName n => ⟨.buyName, n⟩
    | .makeOffer n c p => ⟨.makeOffer, (n, c, p)⟩
    | .cancelOffer n => ⟨.cancelOffer, n⟩
    | .acceptOffer n b => ⟨.acceptOffer, (n, b)⟩
  invFun
    | ⟨.initializeRegistry, (n, a)⟩ => .initializeRegistry n a
    | ⟨.register, (l, d)⟩ => .register l d
    | ⟨.renew, (n, d)⟩ => .renew n d
    | ⟨.transfer, (n, o)⟩ => .transfer n o
    | ⟨.setRecord, (n, t, v, r)⟩ => .setRecord n t v r
    | ⟨.deleteRecord, (n, t, k, r)⟩ => .deleteRecord n t k r
    | ⟨.setPrimary, n⟩ => .setPrimary n
    | ⟨.clearPrimary, _⟩ => .clearPrimary
    | ⟨.reclaimExpired, (l, d)⟩ => .reclaimExpired l d
    | ⟨.updateConfig, (p, g)⟩ => .updateConfig p g
    | ⟨.listName, (n, c, p)⟩ => .listName n c p
    | ⟨.cancelListing, n⟩ => .cancelListing n
    | ⟨.buyName, n⟩ => .buyName n
    | ⟨.makeOffer, (n, c, p)⟩ => .makeOffer n c p
    | ⟨.cancelOffer, n⟩ => .cancelOffer n
    | ⟨.acceptOffer, (n, b)⟩ => .acceptOffer n b
  left_inv i := by cases i <;> rfl
  right_inv := by rintro ⟨k, p⟩; cases k <;> rfl

def NameInstruction.Payload.layout :
    ∀ k, Layout (NameInstruction.Payload k) (Sdk.NameInstruction.Payload k)
  | .initializeRegistry => same (UInt32 × ArchAddress)
  | .register => Str.layout.prod (same UInt64)
  | .renew => same (Bytes 32 × UInt64)
  | .transfer => same (Bytes 32 × ArchAddress)
  | .setRecord =>
      (same (Bytes 32)).prod <| (same RecordType).prod <| RecordValue.layout.prod (same UInt64)
  | .deleteRecord => (same (Bytes 32)).prod <| (same RecordType).prod <| Str.layout.prod (same UInt64)
  | .setPrimary => same (Bytes 32)
  | .clearPrimary => same Unit
  | .reclaimExpired => Str.layout.prod (same UInt64)
  | .updateConfig => (Presence.layout flag).prod (Presence.layout (same UInt64))
  | .listName => same (Bytes 32 × QuoteCurrency × UInt64)
  | .cancelListing => same (Bytes 32)
  | .buyName => same (Bytes 32)
  | .makeOffer => same (Bytes 32 × QuoteCurrency × UInt64)
  | .cancelOffer => same (Bytes 32)
  | .acceptOffer => same (Bytes 32 × ArchAddress)

theorem NameInstruction.fields_toSdk (i : NameInstruction) : Sdk.NameInstruction.fields i.toSdk =
    (Layout.sigma NameInstruction.Payload.layout).view (NameInstruction.fields i) := by
  cases i with
  | updateConfig paused gracePeriodSlots => cases paused <;> cases gracePeriodSlots <;> rfl
  | _ => rfl

def NameInstruction.layout : Layout NameInstruction Sdk.NameInstruction :=
  (Layout.sigma NameInstruction.Payload.layout).ofFields fields Sdk.NameInstruction.fields toSdk
    (fun _ => rfl) fields_toSdk

namespace Sdk
open BorshReader

theorem reads_option {α σ : Type} [Borsh α] (l : Layout α σ) {reader : BorshReader σ}
    (hreader : Reads reader l.read) : Reads (decodeOption reader) (Presence.layout l).read := by
  intro bs o rest
  unfold decodeOption
  rw [Reads.bind_ok]
  constructor
  · rintro ⟨tag, mid, htag, ho⟩
    obtain ⟨tag, rfl, rfl⟩ := (reads_u8 _ _ _).mp htag
    split at ho
    · rename_i hzero
      cases ho
      refine ⟨.absent, rfl, ?_⟩
      rw [id_eq] at hzero
      rw [hzero]
      rfl
    · rename_i hset
      obtain ⟨w, rfl, rfl⟩ := (Reads.last hreader _ _ _).mp ho
      exact ⟨.present tag hset w, rfl, (List.append_assoc _ _ _).symm⟩
  · rintro ⟨w, rfl, rfl⟩
    cases w with
    | absent => exact ⟨0, rest, (reads_u8 _ _ _).mpr ⟨0, rfl, rfl⟩, rfl⟩
    | present tag set w =>
        refine ⟨tag, serialize w ++ rest, ?_, ?_⟩
        · exact (reads_u8 _ _ _).mpr ⟨tag, rfl, List.append_assoc _ _ _⟩
        · rw [if_neg set]
          exact (Reads.last hreader _ _ _).mpr ⟨w, rfl, rfl⟩

theorem serialize_kind (k : NameInstruction.Kind) : serialize k = [UInt8.ofNat k.index.val] := rfl

theorem reads_instruction : Reads readInstruction NameInstruction.layout.read := by
  apply Reads.select (fun k (w : (NameInstruction.Payload.layout k).Wire) =>
    NameInstruction.layout.read ⟨k, w⟩) reads_u8 serialize_kind
  · intro k
    cases k with
    | initializeRegistry => exact .bind reads_u32 fun _ => .last reads_pubkey
    | register => exact .bind reads_string fun _ => .last reads_u64
    | renew => exact .bind reads_pubkey fun _ => .last reads_u64
    | transfer => exact .bind reads_pubkey fun _ => .last reads_pubkey
    | setRecord =>
        exact .bind reads_pubkey fun _ => .bind reads_recordType fun _ =>
          .bind reads_recordValue fun _ => .last reads_u64
    | deleteRecord =>
        exact .bind reads_pubkey fun _ => .bind reads_recordType fun _ =>
          .bind reads_string fun _ => .last reads_u64
    | setPrimary => exact .last reads_pubkey
    | clearPrimary => exact .pure _
    | reclaimExpired => exact .bind reads_string fun _ => .last reads_u64
    | updateConfig =>
        exact .bind (reads_option flag reads_bool) fun _ =>
          .last (reads_option (same UInt64) reads_u64)
    | listName =>
        exact .bind reads_pubkey fun _ => .bind reads_quoteCurrency fun _ => .last reads_u64
    | cancelListing => exact .last reads_pubkey
    | buyName => exact .last reads_pubkey
    | makeOffer =>
        exact .bind reads_pubkey fun _ => .bind reads_quoteCurrency fun _ => .last reads_u64
    | cancelOffer => exact .last reads_pubkey
    | acceptOffer => exact .bind reads_pubkey fun _ => .last reads_pubkey
  · intro b hb bs x
    split
    · exact absurd rfl (hb .initializeRegistry)
    · exact absurd rfl (hb .register)
    · exact absurd rfl (hb .renew)
    · exact absurd rfl (hb .transfer)
    · exact absurd rfl (hb .setRecord)
    · exact absurd rfl (hb .deleteRecord)
    · exact absurd rfl (hb .setPrimary)
    · exact absurd rfl (hb .clearPrimary)
    · exact absurd rfl (hb .reclaimExpired)
    · exact absurd rfl (hb .updateConfig)
    · exact absurd rfl (hb .listName)
    · exact absurd rfl (hb .cancelListing)
    · exact absurd rfl (hb .buyName)
    · exact absurd rfl (hb .makeOffer)
    · exact absurd rfl (hb .cancelOffer)
    · exact absurd rfl (hb .acceptOffer)
    · exact nofun

/-! ## Whole inputs -/

/-- A decoder that reads its whole input. -/
theorem finish_ok {σ W : Type} [Borsh W] {reader : BorshReader σ} {read : W → σ}
    (hreader : Reads reader read) (bytes : List UInt8) (s : σ) :
    finish reader bytes = .ok s ↔ ∃ w, read w = s ∧ bytes = serialize w := by
  have hfinish : finish reader bytes = .ok s ↔ reader bytes = .ok (s, []) := by
    unfold finish
    change (reader bytes >>= _) = _ ↔ _
    cases reader bytes with
    | error e => exact ⟨fun h => (nomatch h), fun h => (nomatch h)⟩
    | ok x =>
        obtain ⟨value, rest⟩ := x
        cases rest with
        | nil =>
            constructor
            · intro h
              cases h
              rfl
            · intro h
              cases h
              rfl
        | cons b rest => exact ⟨fun h => (nomatch h), fun h => (nomatch h)⟩
  rw [hfinish, hreader bytes s []]
  simp only [List.append_nil]

end Sdk

/-! ## Writers of the accounts -/

section Writers
open Sdk Sdk.BorshWriter

theorem encodeHeader_eq (header : AccountHeader) : encodeHeader header = serialize header := by
  rw [encodeHeader, bytes_eq, bool_eq, u16_eq, List.append_assoc]
  rfl

theorem encodeBitcoinNetwork_eq (network : BitcoinNetwork) :
    encodeBitcoinNetwork network = serialize network := by cases network <;> rfl

theorem encodeQuoteCurrency_eq (currency : QuoteCurrency) :
    encodeQuoteCurrency currency = serialize currency := by cases currency <;> rfl

theorem encodeTokenPrograms_eq (programs : List TokenProgramConfig) :
    programs.flatMap encodeTokenProgram = Borsh.serializeAll programs := by
  induction programs with
  | nil => rfl
  | cons program programs ih =>
      rw [List.flatMap_cons, ih]
      rfl

theorem encodeRecordValue_eq (value : RecordValue) :
    encodeRecordValue value.toSdk = serialize value := by
  cases value with
  | archOwner owner => rfl
  | bitcoinTaproot witnessProgram => rfl
  | tokenAta tokenId ata =>
      exact List.append_assoc _ _ _
  | text key value =>
      change u8 3 ++ string (JsString.ofUtf8 key.bytes) ++ string (JsString.ofUtf8 value.bytes) = _
      rw [string_eq, string_eq, List.append_assoc]
      rfl

theorem encodeRegistryConfig_eq (config : RegistryConfig) :
    encodeRegistryConfig config.toSdk = serialize config := by
  rw [encodeRegistryConfig]
  simp only [RegistryConfig.toSdk, encodeHeader_eq, u16_eq, u32_eq, string_eq, pubkey_eq, u64_eq,
    encodeBitcoinNetwork_eq, encodeTokenPrograms_eq, bool_eq, List.append_assoc]
  rfl

theorem encodeNameAccount_eq (name : NameAccount) :
    encodeNameAccount name.toSdk = serialize name := by
  rw [encodeNameAccount]
  simp only [NameAccount.toSdk, encodeHeader_eq, string_eq, pubkey_eq, u64_eq, List.append_assoc]
  rfl

theorem encodeRecordAccount_eq (record : RecordAccount) :
    encodeRecordAccount record.toSdk = serialize record := by
  rw [encodeRecordAccount]
  simp only [RecordAccount.toSdk, encodeHeader_eq, encodeRecordType_eq, encodeRecordValue_eq,
    pubkey_eq, u64_eq, List.append_assoc]
  rfl

theorem encodeReverseAccount_eq (reverse : ReverseAccount) :
    encodeReverseAccount reverse = serialize reverse := by
  rw [encodeReverseAccount]
  simp only [encodeHeader_eq, pubkey_eq, u64_eq, List.append_assoc]
  rfl

theorem encodeListingAccount_eq (listing : ListingAccount) :
    encodeListingAccount listing = serialize listing := by
  rw [encodeListingAccount]
  simp only [encodeHeader_eq, pubkey_eq, encodeQuoteCurrency_eq, u64_eq, bool_eq, List.append_assoc]
  rfl

theorem encodeOfferAccount_eq (offer : OfferAccount) :
    encodeOfferAccount offer = serialize offer := by
  rw [encodeOfferAccount]
  simp only [encodeHeader_eq, pubkey_eq, encodeQuoteCurrency_eq, u64_eq, bool_eq, List.append_assoc]
  rfl

theorem encodeOption_eq {α : Type} [Borsh α] {write : α → List UInt8}
    (hwrite : ∀ a, write a = serialize a) (o : Option α) : encodeOption write o = serialize o := by
  cases o with
  | none => rfl
  | some a => exact congrArg (u8 1 ++ ·) (hwrite a)

theorem encodeInstruction_eq (instruction : NameInstruction) :
    encodeInstruction instruction.toSdk = serialize instruction := by
  cases instruction <;>
    simp only [NameInstruction.toSdk, encodeInstruction, u32_eq, string_eq, pubkey_eq, u64_eq,
      encodeRecordType_eq, encodeRecordValue_eq, encodeQuoteCurrency_eq, encodeOptionBool,
      encodeOptionU64, encodeOption_eq bool_eq, encodeOption_eq u64_eq, List.append_assoc] <;>
    rfl

end Writers

/-! ## Headers -/

theorem validateHeader_ok {header : AccountHeader} {discriminator : Bytes 8} {u : Unit} :
    Sdk.validateHeader header discriminator = .ok u ↔ header.validate discriminator = .ok u := by
  unfold Sdk.validateHeader AccountHeader.validate
  split
  · exact ⟨fun h => (nomatch h), fun h => (nomatch h)⟩
  · split
    · exact ⟨fun h => (nomatch h), fun h => (nomatch h)⟩
    · exact ⟨fun _ => rfl, fun _ => rfl⟩

end ArchNameService
