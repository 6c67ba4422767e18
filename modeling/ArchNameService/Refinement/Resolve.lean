import ArchNameService.Refinement.Codec
import ArchNameService.Sdk.Resolve

/-!
# The resolvers of the SDK and of the protocol

Each function of the SDK accepts the text of the wire exactly where the function of
the protocol crate accepts its bytes: only ASCII passes the checks, and there a
string has one code unit for each byte.
-/

namespace ArchNameService

namespace Sdk
open JsString
open Borsh (serialize Str)

/-! ## Names -/

section Names
variable {label : List UInt8}

theorem includes_hyphens (bytes : List UInt8) :
    includes (text "--") (ofAscii bytes) = hasDoubleHyphen bytes := by
  induction bytes using hasDoubleHyphen.induct with
  | case1 a b rest ih =>
      have hunit : ∀ c : UInt8, ((0x2D : UInt16) == c.toUInt16) = (c == 0x2D) := by
        intro c
        rw [Bool.eq_iff_iff, beq_iff_eq, beq_iff_eq]
        exact (UInt8.toUInt16_inj (a := 0x2D)).trans eq_comm
      change (((0x2D : UInt16) == a.toUInt16 && ((0x2D : UInt16) == b.toUInt16 && true)) ||
        includes (text "--") (ofAscii (b :: rest))) = _
      rw [ih, hunit, hunit, Bool.and_true, hasDoubleHyphen]
  | case2 bytes hshort =>
      cases bytes with
      | nil => rfl
      | cons a bytes =>
          cases bytes with
          | nil => 
              change (((0x2D : UInt16) == a.toUInt16 && false) || false) = false
              rw [Bool.and_false, Bool.or_false]
          | cons b rest => exact absurd rfl (hshort a b rest)

theorem prefix_hyphen : text "-" = ofAscii [0x2D] := rfl

/-- Label characters, as the two sides test them. -/
theorem label_characters (bytes : List UInt8) :
    (bytes.any fun byte => !(0x61 ≤ byte && byte ≤ 0x7A) && !(0x30 ≤ byte && byte ≤ 0x39) &&
      byte != 0x2D) = !(bytes.all fun b => isAsciiLowercase b || isAsciiDigit b || b == 0x2D) := by
  rw [List.not_all_eq_any_not]
  congr 1
  funext b
  rw [Bool.not_or, Bool.not_or]
  rfl

theorem validateLabel_iff (hutf8 : validUtf8 label = true) :
    validateLabel (ofUtf8 label) = .ok () ↔ ArchNameService.validateLabel label = .ok () := by
  by_cases hascii : ∀ b ∈ label, b < 0x80
  · have hlength : (ofAscii label).length = label.length := List.length_map _
    have hhead : [0x2D] <+: label ↔ label.head? = some 0x2D := by
      rw [List.head?_eq_some_iff]
      exact ⟨fun ⟨rest, h⟩ => ⟨rest, h.symm⟩, fun ⟨rest, h⟩ => ⟨rest, h.symm⟩⟩
    have hlast : [0x2D] <:+ label ↔ label.getLast? = some 0x2D := by
      rw [List.getLast?_eq_some_iff]
      exact ⟨fun ⟨front, h⟩ => ⟨front, h.symm⟩, fun ⟨front, h⟩ => ⟨front, h.symm⟩⟩
    have hbounds : label.length < 1 ∨ 63 < label.length ↔
        ¬ (1 ≤ label.length ∧ label.length ≤ 63) := by omega
    simp only [validateLabel, ArchNameService.validateLabel, Outcome.bind_ok, Outcome.reject_ok,
      ofUtf8_ascii hascii, encode_ofAscii hascii, label_characters, prefix_hyphen,
      startsWith_ofAscii, endsWith_ofAscii, includes_hyphens, hlength, hhead, hlast, hbounds,
      Bool.not_eq_true', Bool.not_eq_true, Bool.not_eq_false]
  · constructor
    · intro h
      simp only [validateLabel, Outcome.bind_ok, Outcome.reject_ok, encode_ofUtf8 hutf8,
        label_characters, Bool.not_eq_true', Bool.not_eq_false] at h
      obtain ⟨-, -, -, -, hall⟩ := h
      exact absurd (characters_ascii hall) hascii
    · intro h
      exact absurd (validateLabel_ascii h) hascii

theorem archSuffix_eq : archSuffix = ofAscii ArchNameService.archSuffix := rfl

/-- A character of a name is not white space, and case folding leaves it. -/
theorem name_unit {b : UInt8}
    (h : (isAsciiLowercase b || isAsciiDigit b || b == 0x2D) = true ∨ b = 0x2E) :
    isSpace b.toUInt16 = false ∧ lowerAscii b.toUInt16 = b.toUInt16 := by
  have hb : 0x2D ≤ b.toNat ∧ b.toNat ≤ 0x7A ∧ ¬ (0x41 ≤ b.toNat ∧ b.toNat ≤ 0x5A) := by
    simp only [isAsciiLowercase, isAsciiDigit, Bool.or_eq_true, Bool.and_eq_true,
      decide_eq_true_eq, beq_iff_eq, UInt8.le_iff_toNat_le, ← UInt8.toNat_inj,
      UInt8.reduceToNat] at h
    omega
  constructor
  · simp only [isSpace, Bool.or_eq_false_iff, Bool.and_eq_false_iff, decide_eq_false_iff_not,
      beq_eq_false_iff_ne, Ne, UInt16.le_iff_toNat_le, ← UInt16.toNat_inj, UInt8.toNat_toUInt16,
      UInt16.reduceToNat]
    omega
  · apply if_neg
    simp only [Bool.and_eq_true, decide_eq_true_eq, UInt16.le_iff_toNat_le, UInt8.toNat_toUInt16,
      UInt16.reduceToNat]
    exact hb.2.2

/-- A canonical name is not changed by trimming and case folding. -/
theorem canonical_normalized [Platform] (h : ArchNameService.validateLabel label = .ok ()) :
    toLowerCase (ofAscii (label ++ ArchNameService.archSuffix)).trim =
      ofAscii (label ++ ArchNameService.archSuffix) := by
  have hsuffix : ∀ b ∈ ArchNameService.archSuffix,
      (isAsciiLowercase b || isAsciiDigit b || b == 0x2D) = true ∨ b = 0x2E := by decide +kernel
  have hunits : ∀ b ∈ label ++ ArchNameService.archSuffix,
      isSpace b.toUInt16 = false ∧ lowerAscii b.toUInt16 = b.toUInt16 := by
    intro b hb
    apply name_unit
    rcases List.mem_append.mp hb with hb | hb
    · exact .inl (List.all_eq_true.mp (validateLabel_characters h) b hb)
    · exact hsuffix b hb
  have htrim : (ofAscii (label ++ ArchNameService.archSuffix)).trim =
      ofAscii (label ++ ArchNameService.archSuffix) := by
    apply trim_eq_self
    intro u hu
    obtain ⟨b, hb, rfl⟩ := List.mem_map.mp hu
    exact (hunits b hb).1
  have hascii : (ofAscii (label ++ ArchNameService.archSuffix)).all (· < 0x80) = true := by
    rw [List.all_eq_true]
    intro u hu
    obtain ⟨b, hb, rfl⟩ := List.mem_map.mp hu
    rw [decide_eq_true_eq]
    exact (UInt8.toUInt16_lt (b := 0x80)).mpr (canonical_ascii h b hb)
  rw [htrim, toLowerCase, if_pos hascii, ofAscii, List.map_map]
  exact List.map_congr_left fun b hb => (hunits b hb).2

/-- The label of a canonical name. -/
theorem dropEnd_canonical : dropEnd archSuffix.length (ofAscii (label ++ ArchNameService.archSuffix)) =
    ofAscii label := by
  rw [dropEnd, ofAscii, List.length_map, List.length_append]
  change (List.map _ _).take (label.length + 5 - 5) = _
  rw [Nat.add_sub_cancel, List.map_append]
  exact List.take_left' (List.length_map _)

/-- A canonical name is its own canonical form. -/
theorem canonicalizeName_label [Platform] (h : ArchNameService.validateLabel label = .ok ()) :
    canonicalizeName (ofAscii (label ++ ArchNameService.archSuffix)) =
      .ok (ofAscii (label ++ ArchNameService.archSuffix)) := by
  have hascii := validateLabel_ascii h
  have hend : endsWith archSuffix (ofAscii (label ++ ArchNameService.archSuffix)) = true :=
    endsWith_ofAscii.mpr (List.suffix_append ..)
  have hlabel : validateLabel (ofAscii label) = .ok () := by
    rw [← ofUtf8_ascii hascii]
    exact (validateLabel_iff (validUtf8_of_ascii hascii)).mpr h
  simp only [canonicalizeName, canonical_normalized h, dropEnd_canonical, Outcome.bind_ok,
    Outcome.reject_ok, Outcome.pure_ok, not_not]
  exact ⟨(), hend, (), hlabel, (List.map_append ..).symm⟩

/-- A label that the SDK accepts is the string of one that the protocol accepts. -/
theorem validateLabel_ok {s : JsString} :
    validateLabel s = .ok () ↔
      ∃ label, ArchNameService.validateLabel label = .ok () ∧ s = ofAscii label := by
  constructor
  · intro h
    have hall : ∀ b ∈ s.encode, b < 0x80 := by
      simp only [validateLabel, Outcome.bind_ok, Outcome.reject_ok, label_characters,
        Bool.not_eq_true', Bool.not_eq_false] at h
      obtain ⟨-, -, -, -, hall⟩ := h
      exact characters_ascii hall
    have hs := ofAscii_encode hall
    refine ⟨s.encode, ?_, hs.symm⟩
    rw [← validateLabel_iff (validUtf8_of_ascii hall), ofUtf8_ascii hall, hs]
    exact h
  · rintro ⟨label, h, rfl⟩
    have hascii := validateLabel_ascii h
    rw [← ofUtf8_ascii hascii]
    exact (validateLabel_iff (validUtf8_of_ascii hascii)).mpr h

/-- What the SDK makes of a name is canonical. -/
theorem canonicalizeName_ok [Platform] {s canonical : JsString}
    (h : canonicalizeName s = .ok canonical) :
    ∃ label, ArchNameService.validateLabel label = .ok () ∧
      canonical = ofAscii (label ++ ArchNameService.archSuffix) := by
  simp only [canonicalizeName, Outcome.bind_ok, Outcome.pure_ok] at h
  obtain ⟨-, -, _, hlabel, rfl⟩ := h
  obtain ⟨label, hlabel, hs⟩ := validateLabel_ok.mp hlabel
  refine ⟨label, hlabel, ?_⟩
  rw [hs, ofAscii, ofAscii, List.map_append]
  rfl

end Names

/-! ## Hashes and addresses -/

section Addresses
variable [Crypto] (programId : ArchAddress) (ns : Str) (nameHash : Bytes 32)

theorem namespaceHash_eq : namespaceHash (ofUtf8 ns.bytes) = ArchNameService.namespaceHash ns.bytes := by
  rw [namespaceHash, encode_ofUtf8 ns.utf8]
  rfl

theorem recordKeyHash_eq (key : Str) :
    recordKeyHash (ofUtf8 key.bytes) = ArchNameService.recordKeyHash key.bytes := by
  rw [recordKeyHash, encode_ofUtf8 key.utf8]
  rfl

theorem nameHash_label [Platform] {label : List UInt8}
    (h : ArchNameService.validateLabel label = .ok ()) :
    Sdk.nameHash (ofAscii (label ++ ArchNameService.archSuffix)) = .ok (labelHash label) := by
  rw [Sdk.nameHash, canonicalizeName_label h]
  change Except.ok (hashName _) = _
  rw [hashName, encode_ofAscii (canonical_ascii h)]
  rfl

theorem deriveConfigAddress_eq (networkId : UInt32) :
    deriveConfigAddress programId networkId (ofUtf8 ns.bytes) =
      ArchNameService.deriveConfigAddress programId networkId ns.bytes := by
  rw [deriveConfigAddress, namespaceHash_eq]
  rfl

theorem deriveNameAddress_eq :
    deriveNameAddress programId (ofUtf8 ns.bytes) nameHash =
      ArchNameService.deriveNameAddress programId ns.bytes nameHash := by
  rw [deriveNameAddress, namespaceHash_eq]
  rfl

theorem deriveReverseAddress_eq (owner : ArchAddress) :
    deriveReverseAddress programId (ofUtf8 ns.bytes) owner.toList =
      ArchNameService.deriveReverseAddress programId ns.bytes owner := by
  rw [deriveReverseAddress, namespaceHash_eq]
  rfl

theorem deriveRecordAddress_eq (recordType : RecordType) :
    deriveRecordAddress programId (ofUtf8 ns.bytes) nameHash recordType =
      ArchNameService.deriveRecordAddress programId ns.bytes nameHash recordType := by
  rw [deriveRecordAddress, namespaceHash_eq]
  rfl

theorem deriveTextRecordAddress_eq (key : Str) :
    deriveTextRecordAddress programId (ofUtf8 ns.bytes) nameHash (ofUtf8 key.bytes) =
      ArchNameService.deriveTextRecordAddress programId ns.bytes nameHash key.bytes := by
  rw [deriveTextRecordAddress, namespaceHash_eq, recordKeyHash_eq]
  rfl

end Addresses

/-! ## Text -/

section Text
variable {bytes : List UInt8}

theorem isTextKeyUnit_toUInt16 (b : UInt8) :
    isTextKeyUnit b.toUInt16 =
      (isAsciiLowercase b || isAsciiDigit b || b == 0x5F || b == 0x2D) := by
  rw [Bool.eq_iff_iff]
  simp only [isTextKeyUnit, isAsciiLowercase, isAsciiDigit, Bool.or_eq_true, Bool.and_eq_true,
    decide_eq_true_eq, beq_iff_eq, UInt16.le_iff_toNat_le, UInt8.le_iff_toNat_le,
    ← UInt16.toNat_inj, ← UInt8.toNat_inj, UInt8.toNat_toUInt16, UInt16.reduceToNat,
    UInt8.reduceToNat]

theorem isTextKeyUnit_ascii {u : UInt16} (h : isTextKeyUnit u = true) : u < 0x80 := by
  simp only [isTextKeyUnit, Bool.or_eq_true, Bool.and_eq_true, decide_eq_true_eq, beq_iff_eq,
    UInt16.le_iff_toNat_le, UInt16.lt_iff_toNat_lt, ← UInt16.toNat_inj, UInt16.reduceToNat] at h ⊢
  omega

/-- A surrogate is not ASCII. -/
theorem isTextKeyUnit_surrogate {u : UInt16} (h : 0xD800 ≤ u.toNat) : isTextKeyUnit u = false := by
  rw [Bool.eq_false_iff]
  intro hunit
  have hlt := UInt16.lt_iff_toNat_lt.mp (isTextKeyUnit_ascii hunit)
  exact absurd (Nat.lt_of_le_of_lt h hlt) (by decide)

theorem textKey_characters (s : JsString) :
    (s.characters.all fun c => c.any isTextKeyUnit) = s.all isTextKeyUnit := by
  apply characters_all
  · intro u hu
    exact isTextKeyUnit_surrogate (isHighSurrogate_iff.mp hu).1
  · intro u hu
    exact isTextKeyUnit_surrogate (Nat.le_trans (by decide) (isLowSurrogate_iff.mp hu).1)

theorem ofUtf8_eq_nil (hutf8 : validUtf8 bytes = true) : ofUtf8 bytes = [] ↔ bytes = [] :=
  have hempty : validUtf8 [] = true := rfl
  ofUtf8_inj hutf8 hempty

theorem validateTextKey_iff (hutf8 : validUtf8 bytes = true) :
    validateTextKey (ofUtf8 bytes) = .ok () ↔ ArchNameService.validateTextKey bytes = .ok () := by
  simp only [validateTextKey, ArchNameService.validateTextKey, Outcome.bind_ok, Outcome.reject_ok,
    textKey_characters, ofUtf8_eq_nil hutf8, List.isEmpty_iff, not_not]
  by_cases hascii : ∀ b ∈ bytes, b < 0x80
  · have hlength : (ofAscii bytes).length = bytes.length := List.length_map _
    have hall : (ofAscii bytes).all isTextKeyUnit = bytes.all fun b =>
        isAsciiLowercase b || isAsciiDigit b || b == 0x5F || b == 0x2D := by
      rw [ofAscii, List.all_map]
      exact congrArg (List.all bytes) (funext isTextKeyUnit_toUInt16)
    rw [ofUtf8_ascii hascii, hlength, hall]
    rfl
  · constructor
    · rintro ⟨_, -, hall⟩
      have hunits : ∀ u ∈ ofUtf8 bytes, u < 0x80 := fun u hu =>
        isTextKeyUnit_ascii (List.all_eq_true.mp hall u hu)
      exact absurd (ascii_of_units hutf8 hunits) hascii
    · rintro ⟨_, -, hall⟩
      have hbytes : ∀ b ∈ bytes, b < 0x80 := by
        intro b hb
        apply (UInt8.toUInt16_lt (b := 0x80)).mp
        apply isTextKeyUnit_ascii
        rw [isTextKeyUnit_toUInt16]
        exact List.all_eq_true.mp hall b hb
      exact absurd hbytes hascii

/-- The characters of a value, as the two sides test an ASCII byte. -/
theorem valueUnit_toUInt16 {b : UInt8} (h : b < 0x80) :
    (b.toUInt16 < 0x20 || 0x7E < b.toUInt16 : Bool) = (b < 0x20 || b == 0x7F : Bool) := by
  have hlt : b.toNat < 0x80 := UInt8.lt_iff_toNat_lt.mp h
  rw [Bool.eq_iff_iff]
  simp only [Bool.or_eq_true, decide_eq_true_eq, beq_iff_eq, UInt16.lt_iff_toNat_lt,
    UInt8.lt_iff_toNat_lt, ← UInt8.toNat_inj, UInt8.toNat_toUInt16, UInt16.reduceToNat,
    UInt8.reduceToNat]
  omega

theorem validateTextValue_iff (hutf8 : validUtf8 bytes = true) :
    validateTextValue (ofUtf8 bytes) = .ok () ↔ ArchNameService.validateTextValue bytes = .ok () := by
  simp only [validateTextValue, ArchNameService.validateTextValue, Outcome.bind_ok,
    Outcome.reject_ok, ofUtf8_eq_nil hutf8, List.isEmpty_iff, not_or, not_not]
  by_cases hascii : ∀ b ∈ bytes, b < 0x80
  · have hlength : (ofAscii bytes).length = bytes.length := List.length_map _
    have hany : (ofAscii bytes).any (fun code => code < 0x20 || 0x7E < code) =
        bytes.any fun b => b < 0x20 || b == 0x7F := by
      have hmap := List.map_congr_left fun b hb => valueUnit_toUInt16 (hascii b hb)
      have hany := congrArg (List.any · id) hmap
      rw [List.any_map, List.any_map] at hany
      rw [ofAscii, List.any_map]
      exact hany
    have hall : bytes.all (fun b => decide (b < 0x80)) = true :=
      List.all_eq_true.mpr fun b hb => decide_eq_true (hascii b hb)
    rw [ofUtf8_ascii hascii, hlength, hany, hall]
    simp only [true_and]
    rfl
  · constructor
    · rintro ⟨_, -, hany⟩
      have hunits : ∀ u ∈ ofUtf8 bytes, u < 0x80 := by
        intro u hu
        have hu := List.any_eq_false.mp (Bool.eq_false_iff.mpr hany) u hu
        simp only [Bool.or_eq_true, decide_eq_true_eq, not_or, UInt16.lt_iff_toNat_lt,
          UInt16.reduceToNat] at hu
        have hle : u.toNat ≤ 0x7E := Nat.not_lt.mp hu.2
        exact UInt16.lt_iff_toNat_lt.mpr (Nat.lt_of_le_of_lt hle (by decide))
      exact absurd (ascii_of_units hutf8 hunits) hascii
    · rintro ⟨_, -, hall, -⟩
      exact absurd (fun b hb => of_decide_eq_true (List.all_eq_true.mp hall b hb)) hascii

end Text

/-! ## Record values -/

/-- The two libraries write a Taproot output as the same address. -/
def SameAddresses [Crypto] [Platform] : Prop := ∀ (witnessProgram : Bytes 32) (network : BitcoinNetwork),
  (Platform.bech32mEncode (hrp network) (1 :: Platform.bech32mToWords witnessProgram.toList)).toOption =
    (Crypto.taprootAddress witnessProgram network).map ofAscii

section RecordValues
variable [Crypto]

theorem validateTokenAta_iff (owner tokenId ata : ArchAddress) (programs : List TokenProgramConfig) :
    validateTokenAta owner tokenId ata programs = .ok () ↔
      ArchNameService.validateTokenAta owner tokenId ata programs = .ok () := by
  induction programs with
  | nil => exact ⟨fun h => (nomatch h), fun h => (nomatch h)⟩
  | cons program programs ih =>
      have hderive : deriveTokenAta owner tokenId program.tokenProgramId
          program.associatedTokenProgramId =
          ArchNameService.deriveTokenAta owner tokenId program := rfl
      rw [validateTokenAta, ArchNameService.validateTokenAta, hderive]
      split
      · exact ⟨fun _ => rfl, fun _ => rfl⟩
      · exact ih

variable [Platform]

theorem encodeTaprootAddress_iff (hlibraries : SameAddresses) (witnessProgram : Bytes 32)
    (network : BitcoinNetwork) :
    (∃ address, encodeTaprootAddress witnessProgram network = .ok address) ↔
      ∃ address, ArchNameService.encodeTaprootAddress witnessProgram network = .ok address := by
  have hsame := hlibraries witnessProgram network
  simp only [ArchNameService.encodeTaprootAddress, Outcome.orElseError_ok]
  constructor
  · rintro ⟨address, h⟩
    rw [encodeTaprootAddress] at h
    rw [h] at hsame
    obtain ⟨bytes, hbytes, -⟩ := Option.map_eq_some_iff.mp hsame.symm
    exact ⟨bytes, hbytes⟩
  · rintro ⟨bytes, h⟩
    rw [h] at hsame
    exact ⟨ofAscii bytes, Outcome.toOption_eq_some.mp hsame⟩

theorem validateRecordValue_iff (hlibraries : SameAddresses) (config : ArchNameService.RegistryConfig)
    (name : ArchNameService.NameAccount) (recordType : RecordType)
    (value : ArchNameService.RecordValue) :
    validateRecordValue config.toSdk name.toSdk recordType value.toSdk = .ok () ↔
      ArchNameService.validateRecordValue config name recordType value = .ok () := by
  have hkind : value.toSdk.kind = value.recordType := by cases value <;> rfl
  have hlimit : maxRecordValueLen recordType = ArchNameService.maxRecordValueLen recordType := by
    cases recordType <;> rfl
  simp only [validateRecordValue, ArchNameService.validateRecordValue, Outcome.bind_ok,
    Outcome.reject_ok, hkind, hlimit, encodeRecordValue_eq]
  refine exists_congr fun _ => and_congr_right fun _ => exists_congr fun _ => and_congr_right fun _ => ?_
  cases value with
  | archOwner owner => exact Outcome.reject_ok.trans Outcome.reject_ok.symm
  | bitcoinTaproot witnessProgram =>
      simp only [RecordValue.toSdk, Outcome.bind_ok, Outcome.pure_ok, and_true]
      exact encodeTaprootAddress_iff hlibraries witnessProgram config.bitcoinNetwork
  | tokenAta tokenId ata => exact validateTokenAta_iff ..
  | text key value =>
      simp only [RecordValue.toSdk, Outcome.bind_ok]
      exact exists_congr fun _ => and_congr (validateTextKey_iff key.utf8)
        (validateTextValue_iff value.utf8)

end RecordValues

end Sdk

end ArchNameService
