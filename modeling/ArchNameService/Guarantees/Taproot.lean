import ArchNameService.Lib.Bech32
import ArchNameService.Guarantees.Resolvers
import ArchNameService.Sdk.Taproot

/-!
# Taproot addresses are read as they are written

Both sides read exactly the addresses that they write. What the SDK refuses it
refuses with its own error, but for addresses whose last words cannot be regrouped.
-/

namespace ArchNameService
open JsString

/-! ## What the libraries are relied on for -/

/-- `bech32m` reads what it writes. -/
structure Sdk.Bech32m.Inverse [Sdk.Bech32m] : Prop where
  decode : ∀ network words address,
    Sdk.Platform.bech32mEncode (Sdk.hrp network) words = .ok address →
      Sdk.Bech32m.decode address = some (Sdk.hrp network, words)
  fromWords : ∀ bytes, Sdk.Bech32m.fromWords (Sdk.Platform.bech32mToWords bytes) = .ok bytes

/-- The `bitcoin` crate reads what it writes, and writes an address by its network, version and
program. -/
structure Addresses.Inverse [Addresses] : Prop where
  reads : ∀ witnessProgram network, ∃ text address checked,
    Crypto.taprootAddress witnessProgram network = some text ∧ (∀ b ∈ text, b < 0x80) ∧
      Addresses.fromStr text = some address ∧
      Addresses.requireNetwork address (bitcoinNetwork network) = some checked ∧
      Addresses.addressType checked = some .p2tr ∧ Addresses.toText checked = text ∧
      Addresses.witnessProgram checked = some (1, witnessProgram.toList)
  writes : ∀ address checked network (witnessProgram : Bytes 32),
    Addresses.requireNetwork address (bitcoinNetwork network) = some checked →
      Addresses.witnessProgram checked = some (1, witnessProgram.toList) →
        Crypto.taprootAddress witnessProgram network = some (Addresses.toText checked)

/-- The address decodes under the prefix of the network with the first version, but its other
words are not those of bytes. -/
def PaddingThrows [Sdk.Bech32m] (address : JsString) (network : BitcoinNetwork) : Prop :=
  ∃ words message, Sdk.Bech32m.decode address = some (Sdk.hrp network, 1 :: words) ∧
    Sdk.Bech32m.fromWords words = .error message

/-- Parsing is the inverse of encoding at an address, on both sides. -/
structure TaprootExact [Sdk.Bech32m] [Addresses] (address : JsString) (network : BitcoinNetwork) :
    Prop where
  parses : ∀ witnessProgram,
    Sdk.parseTaprootAddress address network = .ok (.bitcoinTaproot witnessProgram) ↔
      Sdk.encodeTaprootAddress witnessProgram network = .ok address
  refuses : (∀ witnessProgram, Sdk.encodeTaprootAddress witnessProgram network ≠ .ok address) →
    Sdk.parseTaprootAddress address network = .error (.ansError .invalidTaprootAddress none)
  /-- The crate reads the same program from the same text, where that is text to it. -/
  crateParses : ∀ text, validUtf8 text = true → ofUtf8 text = address → ∀ witnessProgram,
    parseTaprootAddress text network = .ok (.bitcoinTaproot witnessProgram) ↔
      Sdk.encodeTaprootAddress witnessProgram network = .ok address
  crateRefuses : ∀ text, validUtf8 text = true → ofUtf8 text = address →
    (∀ witnessProgram, Sdk.encodeTaprootAddress witnessProgram network ≠ .ok address) →
      parseTaprootAddress text network = .error .invalidTaprootAddress
  roundTrip : ∀ witnessProgram, ∃ text,
    encodeTaprootAddress witnessProgram network = .ok text ∧
      parseTaprootAddress text network = .ok (.bitcoinTaproot witnessProgram) ∧
      Sdk.encodeTaprootAddress witnessProgram network = .ok (ofAscii text) ∧
      Sdk.parseTaprootAddress (ofAscii text) network = .ok (.bitcoinTaproot witnessProgram)

/-! ## The SDK -/

section Sdk
variable [Sdk.Bech32m]

namespace Sdk

/-- What is parsed is what encodes to the address. -/
theorem parseTaprootAddress_iff (hinverse : Bech32m.Inverse) {address : JsString}
    {network : BitcoinNetwork} {witnessProgram : Bytes 32} :
    parseTaprootAddress address network = .ok (.bitcoinTaproot witnessProgram) ↔
      encodeTaprootAddress witnessProgram network = .ok address := by
  constructor
  · intro h
    simp only [parseTaprootAddress, Outcome.bind_ok, Outcome.reject_ok, Outcome.pure_ok,
      RecordValue.bitcoinTaproot.injEq] at h
    obtain ⟨_, -, _, -, _, -, program, -, canonical, hcanonical, _, hsame, rfl⟩ := h
    rw [not_not] at hsame
    rw [hcanonical, hsame]
  · intro h
    have hdecode := hinverse.decode _ _ _ h
    simp only [parseTaprootAddress, Outcome.bind_ok, Outcome.reject_ok, Outcome.pure_ok,
      Outcome.orElseError_ok, Outcome.mapError_ok]
    refine ⟨_, hdecode, (), ?_, _, hinverse.fromWords _, witnessProgram,
      Bytes.ofList?_eq_some.mpr rfl, address, h, (), not_not.mpr rfl, rfl⟩
    rintro (hne | hne)
    · exact hne rfl
    · exact hne rfl

theorem parseTaprootAddress_kind {address : JsString} {network : BitcoinNetwork}
    {value : RecordValue} (h : parseTaprootAddress address network = .ok value) :
    ∃ witnessProgram, value = .bitcoinTaproot witnessProgram := by
  simp only [parseTaprootAddress, Outcome.bind_ok, Outcome.pure_ok] at h
  obtain ⟨_, -, _, -, _, -, program, -, _, -, _, -, rfl⟩ := h
  exact ⟨program, rfl⟩

theorem paddingThrows_throws {address : JsString} {network : BitcoinNetwork}
    (h : PaddingThrows address network) :
    ∃ message, parseTaprootAddress address network = .error (.error message) := by
  obtain ⟨words, message, hdecode, hfromWords⟩ := h
  refine ⟨message, ?_⟩
  simp only [parseTaprootAddress, Outcome.bind_error, Outcome.orElseError_ok, Outcome.reject_ok,
    Outcome.mapError_error]
  refine .inr ⟨_, hdecode, .inr ⟨(), ?_, .inl ⟨message, hfromWords, rfl⟩⟩⟩
  rintro (hne | hne)
  · exact hne rfl
  · exact hne rfl

/-- Where the words can be regrouped, what is thrown is the error of the SDK. -/
theorem parseTaprootAddress_error {address : JsString} {network : BitcoinNetwork} {e : Thrown}
    (hencodes : ∀ witnessProgram, ∃ text, encodeTaprootAddress witnessProgram network = .ok text)
    (hpadding : ¬ PaddingThrows address network)
    (h : parseTaprootAddress address network = .error e) :
    e = .ansError .invalidTaprootAddress none := by
  rcases Outcome.bind_error.mp h with h | ⟨⟨hrp', words⟩, hdecode, h⟩
  · exact (Outcome.orElseError_error.mp h).2.symm
  rcases Outcome.bind_error.mp h with h | ⟨_, hfront, h⟩
  · exact (Outcome.reject_error.mp h).2.symm
  rcases Outcome.bind_error.mp h with h | ⟨bytes, -, h⟩
  · -- the words after the version cannot be regrouped
    obtain ⟨message, hfromWords, rfl⟩ := Outcome.mapError_error.mp h
    obtain ⟨hhrp, hversion⟩ := not_or.mp (Outcome.reject_ok.mp hfront)
    rw [not_not] at hhrp hversion
    obtain ⟨rest, rfl⟩ : ∃ rest, words = 1 :: rest := by
      cases words with
      | nil => exact nomatch hversion
      | cons w rest => exact ⟨rest, by rw [Option.some.inj hversion]⟩
    refine absurd ⟨rest, message, ?_, hfromWords⟩ hpadding
    rw [← hhrp]
    exact Outcome.orElseError_ok.mp hdecode
  rcases Outcome.bind_error.mp h with h | ⟨program, -, h⟩
  · exact (Outcome.orElseError_error.mp h).2.symm
  rcases Outcome.bind_error.mp h with h | ⟨canonical, -, h⟩
  · obtain ⟨text, htext⟩ := hencodes program
    exact nomatch htext.symm.trans h
  rcases Outcome.bind_error.mp h with h | ⟨_, -, h⟩
  · exact (Outcome.reject_error.mp h).2.symm
  · exact nomatch h

end Sdk

end Sdk

/-! ## The protocol crate -/

section Crate
variable [Addresses]

theorem parseTaprootAddress_iff (hinverse : Addresses.Inverse) {text : List UInt8}
    {network : BitcoinNetwork} {witnessProgram : Bytes 32} :
    parseTaprootAddress text network = .ok (.bitcoinTaproot witnessProgram) ↔
      Crypto.taprootAddress witnessProgram network = some text := by
  constructor
  · intro h
    simp only [parseTaprootAddress, Outcome.bind_ok, Outcome.reject_ok, Outcome.pure_ok,
      Outcome.orElseError_ok, RecordValue.bitcoinTaproot.injEq] at h
    obtain ⟨address, -, checked, hchecked, _, hsame, program, hprogram, rfl⟩ := h
    obtain ⟨-, hsame⟩ := not_or.mp hsame
    rw [not_not] at hsame
    obtain ⟨⟨version, bytes⟩, hwitness, hfirst⟩ := Option.bind_eq_some_iff.mp hprogram
    unfold firstVersionProgram at hfirst
    split at hfirst
    · rename_i hversion
      dsimp only at hversion hfirst
      rw [hversion, Bytes.ofList?_eq_some.mp hfirst] at hwitness
      rw [← hsame]
      exact hinverse.writes address checked network program hchecked hwitness
    · cases hfirst
  · intro h
    obtain ⟨text', address, checked, htext, -, hread, hchecked, htype, hsame, hwitness⟩ :=
      hinverse.reads witnessProgram network
    cases h.symm.trans htext
    simp only [parseTaprootAddress, Outcome.bind_ok, Outcome.reject_ok, Outcome.pure_ok,
      Outcome.orElseError_ok]
    refine ⟨address, hread, checked, hchecked, (), ?_, witnessProgram, ?_, rfl⟩
    · rintro (hne | hne)
      · exact hne htype
      · exact hne hsame
    · rw [hwitness, Option.bind_some, firstVersionProgram, if_pos rfl]
      exact Bytes.ofList?_eq_some.mpr rfl

/-- The crate reads a program, or refuses with its error for Taproot addresses. -/
theorem parseTaprootAddress_cases (text : List UInt8) (network : BitcoinNetwork) :
    (∃ witnessProgram, parseTaprootAddress text network = .ok (.bitcoinTaproot witnessProgram)) ∨
      parseTaprootAddress text network = .error .invalidTaprootAddress := by
  cases h : parseTaprootAddress text network with
  | ok value =>
      simp only [parseTaprootAddress, Outcome.bind_ok, Outcome.pure_ok] at h
      obtain ⟨_, -, _, -, _, -, program, -, rfl⟩ := h
      exact .inl ⟨program, rfl⟩
  | error e =>
      simp only [parseTaprootAddress, Outcome.bind_error, Outcome.orElseError_error,
        Outcome.reject_error, Outcome.pure_error] at h
      rcases h with ⟨-, rfl⟩ | ⟨_, -, ⟨-, rfl⟩ | ⟨_, -, ⟨-, rfl⟩ | ⟨_, -, ⟨-, rfl⟩ | ⟨_, -, h⟩⟩⟩⟩
      · exact .inr rfl
      · exact .inr rfl
      · exact .inr rfl
      · exact .inr rfl
      · exact h.elim

end Crate

/-! ## Both sides -/

section
variable [Sdk.Bech32m] [Addresses]

/-- The SDK writes the text of the crate. -/
theorem encodeTaprootAddress_ofAscii (hsame : Sdk.SameAddresses) {witnessProgram : Bytes 32}
    {network : BitcoinNetwork} {address : JsString} :
    Sdk.encodeTaprootAddress witnessProgram network = .ok address ↔
      ∃ text, Crypto.taprootAddress witnessProgram network = some text ∧ ofAscii text = address := by
  rw [← Outcome.toOption_eq_some, Sdk.encodeTaprootAddress, hsame]
  exact Option.map_eq_some_iff

theorem encodeTaprootAddress_text (hsame : Sdk.SameAddresses) (hcrate : Addresses.Inverse)
    {witnessProgram : Bytes 32} {network : BitcoinNetwork} {text : List UInt8}
    (hutf8 : validUtf8 text = true) :
    Sdk.encodeTaprootAddress witnessProgram network = .ok (ofUtf8 text) ↔
      Crypto.taprootAddress witnessProgram network = some text := by
  rw [encodeTaprootAddress_ofAscii hsame]
  obtain ⟨text', -, -, htext', hascii, -⟩ := hcrate.reads witnessProgram network
  have hread : ofAscii text' = ofUtf8 text ↔ text' = text := by
    rw [← ofUtf8_ascii hascii]
    exact ofUtf8_inj (validUtf8_of_ascii hascii) hutf8
  rw [htext']
  constructor
  · rintro ⟨_, ⟨⟩, h⟩
    exact congrArg some (hread.mp h)
  · rintro ⟨⟩
    exact ⟨_, rfl, hread.mpr rfl⟩

/-- A plain error is thrown where that of the SDK is due. -/
theorem PaddingThrows.inexact (hsdk : Sdk.Bech32m.Inverse) {address : JsString}
    {network : BitcoinNetwork} (hpadding : PaddingThrows address network) :
    ¬ TaprootExact address network := by
  intro h
  obtain ⟨message, hthrows⟩ := Sdk.paddingThrows_throws hpadding
  have hnone : ∀ witnessProgram, Sdk.encodeTaprootAddress witnessProgram network ≠ .ok address := by
    intro witnessProgram hencode
    exact nomatch hthrows.symm.trans ((Sdk.parseTaprootAddress_iff hsdk).mpr hencode)
  exact nomatch hthrows.symm.trans (h.refuses hnone)

/-- Both sides read exactly what they write, where the SDK can regroup the words of the address. -/
theorem taproot_exact_iff (hsdk : Sdk.Bech32m.Inverse) (hcrate : Addresses.Inverse)
    (hsame : Sdk.SameAddresses) (address : JsString) (network : BitcoinNetwork) :
    TaprootExact address network ↔ ¬ PaddingThrows address network := by
  have hencodes : ∀ witnessProgram, ∃ text, Crypto.taprootAddress witnessProgram network = some text ∧
      Sdk.encodeTaprootAddress witnessProgram network = .ok (ofAscii text) := by
    intro witnessProgram
    obtain ⟨text, -, -, htext, -⟩ := hcrate.reads witnessProgram network
    exact ⟨text, htext, (encodeTaprootAddress_ofAscii hsame).mpr ⟨text, htext, rfl⟩⟩
  have hwrites : ∀ witnessProgram, ∃ text,
      Sdk.encodeTaprootAddress witnessProgram network = .ok text := by
    intro witnessProgram
    obtain ⟨text, -, hencode⟩ := hencodes witnessProgram
    exact ⟨_, hencode⟩
  refine ⟨fun h hpadding => hpadding.inexact hsdk h, fun hpadding => ?_⟩
  refine ⟨fun _ => Sdk.parseTaprootAddress_iff hsdk, fun hnone => ?_, ?_, ?_, ?_⟩
  · cases hparse : Sdk.parseTaprootAddress address network with
    | ok value =>
        obtain ⟨witnessProgram, rfl⟩ := Sdk.parseTaprootAddress_kind hparse
        exact absurd ((Sdk.parseTaprootAddress_iff hsdk).mp hparse) (hnone witnessProgram)
    | error e => rw [Sdk.parseTaprootAddress_error hwrites hpadding hparse]
  · rintro text hutf8 rfl witnessProgram
    rw [parseTaprootAddress_iff hcrate, encodeTaprootAddress_text hsame hcrate hutf8]
  · rintro text hutf8 rfl hnone
    rcases parseTaprootAddress_cases text network with ⟨witnessProgram, h⟩ | h
    · rw [parseTaprootAddress_iff hcrate, ← encodeTaprootAddress_text hsame hcrate hutf8] at h
      exact absurd h (hnone witnessProgram)
    · exact h
  · intro witnessProgram
    obtain ⟨text, htext, hencode⟩ := hencodes witnessProgram
    refine ⟨text, ?_, (parseTaprootAddress_iff hcrate).mpr htext, hencode,
      (Sdk.parseTaprootAddress_iff hsdk).mpr hencode⟩
    exact Outcome.orElseError_ok.mpr htext

end

/-! The libraries by Bech32m, at an address and at one whose only word is no byte. -/

namespace Bip350

def asciiBytes (s : JsString) : Option (List UInt8) :=
  if s.all (· < 0x80) then some (s.map UInt16.toUInt8) else none

def knownHrp : Network → List UInt8
  | .bitcoin => ascii "bc"
  | .testnet => ascii "tb"
  | .signet => ascii "tb"
  | .regtest => ascii "bcrt"

scoped instance bech32m : Sdk.Bech32m where
  lowerUnicode s := s
  bech32mToWords := Bech32.toWords
  bech32mEncode hrp words := orElseError (.error "Exceeds length limit")
    (((asciiBytes hrp).bind fun hrp => Bech32.encode Bech32.bech32m hrp words).map ofAscii)
  decode s := (asciiBytes s).bind fun bytes =>
    (Bech32.decode Bech32.bech32m bytes).map fun decoded => (ofAscii decoded.1, decoded.2)
  fromWords := Bech32.fromWords

/-- The prefix, the version and the program of an address. -/
structure SegwitAddress where
  hrp : List UInt8
  version : Nat
  program : List UInt8

def segwitAddress : List UInt8 × List Nat → Option SegwitAddress
  | (_, []) => none
  | (hrp, version :: words) =>
      match Bech32.fromWords words with
      | .error _ => none
      | .ok program =>
          if version ≤ 16 ∧ 2 ≤ program.length ∧ program.length ≤ 40
          then some { hrp, version, program } else none

scoped instance addresses : Addresses where
  sha256 _ := Bytes.fill 32 0
  findProgramAddress _ _ := (Bytes.fill 32 0, 0)
  createWithSeed _ _ _ := none
  taprootAddress witnessProgram network :=
    Bech32.encode Bech32.bech32m (knownHrp (bitcoinNetwork network)) (1 :: Bech32.toWords witnessProgram.toList)
  Address := SegwitAddress
  fromStr text := (Bech32.decode Bech32.bech32m text).bind segwitAddress
  requireNetwork address network := if address.hrp = knownHrp network then some address else none
  addressType address :=
    if address.version = 1 ∧ address.program.length = 32 then some .p2tr else none
  toText address := (Bech32.encode Bech32.bech32m address.hrp
    (address.version :: Bech32.toWords address.program)).getD []
  witnessProgram address := some (address.version, address.program)

theorem asciiBytes_ofAscii {bytes : List UInt8} (h : ∀ b ∈ bytes, b < 0x80) :
    asciiBytes (ofAscii bytes) = some bytes := by
  have hall : (ofAscii bytes).all (· < 0x80) = true := by
    simp only [ofAscii, List.all_map, List.all_eq_true, Function.comp_apply, decide_eq_true_eq]
    intro b hb
    exact UInt8.toUInt16_lt.mpr (h b hb)
  have hmap : (ofAscii bytes).map UInt16.toUInt8 = bytes := by
    rw [ofAscii, List.map_map]
    conv_rhs => rw [← List.map_id bytes]
    exact List.map_congr_left fun b _ => UInt8.toUInt8_toUInt16 b
  rw [asciiBytes, hall, hmap]
  rfl

theorem ascii_knownHrp (network : Network) : ∀ b ∈ knownHrp network, b < 0x80 := by
  cases network <;> decide +kernel

theorem hrp_eq (network : BitcoinNetwork) :
    Sdk.hrp network = ofAscii (knownHrp (bitcoinNetwork network)) := by
  cases network <;> rfl

theorem ascii_charOf {w : Nat} (hw : w < 32) : Bech32.charOf w < 0x80 := by
  have hall : ∀ w : Fin 32, Bech32.charOf w < 0x80 := by decide +kernel
  exact hall ⟨w, hw⟩

/-- What is written is ASCII. -/
theorem ascii_encode {const : Nat} {network : Network} {words : List Nat} {text : List UInt8}
    (h : Bech32.encode const (knownHrp network) words = some text) : ∀ b ∈ text, b < 0x80 := by
  unfold Bech32.encode at h
  split at h
  · rename_i hvalid
    cases h
    intro b hb
    rcases List.mem_append.mp hb with hb | hb
    · exact ascii_knownHrp network b hb
    · rcases List.mem_cons.mp hb with rfl | hb
      · decide
      · obtain ⟨w, hw, rfl⟩ := List.mem_map.mp hb
        apply ascii_charOf
        rcases List.mem_append.mp hw with hw | hw
        · exact of_decide_eq_true (List.all_eq_true.mp hvalid.2.2.1 w hw)
        · exact Bech32.checksum_lt const _ words w hw
  · exact nomatch h

/-- Every program is written. -/
theorem encode_program (witnessProgram : Bytes 32) (network : Network) :
    ∃ text, Bech32.encode Bech32.bech32m (knownHrp network)
      (1 :: Bech32.toWords witnessProgram.toList) = some text := by
  have hlength : (Bech32.toWords witnessProgram.toList).length = 52 := by
    rw [Bech32.toWords, Bech32.length_groups, witnessProgram.toList_length]
  have hwords : (1 :: Bech32.toWords witnessProgram.toList).all (· < 32) = true := by
    rw [List.all_eq_true]
    intro w hw
    rcases List.mem_cons.mp hw with rfl | hw
    · rfl
    · exact decide_eq_true (Bech32.groups_lt w hw)
  have hhrp : knownHrp network ≠ [] ∧ (knownHrp network).all Bech32.isPrefixChar = true ∧
      (knownHrp network).length ≤ 4 := by
    cases network <;> decide +kernel
  refine ⟨_, if_pos ⟨hhrp.1, hhrp.2.1, hwords, ?_⟩⟩
  rw [List.length_cons, hlength]
  exact Nat.le_trans (Nat.add_le_add_right (Nat.add_le_add_right hhrp.2.2 7) 53) (by decide)

theorem bech32m_lt : Bech32.bech32m < 2 ^ 30 := by decide

/-- The encoder of the package writes what the library writes. -/
theorem bech32mEncode_ok {network : BitcoinNetwork} {words : List Nat} {address : JsString} :
    Sdk.Platform.bech32mEncode (Sdk.hrp network) words = .ok address ↔
      ∃ text, Bech32.encode Bech32.bech32m (knownHrp (bitcoinNetwork network)) words = some text ∧
        ofAscii text = address := by
  change orElseError _ (((asciiBytes (Sdk.hrp network)).bind fun hrp =>
    Bech32.encode Bech32.bech32m hrp words).map ofAscii) = .ok address ↔ _
  rw [Outcome.orElseError_ok, hrp_eq, asciiBytes_ofAscii (ascii_knownHrp _), Option.bind_some]
  exact Option.map_eq_some_iff

theorem sdkInverse : Sdk.Bech32m.Inverse := by
  refine ⟨fun network words address h => ?_, Bech32.fromWords_toWords⟩
  obtain ⟨text, htext, rfl⟩ := bech32mEncode_ok.mp h
  change (asciiBytes (ofAscii text)).bind _ = _
  rw [asciiBytes_ofAscii (ascii_encode htext), Option.bind_some,
    Bech32.decode_encode bech32m_lt htext, hrp_eq]
  rfl

theorem crateInverse : Addresses.Inverse := by
  constructor
  · intro witnessProgram network
    obtain ⟨text, htext⟩ := encode_program witnessProgram (bitcoinNetwork network)
    have hread : (Bech32.decode Bech32.bech32m text).bind segwitAddress =
        some ⟨knownHrp (bitcoinNetwork network), 1, witnessProgram.toList⟩ := by
      rw [Bech32.decode_encode bech32m_lt htext, Option.bind_some]
      simp [segwitAddress, Bech32.fromWords_toWords, witnessProgram.toList_length]
    refine ⟨text, _, _, htext, ascii_encode htext, hread, if_pos rfl, ?_, ?_, rfl⟩
    · exact if_pos ⟨rfl, witnessProgram.toList_length⟩
    · change (Bech32.encode Bech32.bech32m _ _).getD [] = text
      rw [htext]
      rfl
  · intro address checked network witnessProgram hchecked hprogram
    change (if address.hrp = _ then some address else none) = some checked at hchecked
    split at hchecked
    · rename_i hhrp
      cases hchecked
      obtain ⟨hversion, hbytes⟩ := Prod.mk.inj (Option.some.inj hprogram)
      change Bech32.encode _ _ _ = some ((Bech32.encode Bech32.bech32m address.hrp
        (address.version :: Bech32.toWords address.program)).getD [])
      obtain ⟨text, htext⟩ := encode_program witnessProgram (bitcoinNetwork network)
      rw [hhrp, hversion, hbytes, htext, Option.getD_some]
    · exact nomatch hchecked

theorem sameAddresses : Sdk.SameAddresses := by
  intro witnessProgram network
  obtain ⟨text, htext⟩ := encode_program witnessProgram (bitcoinNetwork network)
  have hcrate : Crypto.taprootAddress witnessProgram network = some text := htext
  rw [hcrate]
  exact Outcome.toOption_eq_some.mpr (bech32mEncode_ok.mpr ⟨text, htext, rfl⟩)

end Bip350

open Bip350 in
/-- A checksum that is right, over the version and one word of zeros. -/
theorem excess_padding_throws : ¬ TaprootExact (Sdk.text "tb1pqlqxpla") .testnet := by
  apply PaddingThrows.inexact sdkInverse
  exact ⟨[0], "Excess padding", by decide +kernel, by decide +kernel⟩

open Bip350 in
theorem testnet_address_exact : TaprootExact
    (Sdk.text "tb1p0xlxvlhemja6c4dqv22uapctqupfhlxm9h8z3k2e72q4k9hcz7vq47zagq") .testnet := by
  apply (taproot_exact_iff sdkInverse crateInverse sameAddresses _ _).mpr
  have hdecode : Sdk.Bech32m.decode
      (Sdk.text "tb1p0xlxvlhemja6c4dqv22uapctqupfhlxm9h8z3k2e72q4k9hcz7vq47zagq") =
        some (Sdk.hrp .testnet, 1 :: Bech32.toWords Taproot.witnessProgram.toList) := by
    decide +kernel
  rintro ⟨words, message, hwords, hfromWords⟩
  rw [hdecode] at hwords
  cases hwords
  exact nomatch (Bech32.fromWords_toWords _).symm.trans hfromWords

end ArchNameService
