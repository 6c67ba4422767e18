import ArchNameService.Refinement.Resolve
import ArchNameService.Sdk.Catalog

/-!
# What the form accepts

The form checks a draft by the key of its record, and the program checks the bytes. A
draft that the form accepts is written on chain where it is printable ASCII, and, for a
website, where it is not too long.
-/

namespace ArchNameService
open Borsh (Str)
open JsString

namespace Sdk

/-- The program accepts the shape of the record: its key, its value and its size. -/
def AcceptedOnChain (key value : JsString) : Prop :=
  ∃ k v : Str, k.bytes = key.encode ∧ v.bytes = value.encode ∧
    ArchNameService.validateTextKey k.bytes = .ok () ∧
    ArchNameService.validateTextValue v.bytes = .ok () ∧
    (Borsh.serialize (ArchNameService.RecordValue.text k v)).length ≤
      ArchNameService.maxRecordValueLen .text

/-- The characters from space to tilde. -/
def Printable (s : JsString) : Prop := ∀ u ∈ s, 0x20 ≤ u ∧ u ≤ 0x7E

/-! ## The two libraries -/

section
variable {s : JsString}

/-- Both sides refuse a string that is not ASCII, and agree on the others. -/
theorem agree_of_ascii (client : JsString → Prop) (chain : List UInt8 → Prop)
    (hsame : ∀ bytes, validUtf8 bytes = true → (client (ofUtf8 bytes) ↔ chain bytes))
    (hclient : client s → ∀ u ∈ s, u < 0x80) (hchain : chain s.encode → ∀ b ∈ s.encode, b < 0x80) :
    client s ↔ chain s.encode := by
  have hback : (∀ b ∈ s.encode, b < 0x80) → (client s ↔ chain s.encode) := by
    intro hascii
    rw [← hsame _ (validUtf8_of_ascii hascii), ofUtf8_ascii hascii, ofAscii_encode hascii]
  constructor
  · intro h
    exact (hback (encode_units (hclient h))).mp h
  · intro h
    exact (hback (hchain h)).mpr h

theorem chainKey_ok {bytes : List UInt8} (h : ArchNameService.validateTextKey bytes = .ok ()) :
    bytes.length ≤ 32 ∧ ∀ b ∈ bytes, b < 0x80 := by
  simp only [ArchNameService.validateTextKey, Outcome.bind_ok, Outcome.reject_ok, not_or, not_not,
    Nat.not_lt] at h
  obtain ⟨_, ⟨-, hlength⟩, hall⟩ := h
  refine ⟨hlength, fun b hb => ?_⟩
  apply (UInt8.toUInt16_lt (b := 0x80)).mp
  apply isTextKeyUnit_ascii
  rw [isTextKeyUnit_toUInt16]
  exact List.all_eq_true.mp hall b hb

theorem chainValue_ok {bytes : List UInt8} (h : ArchNameService.validateTextValue bytes = .ok ()) :
    bytes.length ≤ 256 ∧ ∀ b ∈ bytes, b < 0x80 := by
  simp only [ArchNameService.validateTextValue, Outcome.bind_ok, Outcome.reject_ok, not_or, not_not,
    Nat.not_lt] at h
  obtain ⟨_, ⟨-, hlength⟩, hall, -⟩ := h
  exact ⟨hlength, fun b hb => of_decide_eq_true (List.all_eq_true.mp hall b hb)⟩

theorem validateTextKey_encode :
    validateTextKey s = .ok () ↔ ArchNameService.validateTextKey s.encode = .ok () := by
  refine agree_of_ascii (fun s => validateTextKey s = .ok ())
    (fun bytes => ArchNameService.validateTextKey bytes = .ok ()) (fun _ => validateTextKey_iff) ?_ ?_
  · intro h
    simp only [validateTextKey, Outcome.bind_ok, Outcome.reject_ok, not_not, textKey_characters] at h
    obtain ⟨_, -, hall⟩ := h
    exact fun u hu => isTextKeyUnit_ascii (List.all_eq_true.mp hall u hu)
  · exact fun h => (chainKey_ok h).2

/-- A value is nonempty, printable and not too long. -/
theorem validateTextValue_ok : validateTextValue s = .ok () ↔
    s ≠ [] ∧ s.length ≤ maxTextValueLen ∧ Printable s := by
  simp only [validateTextValue, Outcome.bind_ok, Outcome.reject_ok, not_or, Nat.not_lt, exists_const,
    Bool.not_eq_true, List.any_eq_false, Bool.or_eq_false_iff, decide_eq_false_iff_not, UInt16.not_lt,
    Printable, and_assoc]

theorem printable_of_all (h : s.all (fun u => 0x20 ≤ u && u ≤ 0x7E) = true) : Printable s := by
  intro u hu
  have hall := List.all_eq_true.mp h u hu
  simpa only [Bool.and_eq_true, decide_eq_true_eq] using hall

theorem Printable.ascii (h : Printable s) : ∀ u ∈ s, u < 0x80 := by
  intro u hu
  have hle := (h u hu).2
  rw [UInt16.le_iff_toNat_le] at hle
  exact UInt16.lt_iff_toNat_lt.mpr (Nat.lt_of_le_of_lt hle (by decide))

theorem validateTextValue_encode :
    validateTextValue s = .ok () ↔ ArchNameService.validateTextValue s.encode = .ok () := by
  refine agree_of_ascii (fun s => validateTextValue s = .ok ())
    (fun bytes => ArchNameService.validateTextValue bytes = .ok ()) (fun _ => validateTextValue_iff) ?_ ?_
  · exact fun h => (validateTextValue_ok.mp h).2.2.ascii
  · exact fun h => (chainValue_ok h).2

/-- The size of a record follows from the limits of its key and its value. -/
theorem acceptedOnChain_iff {key value : JsString} : AcceptedOnChain key value ↔
    validateTextKey key = .ok () ∧ validateTextValue value = .ok () := by
  rw [validateTextKey_encode, validateTextValue_encode]
  constructor
  · rintro ⟨k, v, hk, hv, hkey, hvalue, -⟩
    rw [hk] at hkey
    rw [hv] at hvalue
    exact ⟨hkey, hvalue⟩
  · rintro ⟨hkey, hvalue⟩
    obtain ⟨hkeyShort, hkeyAscii⟩ := chainKey_ok hkey
    obtain ⟨hvalueShort, hvalueAscii⟩ := chainValue_ok hvalue
    refine ⟨⟨key.encode, validUtf8_of_ascii hkeyAscii, by omega⟩,
      ⟨value.encode, validUtf8_of_ascii hvalueAscii, by omega⟩, rfl, rfl, hkey, hvalue, ?_⟩
    change (Borsh.serialize RecordType.text ++ Borsh.serialize ((_, _) : Str × Str)).length ≤ 297
    simp only [List.length_append, length_serialize_recordType, Borsh.length_prod, Borsh.length_str]
    omega

end

/-! ## The checks of the form -/

/-- The checks that limit the length of a value. -/
inductive Limited : Option (JsString → Option String) → Prop where
  | unchecked : Limited none
  | ethAddress : Limited (some ethAddressError)
  | email : Limited (some emailError)
  | handle (label : String) : Limited (some (nonEmptyHandle label))

section
variable [WebUrl] {key draft : JsString}

theorem catalog_limited :
    ∀ spec ∈ textRecordCatalog, spec.key = text "url" ∨ Limited spec.validate := by
  rw [textRecordCatalog]
  simp only [List.forall_mem_cons]
  exact ⟨.inr .ethAddress, .inr .unchecked, .inr .unchecked, .inr .ethAddress, .inr .unchecked,
    .inr .unchecked, .inr .unchecked, .inr .unchecked, .inr .unchecked, .inr .unchecked, .inl trivial,
    .inr .email, .inr .unchecked, .inr (.handle _), .inr (.handle _), .inr (.handle _),
    .inr (.handle _), .inr (.handle _), by simp⟩

theorem catalog_keys : ∀ spec ∈ textRecordCatalog, validateTextKey spec.key = .ok () := by
  let names := ["eth", "ltc", "doge", "bsc", "inj", "ipfs", "arwv", "ipns", "shdw", "point", "url",
    "email", "pic", "discord", "twitter", "github", "reddit", "telegram"]
  have hnames : textRecordCatalog.map (·.key) = names.map text := rfl
  have hkeys : ∀ name ∈ names, validateTextKey (text name) = .ok () := by decide +kernel
  intro spec hspec
  have hmem := List.mem_map_of_mem (f := TextRecordSpec.key) hspec
  rw [hnames] at hmem
  obtain ⟨name, hname, hkey⟩ := List.mem_map.mp hmem
  rw [← hkey]
  exact hkeys name hname

omit [WebUrl] in
theorem length_of_limited {validate : Option (JsString → Option String)} (hlimited : Limited validate)
    {value : JsString} (htrim : value.trim = value)
    (h : (match validate with
      | some validate => validate value
      | none => if 256 < value.length then some "Value is too long." else none) = none) :
    value.length ≤ 256 := by
  cases hlimited with
  | unchecked =>
      simp only at h
      split at h
      · cases h
      · omega
  | ethAddress =>
      simp only [ethAddressError] at h
      split at h
      · rename_i hshape
        have hlength := hshape.2.1
        rw [List.length_drop] at hlength
        omega
      · cases h
  | email =>
      simp only [emailError] at h
      split at h
      · cases h
      · omega
  | handle label =>
      simp only [nonEmptyHandle, htrim] at h
      split at h
      · cases h
      · omega

theorem form_accepts (h : validateTextRecordInput key draft = none) :
    validateTextKey key = .ok () ∧ draft.trim ≠ [] ∧
      (key ≠ text "url" → draft.trim.length ≤ 256) := by
  unfold validateTextRecordInput at h
  split at h
  · cases h
  · rename_i spec hspec
    unfold textRecordSpec at hspec
    have hmem := List.mem_of_find?_eq_some hspec
    have hkey : spec.key = key := beq_iff_eq.mp (List.find?_some hspec :)
    simp only at h
    split at h
    · cases h
    · rename_i hne
      subst hkey
      refine ⟨catalog_keys spec hmem, hne, fun hurl => ?_⟩
      exact length_of_limited ((catalog_limited spec hmem).resolve_left hurl) (trim_trim draft) h

end

/-- A draft that the form accepts is accepted on chain just where it is printable ASCII and,
for a website, has at most 256 characters; and the checks of the SDK are those of the
program. -/
theorem form_accepted_on_chain_iff [WebUrl] :
    (∀ key draft, validateTextRecordInput key draft = none →
      (AcceptedOnChain key draft.trim ↔ Printable draft.trim ∧
        (key = text "url" → draft.trim.length ≤ 256))) ∧
      ∀ key value : JsString,
        (validateTextKey key = .ok () ↔ ArchNameService.validateTextKey key.encode = .ok ()) ∧
        (validateTextValue value = .ok () ↔
          ArchNameService.validateTextValue value.encode = .ok ()) := by
  refine ⟨fun key draft h => ?_, fun _ _ => ⟨validateTextKey_encode, validateTextValue_encode⟩⟩
  obtain ⟨hkey, hne, hlength⟩ := form_accepts h
  rw [acceptedOnChain_iff, validateTextValue_ok]
  constructor
  · rintro ⟨-, -, hshort, hprintable⟩
    exact ⟨hprintable, fun _ => hshort⟩
  · rintro ⟨hprintable, hurl⟩
    refine ⟨hkey, hne, ?_, hprintable⟩
    by_cases h : key = text "url"
    · exact hurl h
    · exact hlength h

/-! ## Drafts that the program refuses -/

namespace Form

/-- Only web addresses are parsed. -/
scoped instance webUrl : WebUrl where
  protocol value := if startsWith (text "https:") value then some (text "https:") else none

/-- A handle outside ASCII, and a website of 257 characters. -/
theorem accepted_and_refused :
    (validateTextRecordInput (text "discord") [0xE9] = none ∧
        ¬ AcceptedOnChain (text "discord") (trim [0xE9])) ∧
      validateTextRecordInput (text "url") (text "https:" ++ List.replicate 251 0x61) = none ∧
        ¬ AcceptedOnChain (text "url") (trim (text "https:" ++ List.replicate 251 0x61)) := by
  refine ⟨⟨by decide +kernel, fun h => ?_⟩, by decide +kernel, fun h => ?_⟩
  · have hvalue := (acceptedOnChain_iff.mp h).2
    revert hvalue
    decide +kernel
  · have hvalue := (acceptedOnChain_iff.mp h).2
    revert hvalue
    decide +kernel

/-- An address in hex is accepted by both. -/
theorem address_accepted :
    AcceptedOnChain (text "eth") (trim (text "0x" ++ List.replicate 40 0x61)) :=
  (form_accepted_on_chain_iff.1 (text "eth") (text "0x" ++ List.replicate 40 0x61)
    (by decide +kernel)).mpr ⟨printable_of_all (by decide +kernel), by decide +kernel⟩

end Form

end Sdk

end ArchNameService
