import ArchNameService.Lib.Separated
import ArchNameService.Refinement.Resolve
import ArchNameService.Registry.Transition
import ArchNameService.Sdk.Builders

/-!
# One grammar of names

Both sides accept the labels of `[a-z0-9]+(-[a-z0-9]+)*` with 1 to 63 bytes, and
nothing else. What the SDK accepts in other spellings it brings into that form, and
the instruction that registers it carries the label whose hash the program derives
the address from.
-/

namespace ArchNameService
open JsString (ofUtf8 ofAscii)
open Borsh (Str)

/-! ## The grammar -/

/-- `[a-z0-9]`. -/
def IsLabelLetter (b : UInt8) : Prop := (isAsciiLowercase b || isAsciiDigit b) = true

/-- `[a-z0-9]+(-[a-z0-9]+)*`. -/
def labelPattern : Language UInt8 := Separated.pattern IsLabelLetter 0x2D

structure IsLabel (bytes : List UInt8) : Prop where
  pattern : bytes ∈ labelPattern
  length : 1 ≤ bytes.length ∧ bytes.length ≤ 63

theorem hasDoubleHyphen_iff (bytes : List UInt8) :
    hasDoubleHyphen bytes = false ↔ bytes.IsChain fun a b => ¬ (a = 0x2D ∧ b = 0x2D) := by
  induction bytes using hasDoubleHyphen.induct with
  | case1 a b rest ih =>
      rw [hasDoubleHyphen, List.isChain_cons_cons, ← ih, Bool.or_eq_false_iff]
      simp only [Bool.and_eq_false_iff, beq_eq_false_iff_ne, ne_eq, not_and_or]
  | case2 bytes hshort =>
      cases bytes with
      | nil => exact ⟨fun _ => .nil, fun _ => rfl⟩
      | cons a bytes =>
          cases bytes with
          | nil => exact ⟨fun _ => .singleton a, fun _ => rfl⟩
          | cons b rest => exact absurd rfl (hshort a b rest)

/-- The program accepts exactly the labels of the grammar. -/
theorem validateLabel_isLabel (bytes : List UInt8) : validateLabel bytes = .ok () ↔ IsLabel bytes := by
  have hletter : ¬ IsLabelLetter 0x2D := by unfold IsLabelLetter; decide
  have hpattern := (Separated.mem_iff hletter bytes).2
  simp only [validateLabel, Outcome.bind_ok, Outcome.reject_ok, not_or, not_not,
    Bool.not_eq_true, hasDoubleHyphen_iff, List.all_eq_true]
  constructor
  · rintro ⟨_, hlength, _, ⟨hhead, hlast, hapart⟩, hall⟩
    refine ⟨hpattern.mpr ⟨?_, hhead, ?_, hlast, hapart⟩, hlength⟩
    · rintro rfl
      exact absurd hlength.1 (by decide)
    · intro b hb
      simpa [IsLabelLetter] using hall b hb
  · rintro ⟨hmem, hlength⟩
    obtain ⟨-, hhead, hspaced⟩ := hpattern.mp hmem
    refine ⟨(), hlength, (), ⟨hhead, hspaced.last, hspaced.apart⟩, ?_⟩
    intro b hb
    simpa [IsLabelLetter] using hspaced.letters b hb

/-- So does the SDK, of all strings. -/
theorem sdkLabel_isLabel (s : JsString) :
    Sdk.validateLabel s = .ok () ↔ ∃ bytes, IsLabel bytes ∧ s = ofAscii bytes := by
  rw [Sdk.validateLabel_ok]
  simp only [validateLabel_isLabel]

/-! ## Canonical names -/

theorem canonicalLabel_injective {label label' : List UInt8}
    (h : ofAscii (label ++ archSuffix) = ofAscii (label' ++ archSuffix)) : label = label' :=
  List.append_left_injective archSuffix (JsString.toUInt16_injective.list_map h)

/-- What the SDK accepts as a label, it brings into the form of the grammar. -/
theorem canonicalizeLabel_ok [Sdk.Platform] {s canonical : JsString}
    (h : Sdk.canonicalizeLabel s = .ok canonical) :
    ∃ label, validateLabel label = .ok () ∧ canonical = ofAscii label := by
  simp only [Sdk.canonicalizeLabel, Outcome.bind_ok, Outcome.pure_ok] at h
  obtain ⟨name, hname, rfl⟩ := h
  obtain ⟨label, hlabel, rfl⟩ := Sdk.canonicalizeName_ok hname
  exact ⟨label, hlabel, Sdk.dropEnd_canonical⟩

/-! ## Registration -/

/-- What a register instruction carries, and what the program makes of it. -/
structure RegistersLabel [Crypto] (programId : ArchAddress) (ns : JsString) (durationSlots : UInt64)
    (instruction : Sdk.BuiltInstruction) (label : Str) : Prop where
  data : Borsh.fromSlice instruction.data = some (NameInstruction.register label durationSlots)
  accepted : validateLabel label.bytes = .ok ()
  registers : ∀ owner, ∃ name, Transition.register label owner = .ok name ∧
    instruction.accounts[2]? =
      some ⟨(deriveNameAddress programId ns.encode name.nameHash).toList, false, true⟩

theorem buildRegister_label [Crypto] [Sdk.Platform] {label canonical : JsString}
    (programId registryConfig : ArchAddress) (ns : JsString) (owner : List UInt8)
    (durationSlots : Option UInt64) (h : Sdk.canonicalizeLabel label = .ok canonical) :
    ∃ instruction l,
      Sdk.buildRegisterInstruction programId registryConfig ns owner label durationSlots =
        .ok instruction ∧ canonical = ofAscii l.bytes ∧
      RegistersLabel programId ns (durationSlots.getD 0) instruction l := by
  obtain ⟨bytes, hlabel, rfl⟩ := canonicalizeLabel_ok h
  have hascii := validateLabel_ascii hlabel
  have hname : ofAscii bytes ++ Sdk.text ".arch" = ofAscii (bytes ++ archSuffix) :=
    (List.map_append ..).symm
  have hfits : bytes.length < 2 ^ 32 :=
    Nat.lt_of_le_of_lt (validateLabel_length hlabel).2 (by decide)
  let l : Str := ⟨bytes, validUtf8_of_ascii hascii, hfits⟩
  rw [Sdk.buildRegisterInstruction, h, Outcome.ok_bind, hname, Sdk.nameHash_label hlabel,
    Outcome.ok_bind]
  refine ⟨_, l, rfl, rfl, ?_, hlabel, fun owner => ?_⟩
  · have hsdk : (NameInstruction.register l (durationSlots.getD 0)).toSdk =
        .register (ofAscii bytes) (durationSlots.getD 0) := by
      rw [← JsString.ofUtf8_ascii hascii]
      rfl
    simp only [← hsdk, encodeInstruction_eq, Borsh.fromSlice_serialize]
  · have hregister : nameHash (l.bytes ++ archSuffix) = .ok (labelHash bytes) :=
      nameHash_label.mpr ⟨hlabel, rfl⟩
    unfold Transition.register
    rw [hregister]
    exact ⟨_, rfl, rfl⟩

/-- One grammar and one canonical form on both sides. -/
theorem names_agree [Crypto] [Sdk.Platform] :
    (∀ bytes, validateLabel bytes = .ok () ↔ IsLabel bytes) ∧
    (∀ s, Sdk.validateLabel s = .ok () ↔ ∃ bytes, IsLabel bytes ∧ s = ofAscii bytes) ∧
    (∀ s canonical, Sdk.canonicalizeName s = .ok canonical →
      canonicalizeName canonical.encode = .ok canonical.encode ∧
        Sdk.canonicalizeName canonical = .ok canonical) ∧
    (∀ s canonical : List UInt8, canonicalizeName s = .ok canonical →
      Sdk.canonicalizeName (ofUtf8 s) = .ok (ofUtf8 s)) ∧
    (∀ label label', IsLabel label → IsLabel label' →
      Sdk.canonicalizeName (ofAscii (label ++ archSuffix)) =
        Sdk.canonicalizeName (ofAscii (label' ++ archSuffix)) → label = label') ∧
    ∀ programId registryConfig ns owner label canonical durationSlots,
      Sdk.canonicalizeLabel label = .ok canonical → ∃ instruction l,
        Sdk.buildRegisterInstruction programId registryConfig ns owner label durationSlots =
          .ok instruction ∧ canonical = ofAscii l.bytes ∧
        RegistersLabel programId ns (durationSlots.getD 0) instruction l := by
  refine ⟨validateLabel_isLabel, sdkLabel_isLabel, ?_, ?_, ?_, ?_⟩
  · intro s canonical h
    obtain ⟨label, hlabel, rfl⟩ := Sdk.canonicalizeName_ok h
    rw [JsString.encode_ofAscii (canonical_ascii hlabel)]
    exact ⟨canonicalizeName_label hlabel, Sdk.canonicalizeName_label hlabel⟩
  · intro s canonical h
    obtain ⟨label, hlabel, rfl, -⟩ := canonicalizeName_ok.mp h
    rw [JsString.ofUtf8_ascii (canonical_ascii hlabel)]
    exact Sdk.canonicalizeName_label hlabel
  · intro label label' hlabel hlabel' h
    rw [Sdk.canonicalizeName_label ((validateLabel_isLabel label).mpr hlabel),
      Sdk.canonicalizeName_label ((validateLabel_isLabel label').mpr hlabel')] at h
    exact canonicalLabel_injective (Except.ok.inj h)
  · intro programId registryConfig ns owner label canonical durationSlots h
    exact buildRegister_label programId registryConfig ns owner durationSlots h

end ArchNameService
