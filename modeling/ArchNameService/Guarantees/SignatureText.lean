import ArchNameService.Manager.Bip322Witness

/-!
# The texts of a signature

A wallet returns a signature in hex or in base 64, bare or as the only item of a witness
stack. A text in base 64 is never taken for hex: it has a character that hex lacks. A bare
signature may read as a stack, and its items are then too short for a signature. It is still
extracted where the signature util returns on the first of them; where the util throws, the
error ends the extraction before the bytes themselves are tried.
-/

namespace ArchNameService

namespace Manager
open JsString
open Sdk (Thrown)

/-- The text is the bytes in hex, in any case, with or without `0x` in front. -/
def IsHexText (bytes : List UInt8) (text : JsString) : Prop :=
  IsHexOf bytes text ∨ ∃ x rest, (x = 120 ∨ x = 88) ∧ IsHexOf bytes rest ∧ text = 48 :: x :: rest

/-- The stack whose only item is the signature. -/
def witnessStack (signature : List UInt8) : List UInt8 := 1 :: 64 :: signature

/-- The text is the bytes in hex or in base 64. -/
inductive IsTextOf (bytes : List UInt8) : JsString → Prop where
  | hex {text} (h : IsHexText bytes text) : IsTextOf bytes text
  | base64 : IsTextOf bytes (base64Encode bytes)

/-- The texts of a signature: of its bytes, or of its stack. -/
def IsSignatureText (signature : List UInt8) (text : JsString) : Prop :=
  IsTextOf signature text ∨ IsTextOf (witnessStack signature) text

/-- What is relied on of the signature util: a signature stays as it is, and what it
returns for less is no signature. On other bytes it may throw. -/
structure Adjusts (adjustSignature : List UInt8 → Except Thrown (List UInt8)) : Prop where
  same : ∀ bytes, bytes.length = 64 → adjustSignature bytes = .ok bytes
  short : ∀ bytes adjusted, bytes.length < 64 → adjustSignature bytes = .ok adjusted →
    adjusted.length ≠ 64

/-- The bytes read as a stack, and the util throws on its first item. -/
def RefusedAsStack (adjustSignature : List UInt8 → Except Thrown (List UInt8))
    (signature : List UInt8) : Prop :=
  ∃ item thrown, (parseWitnessStack signature).bind List.head? = some item ∧
    adjustSignature item = .error thrown

section
variable {bytes item signature : List UInt8} {text : JsString} {offset next : Nat} {size : Int}

/-! ## The two alphabets -/

theorem IsHexText.clean (h : IsHexText bytes text) : IsHexOf bytes (stripHexPrefix text) := by
  rcases h with h | ⟨x, rest, hx, h, rfl⟩
  · rwa [stripHexPrefix_eq_self (.inr h.digits)]
  · rcases hx with rfl | rfl <;> exact h

theorem decodeRaw_hex (hne : bytes ≠ []) (h : IsHexText bytes text) :
    decodeRawWalletSignature text = .ok bytes := by
  have hclean := h.clean
  have hlength := hclean.length
  have hpos : 0 < bytes.length := List.length_pos_iff.mpr hne
  have hhex : isHex text = true := by
    simp only [isHex, hclean.digits, Bool.and_true, Bool.and_eq_true, decide_eq_true_eq, beq_iff_eq]
    omega
  rw [decodeRawWalletSignature, if_pos hhex]
  simp only [decodeHex, Outcome.bind_ok, Outcome.reject_ok, Outcome.pure_ok]
  refine ⟨(), ?_, bytesOfHexPairs_hex hclean⟩
  rintro (hdigits | hodd)
  · exact hdigits hclean.digits
  · omega

theorem mem_stripHexPrefix {u : UInt16} (hu : u ≠ 48 ∧ u ≠ 120 ∧ u ≠ 88) (h : u ∈ text) :
    u ∈ stripHexPrefix text := by
  unfold stripHexPrefix
  split
  · exact List.mem_of_ne_of_mem hu.2.1 (List.mem_of_ne_of_mem hu.1 h)
  · exact List.mem_of_ne_of_mem hu.2.2 (List.mem_of_ne_of_mem hu.1 h)
  · exact h

/-- Text in base 64 with a character that is no digit of hex is read as base 64. -/
theorem decodeRaw_base64 {u : UInt16} (hmem : u ∈ base64Encode bytes)
    (hu : u ≠ 48 ∧ u ≠ 120 ∧ u ≠ 88) (hdigit : isHexDigit u = false) :
    decodeRawWalletSignature (base64Encode bytes) = .ok bytes := by
  have hhex : ¬ isHex (base64Encode bytes) = true := by
    intro h
    have hall := (Bool.and_eq_true_iff.mp h).2
    rw [List.all_eq_true.mp hall u (mem_stripHexPrefix hu hmem)] at hdigit
    cases hdigit
  rw [decodeRawWalletSignature, if_neg hhex, atob_encode]
  rfl

/-- 64 bytes leave two characters to pad. -/
theorem decodeRaw_base64_signature (h : signature.length = 64) :
    decodeRawWalletSignature (base64Encode signature) = .ok signature := by
  apply decodeRaw_base64 (u := base64Pad) _ (by decide) (by decide)
  rw [base64Encode, h]
  exact List.mem_append_right _ List.mem_cons_self

/-- The count and the size of a stack are written as `AU`. -/
theorem decodeRaw_base64_stack (h : signature.length = 64) :
    decodeRawWalletSignature (base64Encode (witnessStack signature)) =
      .ok (witnessStack signature) := by
  apply decodeRaw_base64 (u := 85) _ (by decide) (by decide)
  cases signature with
  | nil => cases h
  | cons b signature =>
      have hb := b.toNat_lt
      rw [base64Encode, witnessStack, sextets]
      refine List.mem_append_left _ (List.mem_map.mpr ⟨20, ?_, by decide⟩)
      exact List.mem_cons_of_mem _ List.mem_cons_self

/-! ## Stacks -/

theorem readCompactSize_next (h : readCompactSize bytes offset = some (size, next)) :
    offset < next := by
  unfold readCompactSize at h
  split at h
  · cases h
  · split at h
    · cases h
      omega
    · split at h
      · split at h
        · cases h
        · cases h
          omega
      · split at h
        · split at h
          · cases h
          · cases h
            omega
        · cases h

/-- An item lies behind its size. -/
theorem readItems_short {n : Nat} {items : List (List UInt8)}
    (h : readItems bytes n offset = some (items, next)) :
    ∀ item ∈ items, offset + 1 + item.length ≤ bytes.length := by
  induction n generalizing offset items with
  | zero =>
      cases h
      simp
  | succ n ih =>
      simp only [readItems, Option.bind_eq_bind, Option.bind_eq_some_iff, Prod.exists] at h
      obtain ⟨size, start, hsize, h⟩ := h
      have hstart := readCompactSize_next hsize
      split at h
      · cases h
      · rename_i hfits
        simp only [Option.bind_eq_some_iff, Prod.exists] at h
        obtain ⟨rest, stop, hrest, h⟩ := h
        cases h
        rintro item (_ | ⟨_, hitem⟩)
        · rw [List.length_take, List.length_drop]
          omega
        · have hlater := ih hrest item hitem
          omega

/-- The items of a stack are at least two bytes shorter than the stack. -/
theorem parseWitnessStack_short (h : (parseWitnessStack bytes).bind List.head? = some item) :
    2 + item.length ≤ bytes.length := by
  obtain ⟨items, hitems, hhead⟩ := Option.bind_eq_some_iff.mp h
  simp only [parseWitnessStack, Option.bind_eq_bind, Option.bind_eq_some_iff, Prod.exists] at hitems
  obtain ⟨count, start, hcount, hitems⟩ := hitems
  have hstart := readCompactSize_next hcount
  split at hitems
  · cases hitems
  · simp only [Option.bind_eq_some_iff, Prod.exists] at hitems
    obtain ⟨read, stop, hread, hitems⟩ := hitems
    split at hitems
    · cases hitems
      have hshort := readItems_short hread item (List.mem_of_mem_head? hhead)
      omega
    · cases hitems

theorem parseWitnessStack_stack (h : signature.length = 64) :
    parseWitnessStack (witnessStack signature) = some [signature] := by
  have hlength : (witnessStack signature).length = 66 := congrArg (· + 2) h
  have hcount : readCompactSize (witnessStack signature) 0 = some (1, 1) := rfl
  have hsize : readCompactSize (witnessStack signature) 1 = some (64, 2) := rfl
  have hitem : ((witnessStack signature).drop 2).take 64 = signature :=
    List.take_of_length_le h.le
  simp only [parseWitnessStack, hcount, Option.bind_eq_bind, Option.bind_some]
  rw [if_neg (by decide)]
  simp only [Int.toNat_one, readItems, hsize, Option.bind_eq_bind, Option.bind_some, hlength]
  rw [if_neg (by decide)]
  have hnat : (64 : Int).toNat = 64 := rfl
  simp only [hnat, Option.bind_some, hitem]
  rfl

/-! ## Extraction -/

theorem getItem_of_raw (hraw : decodeRawWalletSignature text = .ok bytes) :
    getWalletWitnessSignatureItem text = .ok ((parseWitnessStack bytes).bind List.head?) := by
  rw [getWalletWitnessSignatureItem, hraw]
  rfl

variable {adjustSignature : List UInt8 → Except Thrown (List UInt8)}

/-- The bytes themselves are a signature. -/
theorem fallback_bare (hadjusts : Adjusts adjustSignature) (hlength : signature.length = 64)
    (hraw : decodeRawWalletSignature text = .ok signature) (witnessItem : Option (List UInt8)) :
    extractSchnorrHexFromWalletSignature.fallback adjustSignature text witnessItem =
      .ok (bytesToHex signature) := by
  simp only [extractSchnorrHexFromWalletSignature.fallback, hraw, Outcome.ok_bind,
    hadjusts.same signature hlength, if_pos hlength]
  rfl

/-- A bare signature is extracted, also where it reads as a stack whose first item is
adjusted: the item is too short. -/
theorem extract_bare (hadjusts : Adjusts adjustSignature) (hlength : signature.length = 64)
    (hraw : decodeRawWalletSignature text = .ok signature)
    (hnot : ¬ RefusedAsStack adjustSignature signature) :
    extractSchnorrHexFromWalletSignature adjustSignature text = .ok (bytesToHex signature) := by
  have hfallback := fallback_bare hadjusts hlength hraw
  simp only [extractSchnorrHexFromWalletSignature, getItem_of_raw hraw, Outcome.ok_bind]
  cases hitem : (parseWitnessStack signature).bind List.head? with
  | none => exact hfallback none
  | some item =>
      have hitemShort := parseWitnessStack_short hitem
      cases hadjust : adjustSignature item with
      | error thrown => exact absurd ⟨item, thrown, hitem, hadjust⟩ hnot
      | ok adjusted =>
          have hne := hadjusts.short item adjusted (by omega) hadjust
          simp only [hadjust, Outcome.ok_bind, if_neg hne]
          exact hfallback (some item)

/-- The error of the util is the error of the extraction. -/
theorem extract_refused {thrown : Thrown} (hraw : decodeRawWalletSignature text = .ok signature)
    (hitem : (parseWitnessStack signature).bind List.head? = some item)
    (hthrown : adjustSignature item = .error thrown) :
    extractSchnorrHexFromWalletSignature adjustSignature text = .error thrown := by
  simp only [extractSchnorrHexFromWalletSignature, getItem_of_raw hraw, Outcome.ok_bind, hitem,
    hthrown]
  rfl

/-- The only item of a stack is extracted. -/
theorem extract_stack (hadjusts : Adjusts adjustSignature) (hlength : signature.length = 64)
    (hraw : decodeRawWalletSignature text = .ok (witnessStack signature)) :
    extractSchnorrHexFromWalletSignature adjustSignature text = .ok (bytesToHex signature) := by
  have hitem : getWalletWitnessSignatureItem text = .ok (some signature) := by
    rw [getItem_of_raw hraw, parseWitnessStack_stack hlength]
    rfl
  simp only [extractSchnorrHexFromWalletSignature, hitem, Outcome.ok_bind,
    hadjusts.same signature hlength, if_pos hlength]
  rfl

/-! ## The texts -/

theorem IsTextOf.bare (hlength : signature.length = 64) (h : IsTextOf signature text) :
    decodeRawWalletSignature text = .ok signature := by
  have hne : signature ≠ [] := List.ne_nil_of_length_pos (by omega)
  cases h with
  | hex h => exact decodeRaw_hex hne h
  | base64 => exact decodeRaw_base64_signature hlength

theorem IsTextOf.stack (hlength : signature.length = 64) (h : IsTextOf (witnessStack signature) text) :
    decodeRawWalletSignature text = .ok (witnessStack signature) := by
  cases h with
  | hex h => exact decodeRaw_hex (List.cons_ne_nil _ _) h
  | base64 => exact decodeRaw_base64_stack hlength

end

/-- A text of a signature gives the signature in lower-case hex where it is a text of the
stack, or where the bytes of the signature do not read as a stack whose first item the util
refuses; and only there. -/
theorem signature_extracted_iff (adjustSignature : List UInt8 → Except Thrown (List UInt8))
    (hadjusts : Adjusts adjustSignature) (signature : List UInt8) (hlength : signature.length = 64)
    (text : JsString) (htext : IsSignatureText signature text) :
    extractSchnorrHexFromWalletSignature adjustSignature text = .ok (bytesToHex signature) ↔
      IsTextOf (witnessStack signature) text ∨ ¬ RefusedAsStack adjustSignature signature := by
  rcases htext with hbare | hstack
  · have hraw := hbare.bare hlength
    constructor
    · intro hextracted
      right
      rintro ⟨item, thrown, hitem, hthrown⟩
      rw [extract_refused hraw hitem hthrown] at hextracted
      cases hextracted
    · rintro (hstack | hnot)
      · exact extract_stack hadjusts hlength (hstack.stack hlength)
      · exact extract_bare hadjusts hlength hraw hnot
  · have hextracted := extract_stack hadjusts hlength (hstack.stack hlength)
    exact iff_of_true hextracted (.inl hstack)

/-- What the util does: a signature is kept, the framing of a stack is dropped, and any
other length is refused. -/
def stripFraming (bytes : List UInt8) : Except Thrown (List UInt8) :=
  if bytes.length = 64 then .ok bytes
  else if bytes.length = 66 ∨ bytes.length = 67 then .ok ((bytes.drop 2).take 64)
  else .error (.error "Invalid signature length")

theorem stripFraming_adjusts : Adjusts stripFraming := by
  constructor
  · intro bytes h
    rw [stripFraming, if_pos h]
  · intro bytes adjusted hlength h
    rw [stripFraming, if_neg (by omega), if_neg (by omega)] at h
    cases h

/-- A signature that reads as a stack of one item with 62 bytes. -/
def looksLikeStack : List UInt8 := 1 :: 62 :: List.replicate 62 0xAB

/-- In a stack of its own the signature is extracted. -/
theorem framed_lookalike_extracted :
    extractSchnorrHexFromWalletSignature stripFraming (base64Encode (witnessStack looksLikeStack)) =
      .ok (bytesToHex looksLikeStack) := by
  have hstack : IsTextOf (witnessStack looksLikeStack) (base64Encode (witnessStack looksLikeStack)) :=
    .base64
  exact (signature_extracted_iff stripFraming stripFraming_adjusts looksLikeStack (by decide) _
    (.inr hstack)).mpr (.inl hstack)

/-- The bare signature is not: its 62 bytes are refused. -/
theorem bare_lookalike_refused :
    Adjusts stripFraming ∧ looksLikeStack.length = 64 ∧
      IsSignatureText looksLikeStack (bytesToHex looksLikeStack) ∧
      extractSchnorrHexFromWalletSignature stripFraming (bytesToHex looksLikeStack) =
        .error (.error "Invalid signature length") := by
  have hbare : IsTextOf looksLikeStack (bytesToHex looksLikeStack) :=
    .hex (.inl (isHexOf_bytesToHex looksLikeStack))
  refine ⟨stripFraming_adjusts, by decide, .inl hbare, ?_⟩
  exact extract_refused (hbare.bare (by decide)) rfl rfl

end Manager

end ArchNameService
