import ArchNameService.Lib.Positional
import ArchNameService.Lib.Text
import Mathlib.Data.List.GetD

/-! Bytes that are written in base 58: a number without the digits that look alike. -/

namespace JsString
open Positional

/-- The digits, in the order of their values: neither `0` nor `O`, `I` and `l`. -/
def base58Alphabet : JsString :=
  [49, 50, 51, 52, 53, 54, 55, 56, 57, 65, 66, 67, 68, 69, 70, 71, 72, 74, 75, 76, 77, 78, 80, 81,
    82, 83, 84, 85, 86, 87, 88, 89, 90, 97, 98, 99, 100, 101, 102, 103, 104, 105, 106, 107, 109,
    110, 111, 112, 113, 114, 115, 116, 117, 118, 119, 120, 121, 122]

def base58Char (d : Nat) : UInt16 := base58Alphabet.getD d 49

def base58Digit (u : UInt16) : Option Nat := base58Alphabet.idxOf? u

/-- A leading zero byte is a leading `1`. -/
def base58Encode (bytes : List UInt8) : JsString :=
  (convert 256 58 (bytes.map UInt8.toNat)).map base58Char

def base58Decode (text : JsString) : Option (List UInt8) :=
  (text.mapM base58Digit).map fun ds => (convert 58 256 ds).map UInt8.ofNat

section
variable {d : Nat} {u : UInt16} {text : JsString} {bytes : List UInt8}

theorem base58Digit_char (hd : d < 58) : base58Digit (base58Char d) = some d := by
  have hall : ∀ i : Fin 58, base58Digit (base58Char i) = some i.val := by decide
  exact hall ⟨d, hd⟩

theorem base58Char_mem (hd : d < 58) : base58Char d ∈ base58Alphabet := by
  have hlength : d < base58Alphabet.length := hd
  rw [base58Char, List.getD_eq_getElem _ _ hlength]
  exact List.getElem_mem hlength

theorem base58Digit_eq_some (h : base58Digit u = some d) : d < 58 ∧ base58Char d = u := by
  rw [base58Digit, List.idxOf?_eq_some_iff] at h
  obtain ⟨hlength, hu, -⟩ := h
  exact ⟨hlength, (List.getD_eq_getElem _ _ hlength).trans hu⟩

theorem mapM_base58Digit {ds : List Nat} :
    text.mapM base58Digit = some ds ↔ (∀ d ∈ ds, d < 58) ∧ ds.map base58Char = text := by
  constructor
  · intro h
    induction text generalizing ds with
    | nil =>
        cases h
        exact ⟨by simp, rfl⟩
    | cons u text ih =>
        simp only [List.mapM_cons, Option.bind_eq_bind, Option.bind_eq_some_iff, Option.pure_def,
          Option.some.injEq] at h
        obtain ⟨d, hd, ds, hds, rfl⟩ := h
        obtain ⟨hlt, hchar⟩ := base58Digit_eq_some hd
        obtain ⟨hall, rfl⟩ := ih hds
        exact ⟨List.forall_mem_cons.mpr ⟨hlt, hall⟩, by rw [List.map_cons, hchar]⟩
  · rintro ⟨hall, rfl⟩
    induction ds with
    | nil => rfl
    | cons d ds ih =>
        obtain ⟨hd, hds⟩ := List.forall_mem_cons.mp hall
        rw [List.map_cons, List.mapM_cons, base58Digit_char hd, ih hds]
        rfl

theorem base58_not_space (hu : u ∈ base58Alphabet) : isSpace u = false := by
  have hall : (base58Alphabet.all fun u => !isSpace u) = true := rfl
  rw [← Bool.not_eq_true', List.all_eq_true.mp hall u hu]

theorem bytes_of_digits {ds : List Nat} (h : ∀ d ∈ ds, d < 256) :
    (ds.map UInt8.ofNat).map UInt8.toNat = ds := by
  rw [List.map_map]
  refine (List.map_congr_left fun d hd => ?_).trans (List.map_id ds)
  exact UInt8.toNat_ofNat_of_lt' (h d hd)

theorem digits_of_bytes : (bytes.map UInt8.toNat).map UInt8.ofNat = bytes := by
  rw [List.map_map]
  exact (List.map_congr_left fun b _ => UInt8.ofNat_toNat).trans (List.map_id bytes)

theorem toNat_lt_256 : ∀ d ∈ bytes.map UInt8.toNat, d < 256 := by
  intro d hd
  obtain ⟨b, -, rfl⟩ := List.mem_map.mp hd
  exact b.toNat_lt

/-- Every string of bytes is read back. -/
theorem base58Decode_encode (bytes : List UInt8) :
    base58Decode (base58Encode bytes) = some bytes := by
  have hdigits := mapM_base58Digit.mpr
    ⟨@convert_lt 256 58 (bytes.map UInt8.toNat) (by decide), rfl⟩
  rw [base58Decode, base58Encode, hdigits, Option.map_some,
    convert_convert (by decide) toNat_lt_256, digits_of_bytes]

/-- What is read is written in one way only. -/
theorem base58Encode_decode (h : base58Decode text = some bytes) : base58Encode bytes = text := by
  obtain ⟨ds, hds, rfl⟩ := Option.map_eq_some_iff.mp h
  obtain ⟨hall, rfl⟩ := mapM_base58Digit.mp hds
  rw [base58Encode, bytes_of_digits (convert_lt (by decide)), convert_convert (by decide) hall]

theorem base58Encode_alphabet (bytes : List UInt8) : ∀ u ∈ base58Encode bytes, u ∈ base58Alphabet := by
  intro u hu
  obtain ⟨d, hd, rfl⟩ := List.mem_map.mp hu
  exact base58Char_mem (convert_lt (by decide) d hd)

theorem length_le_base58Encode (bytes : List UInt8) : bytes.length ≤ (base58Encode bytes).length := by
  have hlength := length_le_convert (by decide : 1 < 58) (by decide) (@toNat_lt_256 bytes)
  rwa [List.length_map, ← @List.length_map _ _ _ base58Char] at hlength

/-- Seven characters hold five bytes. -/
theorem base58Encode_length (bytes : List UInt8) :
    (base58Encode bytes).length ≤ (7 * bytes.length + 4) / 5 := by
  have hpower : ∀ n m : Nat, 7 * n ≤ 5 * m → 256 ^ n ≤ 58 ^ m := by
    intro n m hnm
    apply (Nat.pow_le_pow_iff_left (by decide : 5 ≠ 0)).mp
    calc (256 ^ n) ^ 5 = (256 ^ 5) ^ n := by rw [← pow_mul, ← pow_mul, Nat.mul_comm]
      _ ≤ (58 ^ 7) ^ n := Nat.pow_le_pow_left (by decide) n
      _ = 58 ^ (7 * n) := by rw [← pow_mul]
      _ ≤ 58 ^ (5 * m) := Nat.pow_le_pow_right (by decide) hnm
      _ = (58 ^ m) ^ 5 := by rw [← pow_mul, Nat.mul_comm]
  rw [base58Encode, List.length_map]
  apply length_convert_le (by decide) (by decide) toNat_lt_256
  rw [List.length_map]
  exact hpower _ _ (by omega)

end

end JsString
