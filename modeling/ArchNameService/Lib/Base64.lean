import ArchNameService.Lib.Hex

/-!
# Base 64

`btoa` writes three bytes in four digits and pads the last group; `atob` drops white
space and padding and reads the digits back.
-/

namespace JsString

def base64Alphabet : JsString :=
  [65, 66, 67, 68, 69, 70, 71, 72, 73, 74, 75, 76, 77, 78, 79, 80, 81, 82, 83, 84, 85, 86, 87, 88,
    89, 90, 97, 98, 99, 100, 101, 102, 103, 104, 105, 106, 107, 108, 109, 110, 111, 112, 113, 114,
    115, 116, 117, 118, 119, 120, 121, 122, 48, 49, 50, 51, 52, 53, 54, 55, 56, 57, 43, 47]

def base64Char (d : Nat) : UInt16 := base64Alphabet.getD d 65

def base64Digit (u : UInt16) : Option Nat := base64Alphabet.idxOf? u

/-- `=`. -/
def base64Pad : UInt16 := 61

/-- The groups of six bits, the last one filled up with zeros. -/
def sextets : List UInt8 → List Nat
  | [] => []
  | [a] => [a.toNat / 4, a.toNat % 4 * 16]
  | [a, b] => [a.toNat / 4, a.toNat % 4 * 16 + b.toNat / 16, b.toNat % 16 * 4]
  | a :: b :: c :: rest =>
      a.toNat / 4 :: (a.toNat % 4 * 16 + b.toNat / 16) :: (b.toNat % 16 * 4 + c.toNat / 64) ::
        c.toNat % 64 :: sextets rest

/-- The bytes of groups of six bits; the bits that fill no byte are dropped. -/
def octets : List Nat → List UInt8
  | a :: b :: c :: d :: rest =>
      UInt8.ofNat (a * 4 + b / 16) :: UInt8.ofNat (b % 16 * 16 + c / 4) ::
        UInt8.ofNat (c % 4 * 64 + d) :: octets rest
  | [a, b, c] => [UInt8.ofNat (a * 4 + b / 16), UInt8.ofNat (b % 16 * 16 + c / 4)]
  | [a, b] => [UInt8.ofNat (a * 4 + b / 16)]
  | _ => []

/-- `btoa`, of a string whose units are the bytes. -/
def base64Encode (bytes : List UInt8) : JsString :=
  (sextets bytes).map base64Char ++ List.replicate ((3 - bytes.length % 3) % 3) base64Pad

def isAsciiSpace (u : UInt16) : Bool := u == 9 || u == 10 || u == 12 || u == 13 || u == 32

/-- One or two `=` at the end, where the length is that of whole groups. -/
def dropPadding (text : JsString) : JsString :=
  if text.length % 4 = 0 then
    if endsWith [base64Pad, base64Pad] text then dropEnd 2 text
    else if endsWith [base64Pad] text then dropEnd 1 text
    else text
  else text

/-- The bytes of `atob`; none where it throws. -/
def atob (text : JsString) : Option (List UInt8) :=
  let digits := dropPadding (text.filter fun u => !isAsciiSpace u)
  if digits.length % 4 = 1 then none else (digits.mapM base64Digit).map octets

section
variable {d : Nat} {u : UInt16} {bytes : List UInt8}

theorem base64Digit_char (hd : d < 64) : base64Digit (base64Char d) = some d := by
  have hall : ∀ i : Fin 64, base64Digit (base64Char i) = some i.val := by decide +kernel
  exact hall ⟨d, hd⟩

/-- The digits are neither padding nor white space. -/
theorem base64Char_unit (hd : d < 64) :
    base64Char d ≠ base64Pad ∧ isAsciiSpace (base64Char d) = false := by
  have hall : ∀ i : Fin 64, base64Char i ≠ base64Pad ∧ isAsciiSpace (base64Char i) = false := by
    decide +kernel
  exact hall ⟨d, hd⟩

theorem sextets_lt (bytes : List UInt8) : ∀ d ∈ sextets bytes, d < 64 := by
  fun_induction sextets bytes with
  | case1 => simp
  | case2 a =>
      have ha := a.toNat_lt
      simp only [List.mem_cons, List.not_mem_nil, or_false, forall_eq_or_imp, forall_eq]
      omega
  | case3 a b =>
      have ha := a.toNat_lt
      have hb := b.toNat_lt
      simp only [List.mem_cons, List.not_mem_nil, or_false, forall_eq_or_imp, forall_eq]
      omega
  | case4 a b c rest ih =>
      have ha := a.toNat_lt
      have hb := b.toNat_lt
      have hc := c.toNat_lt
      simp only [List.mem_cons, forall_eq_or_imp]
      exact ⟨by omega, by omega, by omega, by omega, ih⟩

theorem octets_sextets (bytes : List UInt8) : octets (sextets bytes) = bytes := by
  have hbyte : ∀ (b : UInt8) (n : Nat), n = b.toNat → UInt8.ofNat n = b := by
    rintro b _ rfl
    exact UInt8.ofNat_toNat
  fun_induction sextets bytes with
  | case1 => rfl
  | case2 a => rw [octets, hbyte a _ (by omega)]
  | case3 a b =>
      have hb := b.toNat_lt
      rw [octets, hbyte a _ (by omega), hbyte b _ (by omega)]
  | case4 a b c rest ih =>
      have hb := b.toNat_lt
      have hc := c.toNat_lt
      rw [octets, ih, hbyte a _ (by omega), hbyte b _ (by omega), hbyte c _ (by omega)]

theorem length_sextets (bytes : List UInt8) :
    (sextets bytes).length + (3 - bytes.length % 3) % 3 = (bytes.length + 2) / 3 * 4 := by
  fun_induction sextets bytes with
  | case1 => rfl
  | case2 a => simp only [List.length_cons, List.length_nil]
  | case3 a b => simp only [List.length_cons, List.length_nil]
  | case4 a b c rest ih =>
      simp only [List.length_cons] at ih ⊢
      omega

theorem mapM_base64Digit {ds : List Nat} (h : ∀ d ∈ ds, d < 64) :
    (ds.map base64Char).mapM base64Digit = some ds := by
  induction ds with
  | nil => rfl
  | cons d ds ih =>
      obtain ⟨hd, hds⟩ := List.forall_mem_cons.mp h
      rw [List.map_cons, List.mapM_cons, base64Digit_char hd, ih hds]
      rfl

/-- The padding is what follows the digits. -/
theorem dropPadding_encode {ds : List Nat} {pad : Nat} (h : ∀ d ∈ ds, d < 64) (hpad : pad ≤ 2)
    (hlength : (ds.length + pad) % 4 = 0) :
    dropPadding (ds.map base64Char ++ List.replicate pad base64Pad) = ds.map base64Char := by
  have hdigits : ∀ u ∈ ds.map base64Char, u ≠ base64Pad := by
    intro u hu
    obtain ⟨d, hd, rfl⟩ := List.mem_map.mp hu
    exact (base64Char_unit (h d hd)).1
  have hwhole : (ds.map base64Char ++ List.replicate pad base64Pad).length % 4 = 0 := by
    rw [List.length_append, List.length_map, List.length_replicate, hlength]
  have hlast : ∀ front, front ++ [base64Pad] ≠ ds.map base64Char := by
    intro front hfront
    exact hdigits base64Pad (hfront ▸ List.mem_append_right _ List.mem_cons_self) rfl
  have hends : ∀ part : JsString, endsWith part (ds.map base64Char ++ part) = true :=
    fun part => List.isSuffixOf_iff_suffix.mpr (List.suffix_append _ part)
  have hdrop : ∀ part : JsString, dropEnd part.length (ds.map base64Char ++ part) =
      ds.map base64Char := fun part => by
    rw [dropEnd, List.length_append, Nat.add_sub_cancel, List.take_left]
  rw [dropPadding, if_pos hwhole]
  have hcase : pad = 0 ∨ pad = 1 ∨ pad = 2 := by omega
  rcases hcase with rfl | rfl | rfl
  · rw [List.replicate_zero, List.append_nil, if_neg, if_neg]
    · intro hend
      obtain ⟨front, hfront⟩ := List.isSuffixOf_iff_suffix.mp hend
      exact hlast front hfront
    · intro hend
      obtain ⟨front, hfront⟩ := List.isSuffixOf_iff_suffix.mp hend
      exact hlast (front ++ [base64Pad]) (by rw [List.append_assoc]; exact hfront)
  · have hpad : List.replicate 1 base64Pad = [base64Pad] := rfl
    rw [hpad, if_neg, if_pos (hends [base64Pad])]
    · exact hdrop [base64Pad]
    · intro hend
      obtain ⟨front, hfront⟩ := List.isSuffixOf_iff_suffix.mp hend
      have hback : (front ++ [base64Pad]) ++ [base64Pad] = ds.map base64Char ++ [base64Pad] := by
        rw [List.append_assoc]
        exact hfront
      exact hlast front (List.append_cancel_right hback)
  · have hpad : List.replicate 2 base64Pad = [base64Pad, base64Pad] := rfl
    rw [hpad, if_pos (hends [base64Pad, base64Pad])]
    exact hdrop [base64Pad, base64Pad]

/-- What is written is read back. -/
theorem atob_encode (bytes : List UInt8) : atob (base64Encode bytes) = some bytes := by
  have hlt := sextets_lt bytes
  have hlength := length_sextets bytes
  have hspace : (base64Encode bytes).filter (fun u => !isAsciiSpace u) = base64Encode bytes := by
    rw [List.filter_eq_self]
    intro u hu
    rcases List.mem_append.mp hu with hu | hu
    · obtain ⟨d, hd, rfl⟩ := List.mem_map.mp hu
      rw [(base64Char_unit (hlt d hd)).2]
      rfl
    · rw [List.eq_of_mem_replicate hu]
      rfl
  have hdigits : dropPadding (base64Encode bytes) = (sextets bytes).map base64Char :=
    dropPadding_encode hlt (by omega) (by omega)
  simp only [atob, hspace, hdigits, List.length_map]
  rw [if_neg (by omega), mapM_base64Digit hlt, Option.map_some, octets_sextets]

end

end JsString
