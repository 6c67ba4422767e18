import ArchNameService.Lib.Text

/-! Bytes that are written as hex text. -/

namespace JsString

def isHexDigit (u : UInt16) : Bool :=
  (48 ≤ u && u ≤ 57) || (97 ≤ u && u ≤ 102) || (65 ≤ u && u ≤ 70)

def hexDigit (u : UInt16) : Nat :=
  if u ≤ 57 then u.toNat - 48 else if 97 ≤ u then u.toNat - 87 else u.toNat - 55

def stripHexPrefix : JsString → JsString
  | 48 :: 120 :: rest | 48 :: 88 :: rest => rest
  | s => s

/-- `Number.parseInt(s, 16)`: the longest run of digits, or nothing. -/
def parseIntHex (s : JsString) : Option Int :=
  let digits (s : JsString) : Option Int :=
    let run := (stripHexPrefix s).takeWhile isHexDigit
    if run = [] then none else some (run.foldl (fun n u => 16 * n + hexDigit u) 0)
  match s.dropWhile isSpace with
  | 45 :: rest => (digits rest).map (- ·)
  | 43 :: rest => digits rest
  | rest => digits rest

/-- Two characters a byte; what is no number becomes 0. -/
def bytesOfHexPairs (s : JsString) : List UInt8 :=
  (List.range (s.length / 2)).map fun i =>
    UInt8.ofNat (((parseIntHex ((s.drop (2 * i)).take 2)).getD 0) % 256).toNat

def hexToBytes (hex : JsString) : List UInt8 := bytesOfHexPairs (stripHexPrefix hex)

/-! ## Writing -/

def hexChar (d : Nat) : UInt16 := UInt16.ofNat (if d < 10 then 48 + d else 87 + d)

/-- `b.toString(16).padStart(2, "0")`, byte by byte. -/
def bytesToHex (bytes : List UInt8) : JsString :=
  bytes.flatMap fun b => [hexChar (b.toNat / 16), hexChar (b.toNat % 16)]

/-- The text is the bytes in hex, in lower or upper case. -/
def IsHexOf (bytes : List UInt8) (text : JsString) : Prop := text.map lowerAscii = bytesToHex bytes

section
variable {u v : UInt16} {text rest : JsString} {b : UInt8} {bytes : List UInt8}

theorem length_bytesToHex (bytes : List UInt8) : (bytesToHex bytes).length = 2 * bytes.length := by
  induction bytes with
  | nil => rfl
  | cons b bytes ih =>
      rw [bytesToHex, List.flatMap_cons, List.length_append, List.length_cons]
      change 2 + (bytesToHex bytes).length = 2 * (bytes.length + 1)
      rw [ih]
      omega

theorem toNat_hexChar {d : Nat} (hd : d < 16) :
    (hexChar d).toNat = if d < 10 then 48 + d else 87 + d := by
  rw [hexChar, UInt16.toNat_ofNat_of_lt']
  split <;> exact Nat.lt_of_lt_of_le (by omega : _ < 200) (by decide)

/-- Either case of a digit is read as the digit. -/
theorem hexDigit_of_lower {d : Nat} (hd : d < 16) (hu : lowerAscii u = hexChar d) :
    isHexDigit u = true ∧ hexDigit u = d := by
  have hchar := congrArg UInt16.toNat hu
  rw [toNat_hexChar hd] at hchar
  simp only [isHexDigit, hexDigit, lowerAscii, Bool.or_eq_true, Bool.and_eq_true, decide_eq_true_eq,
    UInt16.le_iff_toNat_le, UInt16.reduceToNat] at hchar ⊢
  have hlt := u.toNat_lt
  split at hchar
  · rename_i hupper
    simp only [UInt16.toNat_add, UInt16.reduceToNat] at hchar
    split at hchar <;> constructor <;> (repeat' split) <;> omega
  · split at hchar <;> constructor <;> (repeat' split) <;> omega

theorem not_space_of_hexDigit (hu : isHexDigit u = true) :
    isSpace u = false ∧ u ≠ 45 ∧ u ≠ 43 ∧ u ≠ 120 ∧ u ≠ 88 := by
  simp only [isHexDigit, isSpace, Bool.or_eq_true, Bool.and_eq_true, decide_eq_true_eq,
    Bool.or_eq_false_iff, Bool.and_eq_false_iff, decide_eq_false_iff_not, beq_eq_false_iff_ne, ne_eq,
    UInt16.le_iff_toNat_le, UInt16.reduceToNat, ← UInt16.toNat_inj] at hu ⊢
  omega

theorem stripHexPrefix_eq_self {s : JsString} (h : 0x30 ∉ s ∨ s.all isHexDigit = true) :
    stripHexPrefix s = s := by
  unfold stripHexPrefix
  split
  · rcases h with h | h
    · exact absurd List.mem_cons_self h
    · simp [isHexDigit] at h
  · rcases h with h | h
    · exact absurd List.mem_cons_self h
    · simp [isHexDigit] at h
  · rfl

/-- Two digits are read as one byte. -/
theorem parseIntHex_pair (hu : isHexDigit u = true) (hv : isHexDigit v = true) :
    parseIntHex [u, v] = some ((16 * hexDigit u + hexDigit v : Nat) : Int) := by
  obtain ⟨hspace, hminus, hplus, -⟩ := not_space_of_hexDigit hu
  obtain ⟨-, -, -, hx, hX⟩ := not_space_of_hexDigit hv
  have hstrip : stripHexPrefix [u, v] = [u, v] := by
    unfold stripHexPrefix
    split
    · rename_i h
      exact absurd (List.cons.inj (List.cons.inj h).2).1 hx
    · rename_i h
      exact absurd (List.cons.inj (List.cons.inj h).2).1 hX
    · rfl
  have hdrop : [u, v].dropWhile isSpace = [u, v] := by rw [List.dropWhile_cons, hspace]; rfl
  unfold parseIntHex
  simp only [hdrop]
  split
  · rename_i h
    exact absurd (List.cons.inj h).1 hminus
  · rename_i h
    exact absurd (List.cons.inj h).1 hplus
  · simp only [hstrip, List.takeWhile_cons, hu, hv, List.takeWhile_nil, if_true, reduceCtorEq,
      if_false, List.foldl_cons, List.foldl_nil, mul_zero, zero_add, Nat.cast_add, Nat.cast_mul,
      Nat.cast_ofNat]

theorem bytesOfHexPairs_cons (u v : UInt16) (rest : JsString) :
    bytesOfHexPairs (u :: v :: rest) =
      UInt8.ofNat (((parseIntHex [u, v]).getD 0) % 256).toNat :: bytesOfHexPairs rest := by
  have hhalf : (rest.length + 1 + 1) / 2 = rest.length / 2 + 1 := by omega
  rw [bytesOfHexPairs, List.length_cons, List.length_cons, hhalf, List.range_succ_eq_map,
    List.map_cons, List.map_map]
  rfl

/-- What is written in hex, in any case, is read back. -/
theorem bytesOfHexPairs_hex (h : IsHexOf bytes text) : bytesOfHexPairs text = bytes := by
  unfold IsHexOf at h
  induction bytes generalizing text with
  | nil =>
      rw [List.map_eq_nil_iff.mp h]
      rfl
  | cons b bytes ih =>
      rw [bytesToHex, List.flatMap_cons] at h
      obtain ⟨u, text, rfl, hu, h⟩ := List.map_eq_cons_iff.mp h
      obtain ⟨v, text, rfl, hv, h⟩ := List.map_eq_cons_iff.mp h
      have hb := b.toNat_lt
      obtain ⟨hudigit, huvalue⟩ := hexDigit_of_lower (by omega) hu
      obtain ⟨hvdigit, hvvalue⟩ := hexDigit_of_lower (by omega) hv
      rw [bytesOfHexPairs_cons, ih h, parseIntHex_pair hudigit hvdigit, huvalue, hvvalue]
      have hbyte : 16 * (b.toNat / 16) + b.toNat % 16 = b.toNat := Nat.div_add_mod _ _
      rw [hbyte, Option.getD_some, Int.emod_eq_of_lt (Int.natCast_nonneg _) (by omega),
        Int.toNat_natCast, UInt8.ofNat_toNat]

theorem IsHexOf.digits (h : IsHexOf bytes text) : text.all isHexDigit = true := by
  unfold IsHexOf at h
  induction bytes generalizing text with
  | nil =>
      rw [List.map_eq_nil_iff.mp h]
      rfl
  | cons b bytes ih =>
      rw [bytesToHex, List.flatMap_cons] at h
      obtain ⟨u, text, rfl, hu, h⟩ := List.map_eq_cons_iff.mp h
      obtain ⟨v, text, rfl, hv, h⟩ := List.map_eq_cons_iff.mp h
      have hb := b.toNat_lt
      simp only [List.all_cons, (hexDigit_of_lower (by omega) hu).1,
        (hexDigit_of_lower (by omega) hv).1, Bool.true_and]
      exact ih h

theorem IsHexOf.not_space (h : IsHexOf bytes text) : ∀ u ∈ text, isSpace u = false := fun u hu =>
  (not_space_of_hexDigit (List.all_eq_true.mp h.digits u hu)).1

theorem IsHexOf.length (h : IsHexOf bytes text) : text.length = 2 * bytes.length := by
  rw [← length_bytesToHex, ← show text.map lowerAscii = bytesToHex bytes from h, List.length_map]

theorem lowerAscii_hexChar {d : Nat} (hd : d < 16) : lowerAscii (hexChar d) = hexChar d :=
  (by decide : ∀ d < 16, lowerAscii (hexChar d) = hexChar d) d hd

theorem isHexOf_bytesToHex (bytes : List UInt8) : IsHexOf bytes (bytesToHex bytes) := by
  unfold IsHexOf
  induction bytes with
  | nil => rfl
  | cons b bytes ih =>
      have hb := b.toNat_lt
      have hhigh : b.toNat / 16 < 16 := by omega
      have hlow : b.toNat % 16 < 16 := by omega
      rw [bytesToHex, List.flatMap_cons, List.map_append, ← bytesToHex, ih]
      simp only [List.map_cons, List.map_nil, lowerAscii_hexChar hhigh, lowerAscii_hexChar hlow]

theorem bytesToHex_injective : Function.Injective bytesToHex := by
  intro bytes bytes' h
  rw [← bytesOfHexPairs_hex (isHexOf_bytesToHex bytes), h,
    bytesOfHexPairs_hex (isHexOf_bytesToHex bytes')]

end

end JsString
