import Mathlib.Data.List.DropRight
import Mathlib.Data.UInt

/-!
# Strings of code units

The strings of JavaScript are sequences of UTF-16 code units. `encode` and
`decode` are `TextEncoder` and `TextDecoder`: a lone surrogate is written as the
replacement character, and so is every ill-formed sequence that is read. Text in
ASCII is read and written byte by byte.
-/

/-- A string of UTF-16 code units. -/
abbrev JsString := List UInt16

namespace JsString

/-- The string whose code units are the bytes of ASCII text. -/
def ofAscii (bytes : List UInt8) : JsString := bytes.map UInt8.toUInt16

/-! ## Code points -/

def isHighSurrogate (u : UInt16) : Bool := 0xD800 ≤ u && u ≤ 0xDBFF
def isLowSurrogate (u : UInt16) : Bool := 0xDC00 ≤ u && u ≤ 0xDFFF

/-- The scalar values of a string. -/
def codePoints : JsString → List Nat
  | [] => []
  | [u] => [if isHighSurrogate u || isLowSurrogate u then 0xFFFD else u.toNat]
  | u :: v :: rest =>
      if isHighSurrogate u && isLowSurrogate v then
        (0x10000 + (u.toNat - 0xD800) * 0x400 + (v.toNat - 0xDC00)) :: codePoints rest
      else
        (if isHighSurrogate u || isLowSurrogate u then 0xFFFD else u.toNat) :: codePoints (v :: rest)

def ofCodePoint (c : Nat) : JsString :=
  if c < 0x10000 then [UInt16.ofNat c]
  else [UInt16.ofNat (0xD800 + (c - 0x10000) / 0x400), UInt16.ofNat (0xDC00 + c % 0x400)]

/-! ## Writing and reading UTF-8 -/

def utf8Bytes (c : Nat) : List UInt8 :=
  if c < 0x80 then [UInt8.ofNat c]
  else if c < 0x800 then [UInt8.ofNat (0xC0 + c / 0x40), UInt8.ofNat (0x80 + c % 0x40)]
  else if c < 0x10000 then
    [UInt8.ofNat (0xE0 + c / 0x1000), UInt8.ofNat (0x80 + c / 0x40 % 0x40),
      UInt8.ofNat (0x80 + c % 0x40)]
  else
    [UInt8.ofNat (0xF0 + c / 0x40000), UInt8.ofNat (0x80 + c / 0x1000 % 0x40),
      UInt8.ofNat (0x80 + c / 0x40 % 0x40), UInt8.ofNat (0x80 + c % 0x40)]

/-- `new TextEncoder().encode(..)`. -/
def encode (s : JsString) : List UInt8 := s.codePoints.flatMap utf8Bytes

/-- Where the decoder stands: between characters, or inside one with `needed + 1`
bytes to come, the next of which lies in `[lower, upper]`. -/
inductive Pending where
  | start
  | inside (codePoint needed : Nat) (lower upper : UInt8)

def decodeLead (b : UInt8) : List Nat × Pending :=
  if b < 0x80 then ([b.toNat], .start)
  else if 0xC2 ≤ b ∧ b ≤ 0xDF then ([], .inside (b.toNat - 0xC0) 0 0x80 0xBF)
  else if 0xE0 ≤ b ∧ b ≤ 0xEF then
    ([], .inside (b.toNat - 0xE0) 1 (if b = 0xE0 then 0xA0 else 0x80)
      (if b = 0xED then 0x9F else 0xBF))
  else if 0xF0 ≤ b ∧ b ≤ 0xF4 then
    ([], .inside (b.toNat - 0xF0) 2 (if b = 0xF0 then 0x90 else 0x80)
      (if b = 0xF4 then 0x8F else 0xBF))
  else ([0xFFFD], .start)

/-- A byte that cannot continue a character ends it, and is read anew. -/
def decodeByte : Pending → UInt8 → List Nat × Pending
  | .start, b => decodeLead b
  | .inside c needed lower upper, b =>
      if lower ≤ b ∧ b ≤ upper then
        match needed with
        | 0 => ([c * 0x40 + (b.toNat - 0x80)], .start)
        | n+1 => ([], .inside (c * 0x40 + (b.toNat - 0x80)) n 0x80 0xBF)
      else (0xFFFD :: (decodeLead b).1, (decodeLead b).2)

def decodeFrom : Pending → List UInt8 → List Nat
  | .start, [] => []
  | .inside .., [] => [0xFFFD]
  | pending, b :: bytes => (decodeByte pending b).1 ++ decodeFrom (decodeByte pending b).2 bytes

/-- `new TextDecoder().decode(..)`: a leading byte order mark is dropped. -/
def decode (bytes : List UInt8) : JsString :=
  (decodeFrom .start (if bytes.take 3 = [0xEF, 0xBB, 0xBF] then bytes.drop 3 else bytes)).flatMap
    ofCodePoint

/-! ## ASCII -/

section Ascii
variable {bytes : List UInt8} {b : UInt8}

theorem not_surrogate (b : UInt8) :
    isHighSurrogate b.toUInt16 = false ∧ isLowSurrogate b.toUInt16 = false := by
  have hb := b.toNat_lt
  simp only [isHighSurrogate, isLowSurrogate, Bool.and_eq_false_iff, decide_eq_false_iff_not,
    UInt16.le_iff_toNat_le, UInt8.toNat_toUInt16]
  exact ⟨.inl fun h => absurd (Nat.lt_of_le_of_lt h hb) (by decide),
    .inl fun h => absurd (Nat.lt_of_le_of_lt h hb) (by decide)⟩

theorem codePoints_ofAscii (bytes : List UInt8) :
    (ofAscii bytes).codePoints = bytes.map UInt8.toNat := by
  induction bytes with
  | nil => rfl
  | cons b bytes ih =>
      obtain ⟨hhigh, hlow⟩ := not_surrogate b
      cases bytes with
      | nil => simp [ofAscii, codePoints, hhigh, hlow]
      | cons c bytes =>
          change codePoints (b.toUInt16 :: c.toUInt16 :: ofAscii bytes) = _
          rw [codePoints, hhigh, hlow]
          exact congrArg₂ List.cons (UInt8.toNat_toUInt16 b) ih

/-- ASCII text is written as its bytes. -/
theorem encode_ofAscii (h : ∀ b ∈ bytes, b < 0x80) : (ofAscii bytes).encode = bytes := by
  rw [encode, codePoints_ofAscii]
  induction bytes with
  | nil => rfl
  | cons b bytes ih =>
      obtain ⟨hb, hbytes⟩ := List.forall_mem_cons.mp h
      have hlt : b.toNat < 0x80 := UInt8.lt_iff_toNat_lt.mp hb
      rw [List.map_cons, List.flatMap_cons, ih hbytes, utf8Bytes, if_pos hlt, UInt8.ofNat_toNat]
      rfl

theorem decodeFrom_ascii (h : ∀ b ∈ bytes, b < 0x80) :
    decodeFrom .start bytes = bytes.map UInt8.toNat := by
  induction bytes with
  | nil => rfl
  | cons b bytes ih =>
      obtain ⟨hb, hbytes⟩ := List.forall_mem_cons.mp h
      have hlead : decodeByte .start b = ([b.toNat], .start) := if_pos hb
      rw [decodeFrom, hlead, ih hbytes]
      rfl

theorem flatMap_ofCodePoint (bytes : List UInt8) :
    (bytes.map UInt8.toNat).flatMap ofCodePoint = ofAscii bytes := by
  rw [ofAscii, List.flatMap_map]
  refine (List.flatMap_congr fun b hb => ?_).trans (List.flatMap_pure_eq_map ..)
  have hlt : b.toNat < 0x10000 := Nat.lt_trans b.toNat_lt (by decide)
  have hunit : UInt16.ofNat b.toNat = b.toUInt16 :=
    UInt16.toNat_inj.mp ((UInt16.toNat_ofNat_of_lt' hlt).trans (UInt8.toNat_toUInt16 b).symm)
  rw [ofCodePoint, if_pos hlt, hunit]
  rfl

/-- ASCII text is read byte by byte. -/
theorem decode_ascii (h : ∀ b ∈ bytes, b < 0x80) : decode bytes = ofAscii bytes := by
  have hmark : bytes.take 3 ≠ [0xEF, 0xBB, 0xBF] := by
    intro htake
    have hmem : (0xEF : UInt8) ∈ bytes.take 3 := by rw [htake]; exact List.mem_cons_self
    exact absurd (h _ (List.mem_of_mem_take hmem)) (by decide)
  rw [decode, if_neg hmark, decodeFrom_ascii h, flatMap_ofCodePoint]

end Ascii

/-! ## Parts -/

/-- `s.startsWith(part)`. -/
def startsWith (part s : JsString) : Bool := part.isPrefixOf s

/-- `s.endsWith(part)`. -/
def endsWith (part s : JsString) : Bool := part.isSuffixOf s

/-- `s.includes(part)`. -/
def includes (part : JsString) : JsString → Bool
  | [] => part.isEmpty
  | u :: rest => startsWith part (u :: rest) || includes part rest

/-- `s.slice(0, -n)`. -/
def dropEnd (n : Nat) (s : JsString) : JsString := s.take (s.length - n)

/-- `[...s]`: a surrogate pair is one character. -/
def characters : JsString → List JsString
  | [] => []
  | [u] => [[u]]
  | u :: v :: rest =>
      if isHighSurrogate u && isLowSurrogate v then [u, v] :: characters rest
      else [u] :: characters (v :: rest)

/-! ## Whitespace and case -/

/-- White space and line terminators. -/
def isSpace (u : UInt16) : Bool :=
  (0x09 ≤ u && u ≤ 0x0D) || u == 0x20 || u == 0xA0 || u == 0x1680 || (0x2000 ≤ u && u ≤ 0x200A) ||
    u == 0x2028 || u == 0x2029 || u == 0x202F || u == 0x205F || u == 0x3000 || u == 0xFEFF

/-- `String.prototype.trim`. -/
def trim (s : JsString) : JsString :=
  ((s.dropWhile isSpace).reverse.dropWhile isSpace).reverse

/-- The lower case of an ASCII letter. -/
def lowerAscii (u : UInt16) : UInt16 := if 0x41 ≤ u && u ≤ 0x5A then u + 0x20 else u

section
variable {bytes part : List UInt8} {s : JsString}

theorem toUInt16_injective : Function.Injective UInt8.toUInt16 := fun _ _ => UInt8.toUInt16_inj.mp

theorem startsWith_ofAscii : startsWith (ofAscii part) (ofAscii bytes) = true ↔ part <+: bytes := by
  rw [startsWith, List.isPrefixOf_iff_prefix]
  exact List.prefix_map_iff_of_injective toUInt16_injective

theorem endsWith_ofAscii : endsWith (ofAscii part) (ofAscii bytes) = true ↔ part <:+ bytes := by
  rw [endsWith, List.isSuffixOf_iff_suffix]
  exact List.suffix_map_iff_of_injective toUInt16_injective

/-- A property that no surrogate has holds of a character as of its units. -/
theorem characters_all {p : UInt16 → Bool} (hhigh : ∀ u, isHighSurrogate u = true → p u = false)
    (hlow : ∀ u, isLowSurrogate u = true → p u = false) (s : JsString) :
    (s.characters.all fun c => c.any p) = s.all p := by
  induction s using characters.induct with
  | case1 => rfl
  | case2 u => simp only [characters, List.all_cons, List.all_nil, List.any_cons, List.any_nil,
      Bool.or_false]
  | case3 u v rest hpair ih =>
      obtain ⟨hu, hv⟩ := Bool.and_eq_true_iff.mp hpair
      rw [characters, if_pos hpair, List.all_cons, ih]
      simp only [List.all_cons, List.any_cons, List.any_nil, hhigh u hu, hlow v hv, Bool.or_false,
        Bool.false_and]
  | case4 u v rest hpair ih =>
      rw [characters, if_neg hpair, List.all_cons, ih]
      simp only [List.all_cons, List.any_cons, List.any_nil, Bool.or_false]

/-- What is trimmed is not trimmed further. -/
theorem trim_trim (s : JsString) : s.trim.trim = s.trim := by
  have hfirst : s.trim.dropWhile isSpace = s.trim := by
    apply List.dropWhile_eq_self_iff.mpr
    intro hpos
    have hfront : s.trim <+: s.dropWhile isSpace := List.rdropWhile_prefix isSpace _
    rw [hfront.getElem hpos]
    exact List.dropWhile_get_zero_not isSpace s _
  have hlast : s.trim.rdropWhile isSpace = s.trim := List.rdropWhile_idempotent isSpace _
  change (s.trim.dropWhile isSpace).rdropWhile isSpace = s.trim
  rw [hfirst, hlast]

theorem dropWhile_surrounded {front : JsString} (hfront : ∀ u ∈ front, isSpace u = true)
    (text : JsString) : (front ++ text).dropWhile isSpace = text.dropWhile isSpace := by
  rw [List.dropWhile_append, List.dropWhile_eq_nil_iff.mpr hfront]
  rfl

/-- White space on either side is trimmed away. -/
theorem trim_surrounded {front back : JsString} (hfront : ∀ u ∈ front, isSpace u = true)
    (hback : ∀ u ∈ back, isSpace u = true) : trim (front ++ s ++ back) = s.trim := by
  have hreverse : ∀ u ∈ back.reverse, isSpace u = true := fun u hu =>
    hback u (List.mem_reverse.mp hu)
  rw [trim, trim, List.append_assoc, dropWhile_surrounded hfront, List.dropWhile_append]
  split
  · rename_i hspaces
    rw [List.isEmpty_iff.mp hspaces, List.dropWhile_eq_nil_iff.mpr hback]
  · rw [List.reverse_append, dropWhile_surrounded hreverse]

/-- Text without white space is not trimmed. -/
theorem trim_eq_self (h : ∀ u ∈ s, isSpace u = false) : s.trim = s := by
  have hdrop : ∀ t : JsString, (∀ u ∈ t, isSpace u = false) → t.dropWhile isSpace = t := by
    intro t ht
    cases t with
    | nil => rfl
    | cons u t =>
        rw [List.dropWhile_cons, ht u List.mem_cons_self]
        rfl
  rw [trim, hdrop s h, hdrop _ fun u hu => h u (List.mem_reverse.mp hu), List.reverse_reverse]

end

end JsString
