import ArchNameService.Lib.Decimal
import ArchNameService.Lib.Hex

/-!
# JSON text

`JSON.stringify` and `JSON.parse`. The numbers are a parameter: what is written of one is
a numeral, and reading it back may give another number. An object has its members in the
order of the text, so a key that is written twice occurs twice.
-/

namespace JsString

/-! ## Numerals -/

/-- The characters of a numeral. -/
def isNumberUnit (u : UInt16) : Bool :=
  isDigit u || u == 0x2D || u == 0x2B || u == 0x2E || u == 0x65 || u == 0x45

def isDigits (s : JsString) : Bool := !s.isEmpty && s.all isDigit

def dropSign : JsString → JsString
  | 0x2D :: s | 0x2B :: s => s
  | s => s

def dropMinus : JsString → JsString
  | 0x2D :: s => s
  | s => s

def isExponent : JsString → Bool
  | [] => true
  | u :: s => (u == 0x65 || u == 0x45) && isDigits (dropSign s)

def isFraction : JsString → Bool
  | 0x2E :: s => isDigits (s.takeWhile isDigit) && isExponent (s.dropWhile isDigit)
  | s => isExponent s

/-- A number of the JSON grammar: there is no leading zero and no plus sign. -/
def isNumeral (s : JsString) : Bool :=
  let whole := (dropMinus s).takeWhile isDigit
  isDigits whole && (whole.length == 1 || whole.head? != some 0x30) &&
    isFraction ((dropMinus s).dropWhile isDigit)

/-- The text of a number is a numeral. -/
theorem isNumeral_decimal (n : Nat) : isNumeral (decimal n) = true := by
  by_cases hn : n = 0
  · subst hn
    rfl
  have hall := decimal_isDigit n
  have hhead := decimal_head hn
  have hdigits : isDigits (decimal n) = true := by
    refine Bool.and_eq_true_iff.mpr ⟨?_, List.all_eq_true.mpr hall⟩
    rw [List.isEmpty_eq_false_iff.mpr (decimal_ne_nil n)]
    rfl
  have htake : (decimal n).takeWhile isDigit = decimal n := List.takeWhile_eq_self_iff.mpr hall
  have hdrop : (decimal n).dropWhile isDigit = [] := List.dropWhile_eq_nil_iff.mpr hall
  have hunsigned : dropMinus (decimal n) = decimal n := by
    unfold dropMinus
    split
    · rename_i s hs
      rw [hs] at hall
      cases hall 0x2D List.mem_cons_self
    · rfl
  simp only [isNumeral, hunsigned, htake, hdrop, hdigits, bne_iff_ne.mpr hhead, Bool.or_true,
    Bool.and_true]
  rfl

/-- Numbers that are written in JSON. -/
class JsonNumber (ν : Type) where
  ofText : JsString → ν
  toText : ν → JsString
  isFinite : ν → Bool
  toText_numeral : ∀ n, isFinite n = true → isNumeral (toText n) = true

/-! ## Values -/

inductive Json (ν : Type) where
  | null
  | bool (b : Bool)
  | number (n : ν)
  | string (s : JsString)
  | array (items : List (Json ν))
  | object (members : List (JsString × Json ν))

namespace Json

def nullText : JsString := [0x6E, 0x75, 0x6C, 0x6C]
def trueText : JsString := [0x74, 0x72, 0x75, 0x65]
def falseText : JsString := [0x66, 0x61, 0x6C, 0x73, 0x65]

def quoteMark : UInt16 := 0x22
def backslash : UInt16 := 0x5C
def comma : UInt16 := 0x2C
def colon : UInt16 := 0x3A

/-! ## Writing -/

/-- `\u` and four digits. -/
def unicodeEscape (u : UInt16) : JsString :=
  let n := u.toNat
  [backslash, 0x75, hexChar (n / 4096), hexChar (n / 256 % 16), hexChar (n / 16 % 16),
    hexChar (n % 16)]

/-- The letter of an escape, and the character that it stands for. -/
def escapes : List (UInt16 × UInt16) :=
  [(0x62, 0x08), (0x74, 0x09), (0x6E, 0x0A), (0x66, 0x0C), (0x72, 0x0D), (0x22, 0x22), (0x5C, 0x5C)]

def quoteUnit (u : UInt16) : JsString :=
  match escapes.find? (·.2 == u) with
  | some (letter, _) => [backslash, letter]
  | none => if u < 0x20 || isHighSurrogate u || isLowSurrogate u then unicodeEscape u else [u]

/-- A surrogate pair is written as it is. -/
def quoteUnits : JsString → JsString
  | [] => []
  | [u] => quoteUnit u
  | u :: v :: rest =>
      if isHighSurrogate u && isLowSurrogate v then u :: v :: quoteUnits rest
      else quoteUnit u ++ quoteUnits (v :: rest)

def quote (s : JsString) : JsString := quoteMark :: (quoteUnits s ++ [quoteMark])

section
variable {ν : Type} [JsonNumber ν]

mutual

/-- `JSON.stringify(value)`. -/
def write : Json ν → JsString
  | .null => nullText
  | .bool b => if b then trueText else falseText
  | .number n => if JsonNumber.isFinite n then JsonNumber.toText n else nullText
  | .string s => quote s
  | .array [] => [0x5B, 0x5D]
  | .array (v :: items) => 0x5B :: (write v ++ writeItems items)
  | .object [] => [0x7B, 0x7D]
  | .object ((key, v) :: members) =>
      0x7B :: (quote key ++ colon :: (write v ++ writeMembers members))

def writeItems : List (Json ν) → JsString
  | [] => [0x5D]
  | v :: items => comma :: (write v ++ writeItems items)

def writeMembers : List (JsString × Json ν) → JsString
  | [] => [0x7D]
  | (key, v) :: members => comma :: (quote key ++ colon :: (write v ++ writeMembers members))

end

/-! ## Reading -/

def skipSpace (s : JsString) : JsString :=
  s.dropWhile fun u => u == 0x20 || u == 0x09 || u == 0x0A || u == 0x0D

/-- The character of four hex digits. -/
def ofHexDigits (a b c d : UInt16) : Option UInt16 :=
  if [a, b, c, d].all isHexDigit then
    some (UInt16.ofNat (((hexDigit a * 16 + hexDigit b) * 16 + hexDigit c) * 16 + hexDigit d))
  else none

/-- The escape of a solidus is never written. -/
def unescape (letter : UInt16) : Option UInt16 :=
  if letter = 0x2F then some 0x2F else escapes.lookup letter

/-- The rest of a string, after its opening mark. -/
def readString : JsString → Option (JsString × JsString)
  | [] => none
  | u :: s =>
      if u = quoteMark then some ([], s)
      else if u = backslash then
        match s with
        | [] => none
        | letter :: s =>
            if letter = 0x75 then
              match s with
              | a :: b :: c :: d :: s => do
                  let v ← ofHexDigits a b c d
                  let (t, s) ← readString s
                  pure (v :: t, s)
              | _ => none
            else do
              let v ← unescape letter
              let (t, s) ← readString s
              pure (v :: t, s)
      else if u < 0x20 then none
      else do
        let (t, s) ← readString s
        pure (u :: t, s)

def readWord (word : JsString) (v : Json ν) (s : JsString) : Option (Json ν × JsString) :=
  if startsWith word s then some (v, s.drop word.length) else none

def readNumber (s : JsString) : Option (Json ν × JsString) :=
  let token := s.takeWhile isNumberUnit
  if isNumeral token then some (.number (JsonNumber.ofText token), s.dropWhile isNumberUnit)
  else none

/-- The key of a member, and the colon. -/
def readKey (s : JsString) : Option (JsString × JsString) :=
  match skipSpace s with
  | [] => none
  | u :: s =>
      if u = quoteMark then do
        let (key, s) ← readString s
        match skipSpace s with
        | [] => none
        | u :: s => if u = colon then some (key, s) else none
      else none

mutual

def readValue : Nat → JsString → Option (Json ν × JsString)
  | 0, _ => none
  | fuel + 1, s =>
      match skipSpace s with
      | [] => none
      | u :: s =>
          if u = quoteMark then do
            let (t, s) ← readString s
            pure (.string t, s)
          else if u = 0x5B then
            if (skipSpace s).head? = some 0x5D then some (.array [], (skipSpace s).tail)
            else do
              let (v, s) ← readValue fuel s
              let (items, s) ← readItems fuel s
              pure (.array (v :: items), s)
          else if u = 0x7B then
            if (skipSpace s).head? = some 0x7D then some (.object [], (skipSpace s).tail)
            else do
              let (key, s) ← readKey s
              let (v, s) ← readValue fuel s
              let (members, s) ← readMembers fuel s
              pure (.object ((key, v) :: members), s)
          else if u = 0x6E then readWord nullText .null (u :: s)
          else if u = 0x74 then readWord trueText (.bool true) (u :: s)
          else if u = 0x66 then readWord falseText (.bool false) (u :: s)
          else readNumber (u :: s)

/-- The items that follow one of an array. -/
def readItems : Nat → JsString → Option (List (Json ν) × JsString)
  | 0, _ => none
  | fuel + 1, s =>
      match skipSpace s with
      | [] => none
      | u :: s =>
          if u = 0x5D then some ([], s)
          else if u = comma then do
            let (v, s) ← readValue fuel s
            let (items, s) ← readItems fuel s
            pure (v :: items, s)
          else none

/-- The members that follow one of an object. -/
def readMembers : Nat → JsString → Option (List (JsString × Json ν) × JsString)
  | 0, _ => none
  | fuel + 1, s =>
      match skipSpace s with
      | [] => none
      | u :: s =>
          if u = 0x7D then some ([], s)
          else if u = comma then do
            let (key, s) ← readKey s
            let (v, s) ← readValue fuel s
            let (members, s) ← readMembers fuel s
            pure ((key, v) :: members, s)
          else none

end

/-- `JSON.parse(text)`; it throws at `none`. Every step reads a character, so as many steps as
there are characters, and one for the end, are enough. -/
def parse (text : JsString) : Option (Json ν) :=
  match readValue (text.length + 1) text with
  | some (v, rest) => if skipSpace rest = [] then some v else none
  | none => none

/-! ## Reading what was written -/

mutual

/-- The value after its numbers have been written and read. -/
def reread : Json ν → Json ν
  | .null => .null
  | .bool b => .bool b
  | .number n =>
      if JsonNumber.isFinite n then .number (JsonNumber.ofText (JsonNumber.toText n)) else .null
  | .string s => .string s
  | .array items => .array (rereadItems items)
  | .object members => .object (rereadMembers members)

def rereadItems : List (Json ν) → List (Json ν)
  | [] => []
  | v :: items => reread v :: rereadItems items

def rereadMembers : List (JsString × Json ν) → List (JsString × Json ν)
  | [] => []
  | (key, v) :: members => (key, reread v) :: rereadMembers members

end

/-- A numeral ends where the text goes on with something else. -/
def Ends (s : JsString) : Prop := ∀ u ∈ s.head?, isNumberUnit u = false

section Strings
variable {u : UInt16} {s rest : JsString}

theorem ofHexDigits_escape (u : UInt16) :
    ofHexDigits (hexChar (u.toNat / 4096)) (hexChar (u.toNat / 256 % 16))
      (hexChar (u.toNat / 16 % 16)) (hexChar (u.toNat % 16)) = some u := by
  have hdigit : ∀ d < 16, isHexDigit (hexChar d) = true ∧ hexDigit (hexChar d) = d := by
    intro d hd
    exact hexDigit_of_lower hd (lowerAscii_hexChar hd)
  have hlt := u.toNat_lt
  obtain ⟨ha, hva⟩ := hdigit (u.toNat / 4096) (by omega)
  obtain ⟨hb, hvb⟩ := hdigit (u.toNat / 256 % 16) (by omega)
  obtain ⟨hc, hvc⟩ := hdigit (u.toNat / 16 % 16) (by omega)
  obtain ⟨hd, hvd⟩ := hdigit (u.toNat % 16) (by omega)
  have hvalue : ((u.toNat / 4096 * 16 + u.toNat / 256 % 16) * 16 + u.toNat / 16 % 16) * 16 +
      u.toNat % 16 = u.toNat := by omega
  simp only [ofHexDigits, List.all_cons, ha, hb, hc, hd, List.all_nil, Bool.and_true, if_true, hva,
    hvb, hvc, hvd, hvalue, UInt16.ofNat_toNat]

theorem readString_mark (s : JsString) : readString (quoteMark :: s) = some ([], s) := by
  rw [readString.eq_def]
  exact if_pos rfl

theorem readString_plain (hquote : u ≠ quoteMark) (hslash : u ≠ backslash) (hcontrol : ¬ u < 0x20)
    (s : JsString) : readString (u :: s) = (readString s).map fun (t, rest) => (u :: t, rest) := by
  rw [readString.eq_def]
  simp only [if_neg hquote, if_neg hslash, if_neg hcontrol]
  cases readString s <;> rfl

theorem readString_letter {letter : UInt16} (hletter : letter ≠ 0x75)
    (hunescape : unescape letter = some u) (s : JsString) :
    readString (backslash :: letter :: s) = (readString s).map fun (t, rest) => (u :: t, rest) := by
  have hback : backslash ≠ quoteMark := by decide
  rw [readString.eq_def]
  simp only [if_neg hback, if_neg hletter, if_true, hunescape]
  cases readString s <;> rfl

theorem readString_unicode (u : UInt16) (s : JsString) :
    readString (unicodeEscape u ++ s) = (readString s).map fun (t, rest) => (u :: t, rest) := by
  have hback : backslash ≠ quoteMark := by decide
  rw [unicodeEscape, readString.eq_def]
  simp only [List.cons_append, List.nil_append, if_neg hback, if_true, ofHexDigits_escape]
  cases readString s <;> rfl

/-- A character that is written with an escape is read back. -/
theorem readString_quoteUnit (u : UInt16) (s : JsString) :
    readString (quoteUnit u ++ s) = (readString s).map fun (t, rest) => (u :: t, rest) := by
  unfold quoteUnit
  split
  · rename_i letter c hfind
    have hread : escapes.all (fun p => p.1 != 0x75 && unescape p.1 == some p.2) = true := rfl
    have hpair := List.all_eq_true.mp hread _ (List.mem_of_find?_eq_some hfind)
    rw [Bool.and_eq_true, bne_iff_ne, beq_iff_eq] at hpair
    obtain ⟨hletter, hunescape⟩ := hpair
    have hc : c = u := by simpa using List.find?_some hfind
    subst hc
    exact readString_letter hletter hunescape s
  · rename_i hfind
    split
    · exact readString_unicode u s
    · rename_i hplain
      have hne : ∀ p ∈ escapes, p.2 ≠ u := fun p hp hu => by
        simpa [hu] using List.find?_eq_none.mp hfind p hp
      have hquote : u ≠ quoteMark := fun h => hne (0x22, 0x22) (by decide) h.symm
      have hslash : u ≠ backslash := fun h => hne (0x5C, 0x5C) (by decide) h.symm
      have hcontrol : ¬ u < 0x20 := fun h => hplain (by simp [h])
      exact readString_plain hquote hslash hcontrol s

theorem readString_surrogate (h : (isHighSurrogate u || isLowSurrogate u) = true) (s : JsString) :
    readString (u :: s) = (readString s).map fun (t, rest) => (u :: t, rest) := by
  have hlt : 0xD800 ≤ u.toNat := by
    simp only [isHighSurrogate, isLowSurrogate, Bool.or_eq_true, Bool.and_eq_true, decide_eq_true_eq,
      UInt16.le_iff_toNat_le, UInt16.reduceToNat] at h
    omega
  have hne : ∀ v : UInt16, v.toNat < 0xD800 → u ≠ v := fun v hv h => by
    subst h
    omega
  have hcontrol : ¬ u < 0x20 := by
    have hspace : (0x20 : UInt16).toNat = 32 := rfl
    rw [UInt16.lt_iff_toNat_lt]
    omega
  exact readString_plain (hne quoteMark (by decide)) (hne backslash (by decide)) hcontrol s

/-- A string is read as it was written. -/
theorem readString_quoteUnits (s rest : JsString) :
    readString (quoteUnits s ++ quoteMark :: rest) = some (s, rest) := by
  induction s using quoteUnits.induct with
  | case1 => exact readString_mark rest
  | case2 u =>
      rw [quoteUnits, readString_quoteUnit, readString_mark]
      rfl
  | case3 u v s hpair ih =>
      obtain ⟨hu, hv⟩ := Bool.and_eq_true_iff.mp hpair
      rw [quoteUnits, if_pos hpair, List.cons_append, List.cons_append,
        readString_surrogate (by rw [hu, Bool.true_or]),
        readString_surrogate (by rw [hv, Bool.or_true]), ih]
      rfl
  | case4 u v s hpair ih =>
      rw [quoteUnits, if_neg hpair, List.append_assoc, readString_quoteUnit, ih]
      rfl

end Strings

/-! ### Numerals -/

section Numerals
variable {s rest : JsString}

theorem isNumberUnit_digit {u : UInt16} (h : isDigit u = true) : isNumberUnit u = true := by
  simp only [isNumberUnit, h, Bool.true_or]

theorem isDigits_units (h : isDigits s = true) : s ≠ [] ∧ ∀ u ∈ s, isDigit u = true := by
  obtain ⟨hne, hall⟩ := Bool.and_eq_true_iff.mp h
  refine ⟨?_, List.all_eq_true.mp hall⟩
  rintro rfl
  cases hne

theorem isExponent_units (h : isExponent s = true) : ∀ u ∈ s, isNumberUnit u = true := by
  cases s with
  | nil => exact List.forall_mem_nil _
  | cons e s =>
      obtain ⟨he, hdigits⟩ := Bool.and_eq_true_iff.mp h
      have hunit : isNumberUnit e = true := by
        simp only [Bool.or_eq_true, beq_iff_eq] at he
        rcases he with rfl | rfl <;> rfl
      have hrest : ∀ u ∈ s, isNumberUnit u = true := by
        unfold dropSign at hdigits
        split at hdigits
        · exact List.forall_mem_cons.mpr
            ⟨rfl, fun u hu => isNumberUnit_digit ((isDigits_units hdigits).2 u hu)⟩
        · exact List.forall_mem_cons.mpr
            ⟨rfl, fun u hu => isNumberUnit_digit ((isDigits_units hdigits).2 u hu)⟩
        · exact fun u hu => isNumberUnit_digit ((isDigits_units hdigits).2 u hu)
      exact List.forall_mem_cons.mpr ⟨hunit, hrest⟩

/-- A run of digits, and what follows it. -/
theorem units_of_split {p : UInt16 → Bool} (hdigits : isDigits (s.takeWhile p) = true)
    (hrest : ∀ u ∈ s.dropWhile p, isNumberUnit u = true) : ∀ u ∈ s, isNumberUnit u = true := by
  intro u hu
  rw [← List.takeWhile_append_dropWhile (p := p) (l := s)] at hu
  rcases List.mem_append.mp hu with hu | hu
  · exact isNumberUnit_digit ((isDigits_units hdigits).2 u hu)
  · exact hrest u hu

theorem isFraction_units (h : isFraction s = true) : ∀ u ∈ s, isNumberUnit u = true := by
  unfold isFraction at h
  split at h
  · obtain ⟨hdigits, hexponent⟩ := Bool.and_eq_true_iff.mp h
    exact List.forall_mem_cons.mpr ⟨rfl, units_of_split hdigits (isExponent_units hexponent)⟩
  · exact isExponent_units h

/-- A numeral starts with a digit or a minus sign. -/
theorem isNumeral_units (h : isNumeral s = true) : ∃ u t, s = u :: t ∧
    (isDigit u = true ∨ u = 0x2D) ∧ ∀ v ∈ s, isNumberUnit v = true := by
  have hunsigned : ∀ {t : JsString}, isDigits (t.takeWhile isDigit) = true →
      isFraction (t.dropWhile isDigit) = true →
      ∃ u t', t = u :: t' ∧ isDigit u = true ∧ ∀ v ∈ t, isNumberUnit v = true := by
    intro t hdigits hfraction
    have hunits := units_of_split hdigits (isFraction_units hfraction)
    cases t with
    | nil => cases hdigits
    | cons u t =>
        refine ⟨u, t, rfl, ?_, hunits⟩
        by_contra hu
        rw [List.takeWhile_cons, if_neg hu] at hdigits
        cases hdigits
  unfold isNumeral dropMinus at h
  split at h
  · simp only [Bool.and_eq_true] at h
    obtain ⟨-, -, -, -, hunits⟩ := hunsigned h.1.1 h.2
    exact ⟨_, _, rfl, .inr rfl, List.forall_mem_cons.mpr ⟨rfl, hunits⟩⟩
  · simp only [Bool.and_eq_true] at h
    obtain ⟨u, t, hs, hu, hunits⟩ := hunsigned h.1.1 h.2
    exact ⟨u, t, hs, .inl hu, hunits⟩

theorem readNumber_numeral (h : isNumeral s = true) (hends : Ends rest) :
    readNumber (s ++ rest) = some (.number (JsonNumber.ofText s : ν), rest) := by
  obtain ⟨-, -, -, -, hunits⟩ := isNumeral_units h
  have hstop : rest.takeWhile isNumberUnit = [] ∧ rest.dropWhile isNumberUnit = rest := by
    cases rest with
    | nil => exact ⟨rfl, rfl⟩
    | cons u rest =>
        have hu : isNumberUnit u = false := hends u rfl
        rw [List.takeWhile_cons, List.dropWhile_cons, hu]
        exact ⟨rfl, rfl⟩
  have htoken : (s ++ rest).takeWhile isNumberUnit = s := by
    rw [List.takeWhile_append_of_pos hunits, hstop.1, List.append_nil]
  have hrest : (s ++ rest).dropWhile isNumberUnit = rest := by
    rw [List.dropWhile_append_of_pos hunits, hstop.2]
  simp only [readNumber, htoken, hrest, h, if_true]

end Numerals

/-! ### Values -/

/-- What is written of a value starts with none of the characters that end or separate values. -/
def Starts (u : UInt16) : Prop := 0x22 ≤ u ∧ u ≠ 0x5D

theorem skipSpace_starts {u : UInt16} (h : 0x22 ≤ u) (s : JsString) : skipSpace (u :: s) = u :: s := by
  have hu : 0x22 ≤ u.toNat := UInt16.le_iff_toNat_le.mp h
  have hne : ∀ v : UInt16, v.toNat < 0x22 → (u == v) = false := fun v hv =>
    beq_false_of_ne fun h => by
      subst h
      omega
  rw [skipSpace, List.dropWhile_cons, hne 0x20 (by decide), hne 0x09 (by decide),
    hne 0x0A (by decide), hne 0x0D (by decide)]
  rfl

theorem numeral_starts {u : UInt16} (h : isDigit u = true ∨ u = 0x2D) :
    Starts u ∧ u ≠ quoteMark ∧ u ≠ 0x5B ∧ u ≠ 0x7B ∧ u ≠ 0x6E ∧ u ≠ 0x74 ∧ u ≠ 0x66 := by
  simp only [isDigit, Starts, quoteMark, Bool.and_eq_true, decide_eq_true_eq, ne_eq,
    UInt16.le_iff_toNat_le, UInt16.reduceToNat, ← UInt16.toNat_inj] at h ⊢
  omega

theorem write_starts (v : Json ν) : ∃ u s, write v = u :: s ∧ Starts u := by
  have hword : ∃ u s, nullText = u :: s ∧ Starts u := ⟨_, _, rfl, by unfold Starts; decide⟩
  cases v with
  | null => exact ⟨_, _, rfl, by unfold Starts; decide⟩
  | bool b => cases b <;> exact ⟨_, _, rfl, by unfold Starts; decide⟩
  | number n =>
      rw [write]
      split
      · rename_i hfinite
        obtain ⟨u, s, hs, hu, -⟩ := isNumeral_units (JsonNumber.toText_numeral n hfinite)
        exact ⟨u, s, hs, (numeral_starts hu).1⟩
      · exact hword
  | string s => exact ⟨_, _, rfl, by unfold Starts; decide⟩
  | array items => cases items <;> exact ⟨_, _, rfl, by unfold Starts; decide⟩
  | object members => cases members <;> exact ⟨_, _, rfl, by unfold Starts; decide⟩

theorem readValue_string (fuel : Nat) (s rest : JsString) :
    readValue (fuel + 1) (quote s ++ rest) = some ((.string s : Json ν), rest) := by
  rw [readValue, quote, List.cons_append, skipSpace_starts (by decide)]
  simp only [if_true, List.append_assoc, List.singleton_append, readString_quoteUnits]
  rfl

theorem readKey_quote (key rest : JsString) :
    readKey (quote key ++ colon :: rest) = some (key, rest) := by
  rw [readKey, quote, List.cons_append, skipSpace_starts (by decide)]
  simp only [if_true, List.append_assoc, List.singleton_append, readString_quoteUnits]
  simp only [Option.bind_eq_bind, Option.bind_some, skipSpace_starts (by decide : 0x22 ≤ colon),
    if_true]

theorem ends_items (items : List (Json ν)) (rest : JsString) : Ends (writeItems items ++ rest) := by
  intro u hu
  cases items <;> (cases hu; rfl)

theorem ends_members (members : List (JsString × Json ν)) (rest : JsString) :
    Ends (writeMembers members ++ rest) := by
  intro u hu
  cases members <;> (cases hu; rfl)

theorem readValue_null (fuel : Nat) (rest : JsString) :
    readValue (fuel + 1) (nullText ++ rest) = some ((.null : Json ν), rest) := rfl

theorem readValue_numeral {s rest : JsString} (fuel : Nat) (h : isNumeral s = true)
    (hends : Ends rest) :
    readValue (fuel + 1) (s ++ rest) = some (.number (JsonNumber.ofText s : ν), rest) := by
  obtain ⟨u, t, rfl, hu, -⟩ := isNumeral_units h
  obtain ⟨hstarts, hquote, hbracket, hbrace, hn, ht, hf⟩ := numeral_starts hu
  have hnumber := readNumber_numeral (ν := ν) h hends
  rw [List.cons_append] at hnumber ⊢
  rw [readValue, skipSpace_starts hstarts.1]
  simp only [if_neg hquote, if_neg hbracket, if_neg hbrace, if_neg hn, if_neg ht, if_neg hf, hnumber]

theorem readValue_array {s rest : JsString} (fuel : Nat) (h : ∃ u t, s = u :: t ∧ Starts u) :
    readValue (fuel + 1) (0x5B :: (s ++ rest)) =
      (readValue fuel (s ++ rest)).bind fun v =>
        (readItems fuel v.2).bind fun items => some ((.array (v.1 :: items.1) : Json ν), items.2) := by
  obtain ⟨u, t, rfl, hstarts⟩ := h
  have hend : ¬ u = 0x5D := hstarts.2
  rw [readValue, skipSpace_starts (by decide), List.cons_append]
  simp only [skipSpace_starts hstarts.1, List.head?_cons, Option.some.injEq, if_neg hend]
  rfl

theorem readValue_object {key s : JsString} (fuel : Nat) :
    readValue (fuel + 1) (0x7B :: (quote key ++ colon :: s)) =
      (readValue fuel s).bind fun v =>
        (readMembers fuel v.2).bind fun members =>
          some ((.object ((key, v.1) :: members.1) : Json ν), members.2) := by
  have hkey := readKey_quote key s
  rw [readValue, skipSpace_starts (by decide)]
  rw [quote, List.cons_append] at hkey ⊢
  have hquote : skipSpace (quoteMark :: (quoteUnits key ++ [quoteMark] ++ colon :: s)) = _ :=
    skipSpace_starts (by decide) _
  have hend : ¬ quoteMark = 0x7D := by decide
  simp only [hquote, List.head?_cons, Option.some.injEq, if_neg hend, hkey]
  rfl

theorem readItems_comma (fuel : Nat) (s : JsString) :
    readItems (fuel + 1) (comma :: s) =
      (readValue fuel s).bind fun v =>
        (readItems fuel v.2).bind fun items => some ((v.1 :: items.1 : List (Json ν)), items.2) := by
  rw [readItems, skipSpace_starts (by decide)]
  rfl

theorem readMembers_comma (fuel : Nat) (key s : JsString) :
    readMembers (fuel + 1) (comma :: (quote key ++ colon :: s)) =
      (readValue fuel s).bind fun v =>
        (readMembers fuel v.2).bind fun members =>
          some (((key, v.1) :: members.1 : List (JsString × Json ν)), members.2) := by
  rw [readMembers, skipSpace_starts (by decide)]
  have hend : ¬ comma = 0x7D := by decide
  simp only [if_neg hend, if_true, readKey_quote]
  rfl

mutual

/-- The steps that are left bound the text that is left. -/
theorem readValue_write (v : Json ν) (fuel : Nat) (rest : JsString) (hends : Ends rest)
    (hfuel : (write v).length ≤ fuel) : readValue fuel (write v ++ rest) = some (reread v, rest) := by
  cases fuel with
  | zero =>
      obtain ⟨u, s, hs, -⟩ := write_starts v
      rw [hs] at hfuel
      cases hfuel
  | succ fuel =>
      cases v with
      | null => exact readValue_null fuel rest
      | bool b => cases b <;> rfl
      | number n =>
          rw [write, reread]
          split
          · exact readValue_numeral fuel (JsonNumber.toText_numeral n ‹_›) hends
          · exact readValue_null fuel rest
      | string s => exact readValue_string fuel s rest
      | array items =>
          cases items with
          | nil => rfl
          | cons v items =>
              rw [write, List.length_cons, List.length_append, Nat.succ_le_succ_iff] at hfuel
              have hv := readValue_write v fuel _ (ends_items items rest) (by omega)
              have hitems := readItems_write items fuel rest (by omega)
              rw [write, List.cons_append, List.append_assoc, readValue_array fuel (write_starts v), hv,
                Option.bind_some, hitems]
              rfl
      | object members =>
          cases members with
          | nil => rfl
          | cons member members =>
              obtain ⟨key, v⟩ := member
              rw [write, List.length_cons, List.length_append, List.length_cons, List.length_append,
                Nat.succ_le_succ_iff] at hfuel
              have hv := readValue_write v fuel _ (ends_members members rest) (by omega)
              have hmembers := readMembers_write members fuel rest (by omega)
              rw [write, List.cons_append, List.append_assoc, List.cons_append, List.append_assoc,
                readValue_object, hv, Option.bind_some, hmembers]
              rfl

theorem readItems_write (items : List (Json ν)) (fuel : Nat) (rest : JsString)
    (hfuel : (writeItems items).length ≤ fuel) :
    readItems fuel (writeItems items ++ rest) = some (rereadItems items, rest) := by
  cases fuel with
  | zero => cases items <;> cases hfuel
  | succ fuel =>
      cases items with
      | nil => rfl
      | cons v items =>
          rw [writeItems, List.length_cons, List.length_append, Nat.succ_le_succ_iff] at hfuel
          have hv := readValue_write v fuel _ (ends_items items rest) (by omega)
          have hitems := readItems_write items fuel rest (by omega)
          rw [writeItems, List.cons_append, List.append_assoc, readItems_comma, hv, Option.bind_some,
            hitems]
          rfl

theorem readMembers_write (members : List (JsString × Json ν)) (fuel : Nat) (rest : JsString)
    (hfuel : (writeMembers members).length ≤ fuel) :
    readMembers fuel (writeMembers members ++ rest) = some (rereadMembers members, rest) := by
  cases fuel with
  | zero => cases members <;> cases hfuel
  | succ fuel =>
      cases members with
      | nil => rfl
      | cons member members =>
          obtain ⟨key, v⟩ := member
          rw [writeMembers, List.length_cons, List.length_append, List.length_cons,
            List.length_append, Nat.succ_le_succ_iff] at hfuel
          have hv := readValue_write v fuel _ (ends_members members rest) (by omega)
          have hmembers := readMembers_write members fuel rest (by omega)
          rw [writeMembers, List.cons_append, List.append_assoc, List.cons_append, List.append_assoc,
            readMembers_comma, hv, Option.bind_some, hmembers]
          rfl

end

/-- What was written is read back, up to the numbers. -/
theorem parse_write (v : Json ν) : parse (write v) = some (reread v) := by
  have hread := readValue_write v ((write v).length + 1) [] (by rintro _ ⟨⟩)
    (Nat.le_succ _)
  rw [List.append_nil] at hread
  rw [parse, hread]
  rfl

end

end Json

end JsString
