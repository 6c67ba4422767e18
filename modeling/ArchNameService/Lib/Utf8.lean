import ArchNameService.Lib.Bytes
import ArchNameService.Lib.Text
import Mathlib.Tactic.Tauto

/-!
# Scalar values in UTF-8 and UTF-16

A scalar value has one well-formed byte sequence. The check of a byte string and
the decoder of a platform string both pass over it as one step, so well-formed
bytes are exactly those of a list of scalar values, and what is read from them is
written back as the same bytes.
-/

namespace JsString

/-! ## Characters -/

def IsScalar (c : Nat) : Prop := c < 0xD800 ∨ 0xE000 ≤ c ∧ c < 0x110000

/-- A byte of a character besides its first one. -/
def IsTail (b : UInt8) : Prop := 0x80 ≤ b.toNat ∧ b.toNat ≤ 0xBF

/-- The well-formed byte sequence of a scalar value. -/
inductive Utf8Char : Nat → List UInt8 → Prop
  | one {a : UInt8} (ha : a.toNat < 0x80) : Utf8Char a.toNat [a]
  | two {a b : UInt8} (ha : 0xC2 ≤ a.toNat ∧ a.toNat ≤ 0xDF) (hb : IsTail b) :
      Utf8Char ((a.toNat - 0xC0) * 0x40 + (b.toNat - 0x80)) [a, b]
  | three {a b c : UInt8} (ha : 0xE0 ≤ a.toNat ∧ a.toNat ≤ 0xEF) (hb : IsTail b)
      (hlower : a.toNat = 0xE0 → 0xA0 ≤ b.toNat) (hupper : a.toNat = 0xED → b.toNat ≤ 0x9F)
      (hc : IsTail c) :
      Utf8Char (((a.toNat - 0xE0) * 0x40 + (b.toNat - 0x80)) * 0x40 + (c.toNat - 0x80)) [a, b, c]
  | four {a b c d : UInt8} (ha : 0xF0 ≤ a.toNat ∧ a.toNat ≤ 0xF4) (hb : IsTail b)
      (hlower : a.toNat = 0xF0 → 0x90 ≤ b.toNat) (hupper : a.toNat = 0xF4 → b.toNat ≤ 0x8F)
      (hc : IsTail c) (hd : IsTail d) :
      Utf8Char ((((a.toNat - 0xF0) * 0x40 + (b.toNat - 0x80)) * 0x40 + (c.toNat - 0x80)) * 0x40 +
        (d.toNat - 0x80)) [a, b, c, d]

section
variable {a b c : UInt8} {x : Nat} {w : List UInt8}

/-! ## The two machines -/

theorem ofNat_eq {n : Nat} (h : n = a.toNat) : UInt8.ofNat n = a := by
  rw [h, UInt8.ofNat_toNat]

theorem Utf8Char.eq (h : Utf8Char x w) : IsScalar x ∧ utf8Bytes x = w := by
  unfold IsScalar
  cases h with
  | @one a ha =>
      refine ⟨.inl (Nat.lt_trans ha (by decide)), ?_⟩
      rw [utf8Bytes, if_pos ha, UInt8.ofNat_toNat]
  | @two a b ha hb =>
      unfold IsTail at hb
      refine ⟨by omega, ?_⟩
      rw [utf8Bytes, if_neg (by omega), if_pos (by omega), ofNat_eq (a := a) (by omega),
        ofNat_eq (a := b) (by omega)]
  | @three a b c ha hb hlower hupper hc =>
      unfold IsTail at hb hc
      refine ⟨by omega, ?_⟩
      rw [utf8Bytes, if_neg (by omega), if_neg (by omega), if_pos (by omega),
        ofNat_eq (a := a) (by omega), ofNat_eq (a := b) (by omega), ofNat_eq (a := c) (by omega)]
  | @four a b c d ha hb hlower hupper hc hd =>
      unfold IsTail at hb hc hd
      refine ⟨by omega, ?_⟩
      rw [utf8Bytes, if_neg (by omega), if_neg (by omega), if_neg (by omega),
        ofNat_eq (a := a) (by omega), ofNat_eq (a := b) (by omega), ofNat_eq (a := c) (by omega),
        ofNat_eq (a := d) (by omega)]

/-- A byte within bounds, as the machines compare them. -/
theorem between {lower upper : UInt8} :
    lower ≤ a ∧ a ≤ upper ↔ lower.toNat ≤ a.toNat ∧ a.toNat ≤ upper.toNat := by
  rw [UInt8.le_iff_toNat_le, UInt8.le_iff_toNat_le]

theorem IsTail.between (h : IsTail b) : 0x80 ≤ b ∧ b ≤ 0xBF := JsString.between.mpr h

theorem step_two (ha : 0xC2 ≤ a.toNat ∧ a.toNat ≤ 0xDF) :
    utf8Step .start a = some (.inside 0 0x80 0xBF) := by
  have ha : 0xC2 ≤ a ∧ a ≤ 0xDF := between.mpr ha
  grind [utf8Step]

theorem step_three (ha : 0xE0 ≤ a.toNat ∧ a.toNat ≤ 0xEF) :
    utf8Step .start a = some (.inside 1 (if a = 0xE0 then 0xA0 else 0x80)
      (if a = 0xED then 0x9F else 0xBF)) := by
  have ha : 0xE0 ≤ a ∧ a ≤ 0xEF := between.mpr ha
  grind [utf8Step]

theorem step_four (ha : 0xF0 ≤ a.toNat ∧ a.toNat ≤ 0xF4) :
    utf8Step .start a = some (.inside 2 (if a = 0xF0 then 0x90 else 0x80)
      (if a = 0xF4 then 0x8F else 0xBF)) := by
  have ha : 0xF0 ≤ a ∧ a ≤ 0xF4 := between.mpr ha
  grind [utf8Step]

theorem lead_two (ha : 0xC2 ≤ a.toNat ∧ a.toNat ≤ 0xDF) :
    decodeLead a = ([], .inside (a.toNat - 0xC0) 0 0x80 0xBF) := by
  have ha : 0xC2 ≤ a ∧ a ≤ 0xDF := between.mpr ha
  grind [decodeLead]

theorem lead_three (ha : 0xE0 ≤ a.toNat ∧ a.toNat ≤ 0xEF) :
    decodeLead a = ([], .inside (a.toNat - 0xE0) 1 (if a = 0xE0 then 0xA0 else 0x80)
      (if a = 0xED then 0x9F else 0xBF)) := by
  have ha : 0xE0 ≤ a ∧ a ≤ 0xEF := between.mpr ha
  grind [decodeLead]

theorem lead_four (ha : 0xF0 ≤ a.toNat ∧ a.toNat ≤ 0xF4) :
    decodeLead a = ([], .inside (a.toNat - 0xF0) 2 (if a = 0xF0 then 0x90 else 0x80)
      (if a = 0xF4 then 0x8F else 0xBF)) := by
  have ha : 0xF0 ≤ a ∧ a ≤ 0xF4 := between.mpr ha
  grind [decodeLead]

/-- The bounds of a second byte, which two first bytes narrow. -/
theorem second_byte {l h lower upper : UInt8} (hlower : 0x80 ≤ lower.toNat)
    (hupper : upper.toNat ≤ 0xBF) :
    (if a = l then lower else 0x80) ≤ b ∧ b ≤ (if a = h then upper else 0xBF) ↔
      IsTail b ∧ (a.toNat = l.toNat → lower.toNat ≤ b.toNat) ∧
        (a.toNat = h.toNat → b.toNat ≤ upper.toNat) := by
  have hleft : (if a = l then lower else 0x80).toNat ≤ b.toNat ↔
      0x80 ≤ b.toNat ∧ (a.toNat = l.toNat → lower.toNat ≤ b.toNat) := by
    rw [UInt8.toNat_inj]
    split
    · exact ⟨fun hb => ⟨Nat.le_trans hlower hb, fun _ => hb⟩, fun hb => hb.2 ‹_›⟩
    · exact ⟨fun hb => ⟨hb, fun ha => absurd ha ‹_›⟩, fun hb => hb.1⟩
  have hright : b.toNat ≤ (if a = h then upper else 0xBF).toNat ↔
      b.toNat ≤ 0xBF ∧ (a.toNat = h.toNat → b.toNat ≤ upper.toNat) := by
    rw [UInt8.toNat_inj]
    split
    · exact ⟨fun hb => ⟨Nat.le_trans hb hupper, fun _ => hb⟩, fun hb => hb.2 ‹_›⟩
    · exact ⟨fun hb => ⟨hb, fun ha => absurd ha ‹_›⟩, fun hb => hb.1⟩
  rw [between, hleft, hright, IsTail]
  tauto

theorem second_three :
    (if a = 0xE0 then 0xA0 else 0x80) ≤ b ∧ b ≤ (if a = 0xED then 0x9F else 0xBF) ↔
      IsTail b ∧ (a.toNat = 0xE0 → 0xA0 ≤ b.toNat) ∧ (a.toNat = 0xED → b.toNat ≤ 0x9F) :=
  second_byte (by decide) (by decide)

theorem second_four :
    (if a = 0xF0 then 0x90 else 0x80) ≤ b ∧ b ≤ (if a = 0xF4 then 0x8F else 0xBF) ↔
      IsTail b ∧ (a.toNat = 0xF0 → 0x90 ≤ b.toNat) ∧ (a.toNat = 0xF4 → b.toNat ≤ 0x8F) :=
  second_byte (by decide) (by decide)

theorem Utf8Char.decode (h : Utf8Char x w) (rest : List UInt8) :
    decodeFrom .start (w ++ rest) = x :: decodeFrom .start rest := by
  cases h with
  | one ha =>
      have ha : _ < (0x80 : UInt8) := UInt8.lt_iff_toNat_lt.mpr ha
      simp only [List.cons_append, List.nil_append, decodeFrom, decodeByte, decodeLead, if_pos ha]
  | two ha hb =>
      simp only [List.cons_append, List.nil_append, decodeFrom, decodeByte, lead_two ha,
        if_pos hb.between]
  | three ha hb hlower hupper hc =>
      simp only [List.cons_append, List.nil_append, decodeFrom, decodeByte, lead_three ha,
        if_pos (second_three.mpr ⟨hb, hlower, hupper⟩), if_pos hc.between]
  | four ha hb hlower hupper hc hd =>
      simp only [List.cons_append, List.nil_append, decodeFrom, decodeByte, lead_four ha,
        if_pos (second_four.mpr ⟨hb, hlower, hupper⟩), if_pos hc.between, if_pos hd.between]

/-- The check of the protocol passes over a character. -/
theorem Utf8Char.run (h : Utf8Char x w) (rest : List UInt8) :
    utf8Run .start (w ++ rest) = utf8Run .start rest := by
  cases h with
  | one ha =>
      have ha : _ < (0x80 : UInt8) := UInt8.lt_iff_toNat_lt.mpr ha
      simp only [List.cons_append, List.nil_append, utf8Run, utf8Step, if_pos ha]
  | two ha hb =>
      simp only [List.cons_append, List.nil_append, utf8Run, step_two ha]
      simp only [utf8Step, if_pos hb.between]
  | three ha hb hlower hupper hc =>
      simp only [List.cons_append, List.nil_append, utf8Run, step_three ha]
      simp only [utf8Step, if_pos (second_three.mpr ⟨hb, hlower, hupper⟩), if_pos hc.between]
  | four ha hb hlower hupper hc hd =>
      simp only [List.cons_append, List.nil_append, utf8Run, step_four ha]
      simp only [utf8Step, if_pos (second_four.mpr ⟨hb, hlower, hupper⟩), if_pos hc.between,
        if_pos hd.between]

theorem toNat_of {n : Nat} (h : n < 0x100) : (UInt8.ofNat n).toNat = n := UInt8.toNat_ofNat_of_lt' h

/-- Every scalar value is written as its character. -/
theorem IsScalar.char (h : IsScalar x) : Utf8Char x (utf8Bytes x) := by
  unfold IsScalar at h
  unfold utf8Bytes
  split
  · have hchar := Utf8Char.one (a := UInt8.ofNat x) (by rw [toNat_of] <;> omega)
    rwa [toNat_of (by omega)] at hchar
  · split
    · have ha := toNat_of (n := 0xC0 + x / 0x40) (by omega)
      have hb := toNat_of (n := 0x80 + x % 0x40) (by omega)
      have hchar := Utf8Char.two (a := UInt8.ofNat (0xC0 + x / 0x40))
        (b := UInt8.ofNat (0x80 + x % 0x40)) (by rw [ha]; omega) (by unfold IsTail; rw [hb]; omega)
      rw [ha, hb] at hchar
      convert hchar using 1
      omega
    · split
      · have ha := toNat_of (n := 0xE0 + x / 0x1000) (by omega)
        have hb := toNat_of (n := 0x80 + x / 0x40 % 0x40) (by omega)
        have hc := toNat_of (n := 0x80 + x % 0x40) (by omega)
        have hchar := Utf8Char.three (a := UInt8.ofNat (0xE0 + x / 0x1000))
          (b := UInt8.ofNat (0x80 + x / 0x40 % 0x40)) (c := UInt8.ofNat (0x80 + x % 0x40))
          (by rw [ha]; omega) (by unfold IsTail; rw [hb]; omega) (by rw [ha, hb]; omega)
          (by rw [ha, hb]; omega) (by unfold IsTail; rw [hc]; omega)
        rw [ha, hb, hc] at hchar
        convert hchar using 1
        omega
      · have ha := toNat_of (n := 0xF0 + x / 0x40000) (by omega)
        have hb := toNat_of (n := 0x80 + x / 0x1000 % 0x40) (by omega)
        have hc := toNat_of (n := 0x80 + x / 0x40 % 0x40) (by omega)
        have hd := toNat_of (n := 0x80 + x % 0x40) (by omega)
        have hchar := Utf8Char.four (a := UInt8.ofNat (0xF0 + x / 0x40000))
          (b := UInt8.ofNat (0x80 + x / 0x1000 % 0x40)) (c := UInt8.ofNat (0x80 + x / 0x40 % 0x40))
          (d := UInt8.ofNat (0x80 + x % 0x40))
          (by rw [ha]; omega) (by unfold IsTail; rw [hb]; omega) (by rw [ha, hb]; omega)
          (by rw [ha, hb]; omega) (by unfold IsTail; rw [hc]; omega)
          (by unfold IsTail; rw [hd]; omega)
        rw [ha, hb, hc, hd] at hchar
        convert hchar using 1
        omega

/-- What a character's first byte asks for. -/
theorem step_start {s : Utf8State} (h : utf8Step .start a = some s) :
    (a.toNat < 0x80 ∧ s = .start) ∨
    ((0xC2 ≤ a.toNat ∧ a.toNat ≤ 0xDF) ∧ s = .inside 0 0x80 0xBF) ∨
    ((0xE0 ≤ a.toNat ∧ a.toNat ≤ 0xEF) ∧ s = .inside 1 (if a = 0xE0 then 0xA0 else 0x80)
      (if a = 0xED then 0x9F else 0xBF)) ∨
    ((0xF0 ≤ a.toNat ∧ a.toNat ≤ 0xF4) ∧ s = .inside 2 (if a = 0xF0 then 0x90 else 0x80)
      (if a = 0xF4 then 0x8F else 0xBF)) := by
  by_cases h1 : a < 0x80
  · have hstep : utf8Step .start a = some .start := if_pos h1
    rw [hstep] at h
    exact .inl ⟨UInt8.lt_iff_toNat_lt.mp h1, (Option.some.inj h).symm⟩
  by_cases h2 : 0xC2 ≤ a ∧ a ≤ 0xDF
  · have h2 := between.mp h2
    rw [step_two h2] at h
    exact .inr (.inl ⟨h2, (Option.some.inj h).symm⟩)
  by_cases h3 : 0xE0 ≤ a ∧ a ≤ 0xEF
  · have h3 := between.mp h3
    rw [step_three h3] at h
    exact .inr (.inr (.inl ⟨h3, (Option.some.inj h).symm⟩))
  by_cases h4 : 0xF0 ≤ a ∧ a ≤ 0xF4
  · have h4 := between.mp h4
    rw [step_four h4] at h
    exact .inr (.inr (.inr ⟨h4, (Option.some.inj h).symm⟩))
  grind [utf8Step]

theorem run_cons {s : Utf8State} {bs : List UInt8} (h : utf8Run s (b :: bs) = some .start) :
    ∃ s', utf8Step s b = some s' ∧ utf8Run s' bs = some .start := by
  rw [utf8Run] at h
  split at h
  · rename_i s' hstep
    exact ⟨s', hstep, h⟩
  · cases h

/-- Inside a character the next byte lies within the bounds. -/
theorem run_inside {n : Nat} {lower upper : UInt8} {bs : List UInt8}
    (h : utf8Run (.inside n lower upper) bs = some .start) :
    ∃ b rest, bs = b :: rest ∧ (lower ≤ b ∧ b ≤ upper) ∧
      utf8Run (match n with | 0 => .start | n+1 => .inside n 0x80 0xBF) rest = some .start := by
  cases bs with
  | nil => exact nomatch h
  | cons b rest =>
      obtain ⟨s', hstep, hrest⟩ := run_cons h
      unfold utf8Step at hstep
      dsimp only at hstep
      split at hstep
      · rename_i hb
        refine ⟨b, rest, rfl, hb, ?_⟩
        cases n with
        | zero =>
            cases hstep
            exact hrest
        | succ n =>
            cases hstep
            exact hrest
      · exact nomatch hstep

/-- Well-formed bytes begin with a character. -/
theorem valid_split {bs : List UInt8} (h : utf8Run .start (a :: bs) = some .start) :
    ∃ x w rest, Utf8Char x w ∧ a :: bs = w ++ rest ∧ utf8Run .start rest = some .start := by
  obtain ⟨s, hstep, hrest⟩ := run_cons h
  rcases step_start hstep with ⟨ha, rfl⟩ | ⟨ha, rfl⟩ | ⟨ha, rfl⟩ | ⟨ha, rfl⟩
  · exact ⟨_, _, bs, .one ha, rfl, hrest⟩
  · obtain ⟨b, rest, rfl, hb, hrest⟩ := run_inside hrest
    exact ⟨_, _, rest, .two ha (between.mp hb), rfl, hrest⟩
  · obtain ⟨b, rest, rfl, hb, hrest⟩ := run_inside hrest
    obtain ⟨c, rest, rfl, hc, hrest⟩ := run_inside hrest
    obtain ⟨hb, hlower, hupper⟩ := second_three.mp hb
    exact ⟨_, _, rest, .three ha hb hlower hupper (between.mp hc), rfl, hrest⟩
  · obtain ⟨b, rest, rfl, hb, hrest⟩ := run_inside hrest
    obtain ⟨c, rest, rfl, hc, hrest⟩ := run_inside hrest
    obtain ⟨d, rest, rfl, hd, hrest⟩ := run_inside hrest
    obtain ⟨hb, hlower, hupper⟩ := second_four.mp hb
    exact ⟨_, _, rest, .four ha hb hlower hupper (between.mp hc) (between.mp hd), rfl, hrest⟩

/-! ## Whole strings -/

/-- The bytes of scalar values. -/
def utf8 (points : List Nat) : List UInt8 := points.flatMap utf8Bytes

theorem utf8_valid {points : List Nat} (h : ∀ x ∈ points, IsScalar x) :
    validUtf8 (utf8 points) = true := by
  rw [validUtf8, decide_eq_true_eq]
  induction points with
  | nil => rfl
  | cons x points ih =>
      obtain ⟨hx, hpoints⟩ := List.forall_mem_cons.mp h
      rw [utf8, List.flatMap_cons, hx.char.run]
      exact ih hpoints

theorem decodeFrom_utf8 {points : List Nat} (h : ∀ x ∈ points, IsScalar x) :
    decodeFrom .start (utf8 points) = points := by
  induction points with
  | nil => rfl
  | cons x points ih =>
      obtain ⟨hx, hpoints⟩ := List.forall_mem_cons.mp h
      rw [utf8, List.flatMap_cons, hx.char.decode]
      exact congrArg (x :: ·) (ih hpoints)

/-- Well-formed bytes are those of scalar values. -/
theorem exists_points {bytes : List UInt8} (h : validUtf8 bytes = true) :
    ∃ points, (∀ x ∈ points, IsScalar x) ∧ utf8 points = bytes := by
  rw [validUtf8, decide_eq_true_eq] at h
  induction hn : bytes.length using Nat.strong_induction_on generalizing bytes with
  | _ n ih =>
      cases bytes with
      | nil => exact ⟨[], by rintro _ ⟨⟩, rfl⟩
      | cons a bytes =>
          obtain ⟨x, w, rest, hchar, hsplit, hrest⟩ := valid_split h
          obtain ⟨hx, hw⟩ := hchar.eq
          have hlt : rest.length < n := by
            rw [← hn, hsplit, List.length_append]
            cases hchar <;> simp only [List.length_cons] <;> omega
          obtain ⟨points, hpoints, hbytes⟩ := ih rest.length hlt hrest rfl
          refine ⟨x :: points, List.forall_mem_cons.mpr ⟨hx, hpoints⟩, ?_⟩
          rw [hsplit, utf8, List.flatMap_cons, hw]
          exact congrArg (w ++ ·) hbytes

/-! ## UTF-16 -/

section
variable {u : UInt16}

theorem isHighSurrogate_iff : isHighSurrogate u = true ↔ 0xD800 ≤ u.toNat ∧ u.toNat ≤ 0xDBFF := by
  simp only [isHighSurrogate, Bool.and_eq_true, decide_eq_true_eq, UInt16.le_iff_toNat_le]
  exact Iff.rfl

theorem isLowSurrogate_iff : isLowSurrogate u = true ↔ 0xDC00 ≤ u.toNat ∧ u.toNat ≤ 0xDFFF := by
  simp only [isLowSurrogate, Bool.and_eq_true, decide_eq_true_eq, UInt16.le_iff_toNat_le]
  exact Iff.rfl

end

theorem unit_of {n : Nat} (h : n < 0x10000) : (UInt16.ofNat n).toNat = n :=
  UInt16.toNat_ofNat_of_lt' h

/-- A character of one code unit. -/
theorem codePoints_unit {u : UInt16} (hhigh : isHighSurrogate u = false)
    (hlow : isLowSurrogate u = false) (rest : JsString) :
    codePoints (u :: rest) = u.toNat :: codePoints rest := by
  cases rest with
  | nil =>
      change [if isHighSurrogate u || isLowSurrogate u then 0xFFFD else u.toNat] = _
      rw [hhigh, hlow]
      rfl
  | cons v rest =>
      rw [codePoints, hhigh, hlow]
      rfl

theorem codePoints_scalar {x : Nat} (h : IsScalar x) (rest : JsString) :
    codePoints (ofCodePoint x ++ rest) = x :: codePoints rest := by
  unfold IsScalar at h
  unfold ofCodePoint
  split
  · have hunit := unit_of (n := x) (by omega)
    have hhigh : isHighSurrogate (UInt16.ofNat x) = false := by
      rw [Bool.eq_false_iff, Ne, isHighSurrogate_iff, hunit]
      omega
    have hlow : isLowSurrogate (UInt16.ofNat x) = false := by
      rw [Bool.eq_false_iff, Ne, isLowSurrogate_iff, hunit]
      omega
    exact (codePoints_unit hhigh hlow rest).trans (congrArg (· :: codePoints rest) hunit)
  · have hfirst := unit_of (n := 0xD800 + (x - 0x10000) / 0x400) (by omega)
    have hsecond := unit_of (n := 0xDC00 + x % 0x400) (by omega)
    have hhigh : isHighSurrogate (UInt16.ofNat (0xD800 + (x - 0x10000) / 0x400)) = true := by
      rw [isHighSurrogate_iff, hfirst]
      omega
    have hlow : isLowSurrogate (UInt16.ofNat (0xDC00 + x % 0x400)) = true := by
      rw [isLowSurrogate_iff, hsecond]
      omega
    change codePoints (_ :: _ :: rest) = _
    rw [codePoints, if_pos (by rw [hhigh, hlow]; rfl), hfirst, hsecond]
    exact congrArg (· :: codePoints rest) (by omega)

theorem codePoints_units {points : List Nat} (h : ∀ x ∈ points, IsScalar x) :
    codePoints (points.flatMap ofCodePoint) = points := by
  induction points with
  | nil => rfl
  | cons x points ih =>
      obtain ⟨hx, hpoints⟩ := List.forall_mem_cons.mp h
      rw [List.flatMap_cons, codePoints_scalar hx, ih hpoints]

theorem isScalar_unit (u : UInt16) :
    IsScalar (if isHighSurrogate u || isLowSurrogate u then 0xFFFD else u.toNat) := by
  have hlt := u.toNat_lt
  unfold IsScalar
  split
  · decide
  · rename_i h
    rw [Bool.or_eq_true, isHighSurrogate_iff, isLowSurrogate_iff] at h
    omega

/-- A lone surrogate counts as the replacement character. -/
theorem codePoints_isScalar (s : JsString) : ∀ x ∈ codePoints s, IsScalar x := by
  fun_induction codePoints s with
  | case1 => exact fun x hx => nomatch hx
  | case2 u => exact List.forall_mem_singleton.mpr (isScalar_unit u)
  | case3 u v rest hpair ih =>
      refine List.forall_mem_cons.mpr ⟨?_, ih⟩
      rw [Bool.and_eq_true, isHighSurrogate_iff, isLowSurrogate_iff] at hpair
      unfold IsScalar
      omega
  | case4 u v rest _ ih => exact List.forall_mem_cons.mpr ⟨isScalar_unit u, ih⟩

/-- What is written is well formed. -/
theorem encode_valid (s : JsString) : validUtf8 s.encode = true := utf8_valid (codePoints_isScalar s)

/-! ## Strings of the wire -/

/-- The string that well-formed bytes stand for, its byte order mark included. -/
def ofUtf8 (bytes : List UInt8) : JsString := (decodeFrom .start bytes).flatMap ofCodePoint

/-- What is read from well-formed bytes is written as the same bytes. -/
theorem encode_ofUtf8 {bytes : List UInt8} (h : validUtf8 bytes = true) :
    (ofUtf8 bytes).encode = bytes := by
  obtain ⟨points, hpoints, rfl⟩ := exists_points h
  rw [ofUtf8, decodeFrom_utf8 hpoints, encode, codePoints_units hpoints]
  rfl

theorem ofUtf8_inj {bytes bytes' : List UInt8} (hutf8 : validUtf8 bytes = true)
    (hutf8' : validUtf8 bytes' = true) : ofUtf8 bytes = ofUtf8 bytes' ↔ bytes = bytes' := by
  constructor
  · intro h
    have hencode := congrArg encode h
    rwa [encode_ofUtf8 hutf8, encode_ofUtf8 hutf8'] at hencode
  · exact congrArg ofUtf8

theorem ofUtf8_ascii {bytes : List UInt8} (h : ∀ b ∈ bytes, b < 0x80) :
    ofUtf8 bytes = ofAscii bytes := by
  rw [ofUtf8, decodeFrom_ascii h, flatMap_ofCodePoint]

/-- ASCII units are the string of ASCII bytes. -/
theorem exists_ofAscii {s : JsString} (h : ∀ u ∈ s, u < 0x80) :
    ∃ bytes, (∀ b ∈ bytes, b < 0x80) ∧ ofAscii bytes = s := by
  have hunit : ∀ u ∈ s, u.toUInt8.toNat = u.toNat ∧ u.toNat < 0x80 := by
    intro u hu
    have hlt : u.toNat < 0x80 := UInt16.lt_iff_toNat_lt.mp (h u hu)
    rw [UInt16.toNat_toUInt8, Nat.mod_eq_of_lt (Nat.lt_trans hlt (by decide))]
    exact ⟨rfl, hlt⟩
  refine ⟨s.map UInt16.toUInt8, ?_, ?_⟩
  · intro b hb
    obtain ⟨u, hu, rfl⟩ := List.mem_map.mp hb
    obtain ⟨hnat, hlt⟩ := hunit u hu
    exact UInt8.lt_iff_toNat_lt.mpr (hnat ▸ hlt)
  · rw [ofAscii, List.map_map]
    refine (List.map_congr_left fun u hu => ?_).trans (List.map_id s)
    apply UInt16.toNat_inj.mp
    exact (UInt8.toNat_toUInt16 _).trans (hunit u hu).1

theorem encode_units {s : JsString} (h : ∀ u ∈ s, u < 0x80) : ∀ b ∈ s.encode, b < 0x80 := by
  obtain ⟨bytes, hbytes, rfl⟩ := exists_ofAscii h
  rwa [encode_ofAscii hbytes]

/-- A character outside ASCII ends in a byte outside ASCII. -/
theorem utf8Bytes_ascii {c : Nat} (h : ∀ b ∈ utf8Bytes c, b < 0x80) : c < 0x80 := by
  by_contra hc
  have hlast : UInt8.ofNat (0x80 + c % 0x40) ∈ utf8Bytes c := by
    unfold utf8Bytes
    rw [if_neg hc]
    split
    · simp
    · split <;> simp
  have hlt := UInt8.lt_iff_toNat_lt.mp (h _ hlast)
  rw [toNat_of (by omega)] at hlt
  exact absurd hlt (Nat.not_lt.mpr (Nat.le_add_right _ _))

theorem units_of_codePoints {s : JsString} (h : ∀ c ∈ s.codePoints, c < 0x80) :
    ∀ u ∈ s, u < 0x80 := by
  have hunit : ∀ u : UInt16,
      (if isHighSurrogate u || isLowSurrogate u then 0xFFFD else u.toNat) < 0x80 → u < 0x80 := by
    intro u hu
    split at hu
    · exact absurd hu (by decide)
    · exact UInt16.lt_iff_toNat_lt.mpr hu
  induction s using codePoints.induct with
  | case1 => exact fun u hu => (nomatch hu)
  | case2 u =>
      intro v hv
      rw [List.mem_singleton.mp hv]
      exact hunit u (h _ List.mem_cons_self)
  | case3 u v rest hpair ih =>
      rw [codePoints, if_pos hpair] at h
      exact absurd (h _ List.mem_cons_self) (by omega)
  | case4 u v rest hpair ih =>
      rw [codePoints, if_neg hpair] at h
      obtain ⟨hu, hrest⟩ := List.forall_mem_cons.mp h
      exact List.forall_mem_cons.mpr ⟨hunit u hu, ih hrest⟩

/-- Only a string of ASCII units is written in ASCII. -/
theorem ofAscii_encode {s : JsString} (h : ∀ b ∈ s.encode, b < 0x80) : ofAscii s.encode = s := by
  have hunits : ∀ u ∈ s, u < 0x80 := by
    apply units_of_codePoints
    intro c hc
    exact utf8Bytes_ascii fun b hb => h b (List.mem_flatMap.mpr ⟨c, hc, hb⟩)
  obtain ⟨bytes, hbytes, rfl⟩ := exists_ofAscii hunits
  rw [encode_ofAscii hbytes]

/-- Well-formed bytes are ASCII where their string is. -/
theorem ascii_of_units {bytes : List UInt8} (hutf8 : validUtf8 bytes = true)
    (h : ∀ u ∈ ofUtf8 bytes, u < 0x80) : ∀ b ∈ bytes, b < 0x80 := by
  have hencode := encode_units h
  rwa [encode_ofUtf8 hutf8] at hencode

/-- The byte order mark. -/
def HasMark (bytes : List UInt8) : Prop := bytes.take 3 = [0xEF, 0xBB, 0xBF]

instance (bytes : List UInt8) : Decidable (HasMark bytes) := inferInstanceAs (Decidable (_ = _))

/-- The decoder of the platform agrees except for the mark, which it drops. -/
theorem decode_eq_ofUtf8_iff {bytes : List UInt8} : decode bytes = ofUtf8 bytes ↔ ¬ HasMark bytes := by
  constructor
  · intro h hmark
    have hbytes : bytes = 0xEF :: 0xBB :: 0xBF :: bytes.drop 3 := by
      conv_lhs => rw [← List.take_append_drop 3 bytes, hmark]
      rfl
    have hdecode : decode bytes = ofUtf8 (bytes.drop 3) :=
      congrArg (fun bs => (decodeFrom .start bs).flatMap ofCodePoint) (if_pos hmark)
    have hread : ofUtf8 bytes = 0xFEFF :: ofUtf8 (bytes.drop 3) := by
      conv_lhs => rw [hbytes]
      rfl
    have hlength := congrArg List.length h
    rw [hdecode, hread] at hlength
    exact Nat.succ_ne_self _ hlength.symm
  · intro h
    exact congrArg (fun bs => (decodeFrom .start bs).flatMap ofCodePoint) (if_neg h)

end
end JsString
