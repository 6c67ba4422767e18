import Mathlib.Data.List.Basic
import Mathlib.Data.Nat.Digits.Lemmas

/-!
# Positional numerals

Strings of digits, most significant first, and their conversion from one base to
another. Leading zeros do not count toward the value, so a conversion carries their
number over as it is.
-/

namespace Positional

/-- The number that digits stand for. -/
def value (b : Nat) (ds : List Nat) : Nat := ds.foldl (fun n d => n * b + d) 0

/-- The digits of a number, without leading zeros. -/
def numeral (b n : Nat) : List Nat := (Nat.digits b n).reverse

def leadingZeros (ds : List Nat) : Nat := (ds.takeWhile (· == 0)).length

/-- The digits in base `c` of what is written in base `b`. -/
def convert (b c : Nat) (ds : List Nat) : List Nat :=
  List.replicate (leadingZeros ds) 0 ++ numeral c (value b ds)

section
variable {b c n z : Nat} {ds : List Nat}

theorem value_eq (b : Nat) (ds : List Nat) : value b ds = Nat.ofDigits b ds.reverse := by
  unfold value
  induction ds using List.reverseRecOn with
  | nil => rfl
  | append_singleton ds d ih =>
      rw [List.foldl_append, ih, List.reverse_append, List.reverse_singleton, List.singleton_append,
        Nat.ofDigits_cons]
      exact (Nat.add_comm ..).trans (congrArg (d + ·) (Nat.mul_comm ..))

theorem value_numeral (b n : Nat) : value b (numeral b n) = n := by
  rw [value_eq, numeral, List.reverse_reverse, Nat.ofDigits_digits]

theorem numeral_value (hb : 1 < b) (hdigits : ∀ d ∈ ds, d < b) (hhead : ds.head? ≠ some 0) :
    numeral b (value b ds) = ds := by
  rw [value_eq, numeral, Nat.digits_ofDigits b hb ds.reverse]
  · exact List.reverse_reverse ds
  · exact fun d hd => hdigits d (List.mem_reverse.mp hd)
  · intro hne hlast
    rw [List.getLast_reverse] at hlast
    cases ds with
    | nil => exact hne rfl
    | cons d ds => exact hhead (congrArg some hlast)

theorem numeral_lt (hb : 1 < b) : ∀ d ∈ numeral b n, d < b :=
  fun _ hd => Nat.digits_lt_base hb (List.mem_reverse.mp hd)

theorem head_numeral : (numeral b n).head? ≠ some 0 := by
  intro hhead
  unfold numeral at hhead
  rw [List.head?_reverse] at hhead
  have hne : Nat.digits b n ≠ [] := by
    intro h
    rw [h] at hhead
    cases hhead
  rw [List.getLast?_eq_some_getLast hne, Option.some.injEq] at hhead
  have hn : n ≠ 0 := by
    rintro rfl
    exact hne (Nat.digits_zero b)
  exact Nat.getLast_digit_ne_zero b hn hhead

theorem leadingZeros_replicate (hhead : ds.head? ≠ some 0) :
    leadingZeros (List.replicate z 0 ++ ds) = z := by
  have hds : ds.takeWhile (· == 0) = [] := by
    cases ds with
    | nil => rfl
    | cons d ds =>
        have hd : (d == 0) = false := beq_false_of_ne fun h => hhead (congrArg some h)
        rw [List.takeWhile_cons, hd]
        rfl
  unfold leadingZeros
  induction z with
  | zero => rw [List.replicate_zero, List.nil_append, hds, List.length_nil]
  | succ z ih =>
      rw [List.replicate_succ, List.cons_append, List.takeWhile_cons]
      exact congrArg Nat.succ ih

/-- Digits are leading zeros and a string that has none. -/
theorem split_leading (ds : List Nat) :
    ∃ front, ds = List.replicate (leadingZeros ds) 0 ++ front ∧ front.head? ≠ some 0 := by
  induction ds with
  | nil => exact ⟨[], rfl, by simp⟩
  | cons d ds ih =>
      by_cases hd : d = 0
      · subst hd
        obtain ⟨front, hsplit, hfront⟩ := ih
        exact ⟨front, congrArg (0 :: ·) hsplit, hfront⟩
      · have hzeros : leadingZeros (d :: ds) = 0 := by
          rw [leadingZeros, List.takeWhile_cons, beq_false_of_ne hd]
          rfl
        refine ⟨d :: ds, ?_, fun h => hd (Option.some.inj h)⟩
        rw [hzeros]
        rfl

theorem value_replicate (z : Nat) (ds : List Nat) :
    value b (List.replicate z 0 ++ ds) = value b ds := by
  unfold value
  induction z with
  | zero => rfl
  | succ z ih =>
      rw [List.replicate_succ, List.cons_append, List.foldl_cons, Nat.zero_mul]
      exact ih

/-- What was converted is converted back. -/
theorem convert_convert (hb : 1 < b) (hdigits : ∀ d ∈ ds, d < b) :
    convert c b (convert b c ds) = ds := by
  obtain ⟨front, hsplit, hfront⟩ := split_leading ds
  have hlt : ∀ d ∈ front, d < b := by
    intro d hd
    apply hdigits
    rw [hsplit]
    exact List.mem_append_right _ hd
  unfold convert
  rw [leadingZeros_replicate head_numeral, value_replicate, value_numeral]
  generalize leadingZeros ds = z at hsplit
  rw [hsplit, value_replicate, numeral_value hb hlt hfront]

theorem convert_lt (hc : 1 < c) : ∀ d ∈ convert b c ds, d < c := by
  intro d hd
  rcases List.mem_append.mp hd with hd | hd
  · rw [List.eq_of_mem_replicate hd]
    exact Nat.lt_of_succ_lt hc
  · exact numeral_lt hc d hd

/-- In a smaller base a number takes no fewer digits. -/
theorem length_le_convert (hc : 1 < c) (hcb : c ≤ b) (hdigits : ∀ d ∈ ds, d < b) :
    ds.length ≤ (convert b c ds).length := by
  have hb : 1 < b := Nat.lt_of_lt_of_le hc hcb
  obtain ⟨front, hsplit, hfront⟩ := split_leading ds
  unfold convert
  generalize leadingZeros ds = z at hsplit
  subst hsplit
  have hlt : ∀ d ∈ front, d < b := fun d hd => hdigits d (List.mem_append_right _ hd)
  have hfew : front.length ≤ (numeral c (value b front)).length := by
    have hbound : value b front < b ^ (numeral c (value b front)).length := by
      apply Nat.lt_of_lt_of_le _ (Nat.pow_le_pow_left hcb _)
      rw [← Nat.digits_length_le_iff hc, numeral, List.length_reverse]
    rw [← Nat.digits_length_le_iff hb, ← List.length_reverse] at hbound
    rwa [← numeral, numeral_value hb hlt hfront] at hbound
  rw [value_replicate, List.length_append, List.length_append]
  exact Nat.add_le_add_left hfew _

/-- Where `m` digits in the new base hold `n` of the old one, the conversion of `n`
digits has at most `m`. -/
theorem length_convert_le {m : Nat} (hc : 1 < c) (hcb : c ≤ b) (hdigits : ∀ d ∈ ds, d < b)
    (hroom : b ^ ds.length ≤ c ^ m) : (convert b c ds).length ≤ m := by
  have hb : 1 < b := Nat.lt_of_lt_of_le hc hcb
  obtain ⟨front, hsplit, hfront⟩ := split_leading ds
  generalize hz : leadingZeros ds = z at hsplit
  have hlt : value b front < b ^ front.length := by
    rw [value_eq]
    have hbound := Nat.ofDigits_lt_base_pow_length hb
      (fun d (hd : d ∈ front.reverse) => hdigits d (by
        rw [hsplit]
        exact List.mem_append_right _ (List.mem_reverse.mp hd)))
    rwa [List.length_reverse] at hbound
  have hlength : ds.length = z + front.length := by
    rw [hsplit, List.length_append, List.length_replicate]
  have hzm : z ≤ m := by
    have hpow : c ^ z ≤ c ^ m :=
      calc c ^ z ≤ b ^ z := Nat.pow_le_pow_left hcb z
        _ ≤ b ^ ds.length := Nat.pow_le_pow_right (Nat.lt_of_succ_lt hb) (by omega)
        _ ≤ c ^ m := hroom
    exact (Nat.pow_le_pow_iff_right hc).mp hpow
  -- the leading zeros take as many places in the smaller base, and less room
  have hfits : b ^ front.length ≤ c ^ (m - z) := by
    have hmul : c ^ z * b ^ front.length ≤ c ^ z * c ^ (m - z) :=
      calc c ^ z * b ^ front.length ≤ b ^ z * b ^ front.length :=
            Nat.mul_le_mul_right _ (Nat.pow_le_pow_left hcb z)
        _ = b ^ ds.length := by rw [hlength, pow_add]
        _ ≤ c ^ m := hroom
        _ = c ^ z * c ^ (m - z) := by rw [← pow_add, Nat.add_sub_cancel' hzm]
    exact Nat.le_of_mul_le_mul_left hmul (Nat.pow_pos (Nat.lt_of_succ_lt hc))
  have hnumeral : (numeral c (value b front)).length ≤ m - z := by
    rw [numeral, List.length_reverse, Nat.digits_length_le_iff hc]
    exact Nat.lt_of_lt_of_le hlt hfits
  have hvalue : value b ds = value b front := by rw [hsplit, value_replicate]
  rw [convert, hz, List.length_append, List.length_replicate, hvalue]
  omega

end

end Positional
