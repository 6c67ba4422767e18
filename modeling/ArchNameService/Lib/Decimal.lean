import ArchNameService.Lib.Text
import Mathlib.Data.Nat.Digits.Lemmas
import Mathlib.Tactic.Ring

/-! Numbers as decimal text. -/

namespace JsString

/-- `\d`. -/
def isDigit (u : UInt16) : Bool := 0x30 ≤ u && u ≤ 0x39

def digitZero : UInt16 := 0x30

/-- `BigInt(..)` of digits. -/
def bigInt (digits : JsString) : Nat := digits.foldl (fun n u => n * 10 + (u.toNat - 0x30)) 0

/-- `toString()` of a `bigint` that is not negative. -/
def decimal (n : Nat) : JsString :=
  if n = 0 then [digitZero] else (Nat.digits 10 n).reverse.map fun d => UInt16.ofNat (0x30 + d)

/-! ## Reading what was written -/

theorem bigInt_from (digits : JsString) (n : Nat) :
    digits.foldl (fun n u => n * 10 + (u.toNat - 0x30)) n = n * 10 ^ digits.length + bigInt digits := by
  induction digits generalizing n with
  | nil => simp [bigInt]
  | cons u digits ih =>
      rw [bigInt, List.foldl_cons, List.foldl_cons, ih, ih (0 * 10 + _), List.length_cons, pow_succ]
      ring

theorem bigInt_append (front back : JsString) :
    bigInt (front ++ back) = bigInt front * 10 ^ back.length + bigInt back := by
  rw [bigInt, List.foldl_append]
  exact bigInt_from back _

theorem bigInt_zeros (n : Nat) : bigInt (List.replicate n digitZero) = 0 := by
  induction n with
  | zero => rfl
  | succ n ih => exact ih

/-- The digit of a number below ten. -/
theorem digit_toNat {d : Nat} (h : d < 10) : (UInt16.ofNat (0x30 + d)).toNat = 0x30 + d :=
  UInt16.toNat_ofNat_of_lt' (Nat.lt_trans (Nat.add_lt_add_left h 0x30) (by decide))

theorem bigInt_digits {ds : List Nat} (h : ∀ d ∈ ds, d < 10) :
    bigInt (ds.reverse.map fun d => UInt16.ofNat (0x30 + d)) = Nat.ofDigits 10 ds := by
  induction ds with
  | nil => rfl
  | cons d ds ih =>
      obtain ⟨hd, hds⟩ := List.forall_mem_cons.mp h
      rw [List.reverse_cons, List.map_append, bigInt_append, ih hds, Nat.ofDigits_cons]
      change _ * 10 ^ 1 + (0 * 10 + ((UInt16.ofNat (0x30 + d)).toNat - 0x30)) = _
      rw [digit_toNat hd, Nat.add_sub_cancel_left]
      ring

theorem bigInt_decimal (n : Nat) : bigInt (decimal n) = n := by
  unfold decimal
  split
  · rename_i h
    exact h.symm
  · rw [bigInt_digits fun d hd => Nat.digits_lt_base (by decide) hd, Nat.ofDigits_digits]

theorem decimal_isDigit (n : Nat) : ∀ u ∈ decimal n, isDigit u = true := by
  unfold decimal
  split
  · intro u hu
    rw [List.mem_singleton.mp hu]
    rfl
  · intro u hu
    obtain ⟨d, hd, rfl⟩ := List.mem_map.mp hu
    have hlt : d < 10 := Nat.digits_lt_base (by decide) (List.mem_reverse.mp hd)
    simp only [isDigit, Bool.and_eq_true, decide_eq_true_eq, UInt16.le_iff_toNat_le, digit_toNat hlt]
    exact ⟨Nat.le_add_right _ _, Nat.add_le_add_left (Nat.le_of_lt_succ hlt) 0x30⟩

theorem decimal_ne_nil (n : Nat) : decimal n ≠ [] := by
  unfold decimal
  split
  · exact List.cons_ne_nil _ _
  · rename_i h
    intro hnil
    exact Nat.digits_ne_nil_iff_ne_zero.mpr h (List.reverse_eq_nil_iff.mp (List.map_eq_nil_iff.mp hnil))

theorem decimal_length {n d : Nat} (hd : 0 < d) (h : n < 10 ^ d) : (decimal n).length ≤ d := by
  unfold decimal
  split
  · exact hd
  · rw [List.length_map, List.length_reverse]
    exact (Nat.digits_length_le_iff (by decide) n).mpr h

/-- There is no leading zero. -/
theorem decimal_head {n : Nat} (hn : n ≠ 0) : (decimal n).head? ≠ some 0x30 := by
  have hne : Nat.digits 10 n ≠ [] := Nat.digits_ne_nil_iff_ne_zero.mpr hn
  intro hhead
  rw [decimal, if_neg hn, List.head?_map, List.head?_reverse, List.getLast?_eq_some_getLast hne,
    Option.map_some, Option.some.injEq] at hhead
  have hlt : (Nat.digits 10 n).getLast hne < 10 :=
    Nat.digits_lt_base (by decide) (List.getLast_mem hne)
  have hvalue := congrArg UInt16.toNat hhead
  rw [digit_toNat hlt] at hvalue
  exact Nat.getLast_digit_ne_zero 10 hn (Nat.add_left_cancel (hvalue.trans rfl : _ = 0x30 + 0))

end JsString
