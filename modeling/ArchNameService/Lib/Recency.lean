import Mathlib.Data.List.Basic
import Mathlib.Data.List.Pairwise

/-!
# The latest of each kind

Of a history, newest first, the first element of every class of an equivalence. A list
that each new element is put in front of, after what equals it is removed, and that is cut
off at a length, holds the first of these.
-/

namespace Recency

variable {α : Type} (same : α → α → Bool)

def firsts : List α → List α
  | [] => []
  | x :: l => x :: (firsts l).filter fun y => !same x y

/-- The list with an element put in front. -/
def touch (n : Nat) (x : α) (l : List α) : List α := (x :: l.filter fun y => !same y x).take n

/-- Nothing like the element is in the list. -/
def fresh (out : List α) (x : α) : Bool := !out.any (same · x)

/-- An element is put at the end where it is wanted and nothing like it is there. -/
def collect (wanted : α → Bool) (out : List α) (x : α) : List α :=
  if wanted x && fresh same out x then out ++ [x] else out

variable {same} {x y : α} {l : List α}

theorem firsts_sublist (l : List α) : (firsts same l).Sublist l := by
  induction l with
  | nil => exact List.Sublist.slnil
  | cons x l ih => exact (List.filter_sublist.trans ih).cons_cons x

/-- No two are of one kind. -/
theorem firsts_pairwise (l : List α) : (firsts same l).Pairwise fun x y => same x y = false := by
  induction l with
  | nil => exact List.Pairwise.nil
  | cons x l ih =>
      refine List.pairwise_cons.mpr ⟨fun y hy => ?_, ih.filter _⟩
      simpa using (List.mem_filter.mp hy).2

section
variable (h : Equivalence fun x y => same x y = true)
include h

/-- Every kind is there. -/
theorem exists_firsts (hx : x ∈ l) : ∃ y ∈ firsts same l, same y x = true := by
  induction l with
  | nil => cases hx
  | cons z l ih =>
      cases hx with
      | head => exact ⟨x, List.mem_cons_self, h.refl x⟩
      | tail _ hx =>
          obtain ⟨y, hy, hyx⟩ := ih hx
          cases hzy : same z y with
          | true => exact ⟨z, List.mem_cons_self, h.trans hzy hyx⟩
          | false =>
              refine ⟨y, List.mem_cons_of_mem _ (List.mem_filter.mpr ⟨hy, ?_⟩), hyx⟩
              rw [hzy]
              rfl

theorem same_comm (x y : α) : same x y = same y x :=
  Bool.eq_iff_iff.mpr ⟨fun hxy => h.symm hxy, fun hyx => h.symm hyx⟩

/-! ## A list of bounded length -/

omit h in
/-- Where a filter drops one element at most, one element more is enough to filter from. -/
theorem take_filter_take {p : α → Bool} (hp : l.Pairwise fun x y => p x = true ∨ p y = true)
    (n : Nat) : ((l.take (n + 1)).filter p).take n = (l.filter p).take n := by
  induction l generalizing n with
  | nil => rfl
  | cons x l ih =>
      obtain ⟨hx, hl⟩ := List.pairwise_cons.mp hp
      rw [List.take_succ_cons]
      cases hpx : p x with
      | true =>
          rw [List.filter_cons_of_pos hpx, List.filter_cons_of_pos hpx]
          cases n with
          | zero => rfl
          | succ n => rw [List.take_succ_cons, List.take_succ_cons, ih hl]
      | false =>
          have hkept : ∀ y ∈ l, p y = true := fun y hy =>
            (hx y hy).resolve_left (by rw [hpx]; decide)
          have hneg : ¬ p x = true := by rw [hpx]; decide
          rw [List.filter_cons_of_neg hneg, List.filter_cons_of_neg hneg,
            List.filter_eq_self.mpr hkept,
            List.filter_eq_self.mpr fun y hy => hkept y (List.mem_of_mem_take hy), List.take_take,
            Nat.min_self]

/-- The cut loses nothing that a longer list would still hold. -/
theorem touch_firsts (n : Nat) (x : α) (l : List α) :
    touch same n x ((firsts same l).take n) = (firsts same (x :: l)).take n := by
  have hsame : (fun y => !same y x) = fun y => !same x y := by
    funext y
    rw [same_comm h]
  cases n with
  | zero => rfl
  | succ n =>
      rw [touch, firsts, List.take_succ_cons, List.take_succ_cons, hsame, take_filter_take]
      refine (firsts_pairwise l).imp fun {y z} hyz => ?_
      by_contra hnot
      simp only [Bool.not_eq_true', not_or, Bool.not_eq_false] at hnot
      have hsame := h.trans (h.symm hnot.1) hnot.2
      rw [hyz] at hsame
      cases hsame

/-! ## Collecting in order -/

theorem foldl_collect (wanted : α → Bool) (l out : List α) :
    l.foldl (collect same wanted) out =
      out ++ (firsts same (l.filter wanted)).filter (fresh same out) := by
  induction l generalizing out with
  | nil => exact (List.append_nil out).symm
  | cons x l ih =>
      rw [List.foldl_cons, ih]
      cases hx : wanted x with
      | false =>
          have hneg : ¬ wanted x = true := by rw [hx]; decide
          rw [collect, hx, Bool.false_and, List.filter_cons_of_neg hneg]
          rfl
      | true =>
          rw [List.filter_cons_of_pos hx, firsts]
          cases hfresh : fresh same out x with
          | false =>
              have hneg : ¬ fresh same out x = true := by rw [hfresh]; decide
              have hout : collect same wanted out x = out := by
                rw [collect, hx, hfresh]
                rfl
              rw [hout, List.filter_cons_of_neg hneg, List.filter_filter]
              refine congrArg (out ++ ·) (List.filter_congr fun y _ => ?_)
              -- what is like `x` is like what stands for it in `out`
              cases hxy : same x y with
              | false => rw [Bool.not_false, Bool.and_true]
              | true =>
                  have hany : (!out.any (same · x)) = false := hfresh
                  obtain ⟨z, hz, hzx⟩ := List.any_eq_true.mp (Bool.not_eq_eq_eq_not.mp hany)
                  have hzy : out.any (same · y) = true :=
                    List.any_eq_true.mpr ⟨z, hz, h.trans hzx hxy⟩
                  rw [fresh, hzy]
                  rfl
          | true =>
              have hout : collect same wanted out x = out ++ [x] := by
                rw [collect, hx, hfresh]
                rfl
              rw [hout, List.filter_cons_of_pos hfresh, List.filter_filter, List.append_assoc]
              refine congrArg (fun rest => out ++ x :: rest) (List.filter_congr fun y _ => ?_)
              rw [fresh, List.any_append, Bool.not_or, List.any_cons, List.any_nil, Bool.or_false]
              rfl

theorem collect_eq (wanted : α → Bool) (l : List α) :
    l.foldl (collect same wanted) [] = firsts same (l.filter wanted) := by
  rw [foldl_collect h]
  exact List.filter_eq_self.mpr fun _ _ => rfl

theorem firsts_snoc (l : List α) (x : α) :
    firsts same (l ++ [x]) =
      if fresh same (firsts same l) x then firsts same l ++ [x] else firsts same l := by
  have hall : ∀ l : List α, l.filter (fun _ => true) = l := fun l =>
    List.filter_eq_self.mpr fun _ _ => rfl
  have hfold : ∀ l : List α, firsts same l = l.foldl (collect same fun _ => true) [] := fun l => by
    rw [collect_eq h, hall]
  rw [hfold (l ++ [x]), List.foldl_append, ← hfold]
  rfl

/-! ## What is found -/

omit h in
/-- What does not tell elements of one kind apart finds the first of them. -/
theorem find?_firsts {p : α → Bool} (hp : ∀ x y, same x y = true → p x = p y) (l : List α) :
    (firsts same l).find? p = l.find? p := by
  induction l with
  | nil => rfl
  | cons x l ih =>
      rw [firsts, List.find?_cons, List.find?_cons]
      cases hx : p x with
      | true => rfl
      | false =>
          rw [← ih, List.find?_filter]
          refine congrArg (List.find? · (firsts same l)) (funext fun y => ?_)
          cases hxy : same x y with
          | false => simp only [Bool.not_false, true_and, Bool.decide_eq_true]
          | true =>
              have hy : p y = false := (hp x y hxy).symm.trans hx
              simp only [hy, Bool.not_true, Bool.false_eq_true, and_false, decide_false]

end

end Recency
