import Mathlib.Data.List.Sort
import Mathlib.Order.Basic

/-!
# Comparators

The comparators of `Array.prototype.sort` answer with the sign of an order. The
consistent ones are closed under what a program makes of them: going through a key, the
next key where the first one ties, a missing key that comes last, the reverse order. A
list is sorted stably.
-/

/-- Negative where the first argument comes first, and zero where neither does. -/
abbrev Comparator (α : Type) := α → α → Int

namespace Comparator

variable {α β : Type}

structure Consistent (c : Comparator α) : Prop where
  antisymm : ∀ x y, c x y < 0 ↔ 0 < c y x
  trans : ∀ x y z, c x y ≤ 0 → c y z ≤ 0 → c x z ≤ 0

/-- Numbers are compared by their difference. -/
def numbers : Comparator Int := fun a b => a - b

def onKey (key : α → β) (c : Comparator β) : Comparator α := fun x y => c (key x) (key y)

def reversed (c : Comparator α) : Comparator α := fun x y => - c x y

def thenBy (c d : Comparator α) : Comparator α := fun x y => if c x y ≠ 0 then c x y else d x y

def missingLast (c : Comparator α) : Comparator (Option α)
  | none, none => 0
  | none, some _ => 1
  | some _, none => -1
  | some x, some y => c x y

theorem thenBy_of_zero {c d : Comparator α} {x y : α} (h : c x y = 0) :
    c.thenBy d x y = d x y := if_neg (not_not.mpr h)

theorem thenBy_of_ne {c d : Comparator α} {x y : α} (h : c x y ≠ 0) :
    c.thenBy d x y = c x y := if_pos h

/-- The first keys do not contradict the order. -/
theorem first_of_thenBy {c d : Comparator α} {x y : α} (h : c.thenBy d x y ≤ 0) : c x y ≤ 0 := by
  by_cases hzero : c x y = 0
  · exact hzero.le
  · rwa [thenBy_of_ne hzero] at h

namespace Consistent
variable {c d : Comparator α}

theorem zero (h : c.Consistent) {x y : α} : c x y = 0 ↔ c y x = 0 := by
  have hxy := h.antisymm x y
  have hyx := h.antisymm y x
  omega

theorem self (h : c.Consistent) (x : α) : c x x = 0 := by
  have hxx := h.antisymm x x
  omega

theorem total (h : c.Consistent) (x y : α) : c x y ≤ 0 ∨ c y x ≤ 0 := by
  have hxy := h.antisymm x y
  omega

theorem onKey (key : β → α) (h : c.Consistent) : (Comparator.onKey key c).Consistent where
  antisymm _ _ := h.antisymm _ _
  trans _ _ _ := h.trans _ _ _

theorem reversed (h : c.Consistent) : (Comparator.reversed c).Consistent where
  antisymm x y := by
    have hyx := h.antisymm y x
    simp only [Comparator.reversed]
    omega
  trans x y z hxy hyz := by
    have hyx := h.antisymm x y
    have hzy := h.antisymm y z
    have hzx := h.antisymm x z
    have htrans := h.trans z y x
    simp only [Comparator.reversed] at hxy hyz ⊢
    omega

/-- The second keys decide only where the first ones tie throughout. -/
theorem trans_then (h : c.Consistent) {x y z : α} {xy yz xz : Int}
    (hrest : xy ≤ 0 → yz ≤ 0 → xz ≤ 0) (hxy : (if c x y ≠ 0 then c x y else xy) ≤ 0)
    (hyz : (if c y z ≠ 0 then c y z else yz) ≤ 0) : (if c x z ≠ 0 then c x z else xz) ≤ 0 := by
  have hyx := h.antisymm x y
  have hzy := h.antisymm y z
  have hzx := h.antisymm x z
  have hforth := h.trans x y z
  have hback := h.trans z x y
  have hback' := h.trans y z x
  split at hxy <;> split at hyz <;> split <;> omega

theorem thenBy (hc : c.Consistent) (hd : d.Consistent) : (Comparator.thenBy c d).Consistent where
  antisymm x y := by
    have hcxy := hc.antisymm x y
    have hcyx := hc.antisymm y x
    have hdxy := hd.antisymm x y
    simp only [Comparator.thenBy]
    split <;> split <;> omega
  trans x y z hxy hyz := hc.trans_then (hd.trans x y z) hxy hyz

theorem missingLast (h : c.Consistent) : (Comparator.missingLast c).Consistent where
  antisymm x y := by
    cases x with
    | none => cases y <;> simp [Comparator.missingLast]
    | some x =>
        cases y with
        | none => simp [Comparator.missingLast]
        | some y => exact h.antisymm x y
  trans x y z hxy hyz := by
    cases x with
    | none =>
        cases y with
        | none => exact hyz
        | some y => simp [Comparator.missingLast] at hxy
    | some x =>
        cases z with
        | none => simp [Comparator.missingLast]
        | some z =>
            cases y with
            | none => simp [Comparator.missingLast] at hyz
            | some y => exact h.trans x y z hxy hyz

end Consistent

theorem numbers_consistent : Consistent numbers where
  antisymm x y := by
    simp only [numbers]
    omega
  trans x y z hxy hyz := by
    simp only [numbers] at *
    omega

/-- The order of a type. -/
def byOrder [LT α] [DecidableLT α] : Comparator α := fun x y =>
  if x < y then -1 else if y < x then 1 else 0

theorem byOrder_le [LT α] [DecidableLT α] [Std.Asymm (α := α) (· < ·)] {x y : α} :
    byOrder x y ≤ 0 ↔ ¬ y < x := by
  unfold byOrder
  split
  next h => exact ⟨fun _ => Std.Asymm.asymm _ _ h, fun _ => by decide⟩
  next =>
    split
    next h => exact ⟨fun hle => absurd hle (by decide), fun hnot => absurd h hnot⟩
    next h => exact ⟨fun _ => h, fun _ => by decide⟩

theorem byOrder_consistent [LT α] [DecidableLT α] [Std.Asymm (α := α) (· < ·)]
    (htrans : ∀ x y z : α, ¬ y < x → ¬ z < y → ¬ z < x) : (byOrder (α := α)).Consistent where
  antisymm x y := by
    unfold byOrder
    by_cases hxy : x < y
    · rw [if_pos hxy, if_neg (Std.Asymm.asymm _ _ hxy), if_pos hxy]
      decide
    · rw [if_neg hxy, if_neg hxy]
      split <;> decide
  trans x y z hxy hyz := by
    rw [byOrder_le] at *
    exact htrans x y z hxy hyz

/-- The order of a dictionary. -/
def lex (c : Comparator α) : Comparator (List α)
  | [], [] => 0
  | [], _ :: _ => -1
  | _ :: _, [] => 1
  | x :: xs, y :: ys => if c x y ≠ 0 then c x y else lex c xs ys

theorem Consistent.lex {c : Comparator α} (h : c.Consistent) : (Comparator.lex c).Consistent where
  antisymm xs ys := by
    induction xs generalizing ys with
    | nil => cases ys <;> simp [Comparator.lex]
    | cons x xs ih =>
        cases ys with
        | nil => simp [Comparator.lex]
        | cons y ys =>
            have hxy := h.antisymm x y
            have hyx := h.antisymm y x
            have hrest := ih ys
            simp only [Comparator.lex]
            split <;> split <;> omega
  trans xs ys zs hxy hyz := by
    induction xs generalizing ys zs with
    | nil => cases zs <;> simp [Comparator.lex]
    | cons x xs ih =>
        cases ys with
        | nil => simp [Comparator.lex] at hxy
        | cons y ys =>
            cases zs with
            | nil => simp [Comparator.lex] at hyz
            | cons z zs =>
                exact h.trans_then (ih ys zs) hxy hyz

/-! ## Sorting -/

/-- `array.sort(compare)`: stable. -/
def sort (c : Comparator α) (l : List α) : List α := l.insertionSort fun x y => c x y ≤ 0

section
variable {c d : Comparator α} {l : List α} {x y : α}

theorem sort_perm (c : Comparator α) (l : List α) : (c.sort l).Perm l := List.perm_insertionSort _ l

theorem sort_pairwise (h : c.Consistent) (l : List α) :
    (c.sort l).Pairwise fun x y => c x y ≤ 0 := by
  have : Std.Total fun x y => c x y ≤ 0 := ⟨h.total⟩
  have : IsTrans α fun x y => c x y ≤ 0 := ⟨h.trans⟩
  exact List.pairwise_insertionSort _ l

/-- Elements that stand in order stay as they stand. -/
theorem sort_stable {kept : List α} (h : c.Consistent) (hsub : kept.Sublist l)
    (hpair : kept.Pairwise fun x y => c x y ≤ 0) : kept.Sublist (c.sort l) := by
  have : Std.Total fun x y => c x y ≤ 0 := ⟨h.total⟩
  have : IsTrans α fun x y => c x y ≤ 0 := ⟨h.trans⟩
  exact List.sublist_insertionSort hpair hsub

/-- A sort through a key that keeps the order. -/
theorem sort_map {f : β → α} {d : Comparator β} {l : List β}
    (h : ∀ a ∈ l, ∀ b ∈ l, (d a b ≤ 0 ↔ c (f a) (f b) ≤ 0)) : c.sort (l.map f) = (d.sort l).map f :=
  (List.map_insertionSort _ _ f l h).symm

theorem head_sort_le (h : c.Consistent) (hhead : (c.sort l).head? = some x) (hy : y ∈ l) :
    c x y ≤ 0 := by
  have hpair := sort_pairwise h l
  have hmem := (sort_perm c l).mem_iff.mpr hy
  cases hsort : c.sort l with
  | nil =>
      rw [hsort] at hhead
      cases hhead
  | cons z rest =>
      rw [hsort] at hhead hpair hmem
      cases hhead
      cases hmem with
      | head => exact (h.self x).le
      | tail _ hrest => exact List.rel_of_pairwise_cons hpair hrest

theorem pair_sublist_or (hx : x ∈ l) (hy : y ∈ l) (hne : x ≠ y) :
    [x, y].Sublist l ∨ [y, x].Sublist l := by
  induction l with
  | nil => cases hx
  | cons z rest ih =>
      cases hx with
      | head =>
          cases hy with
          | head => exact absurd rfl hne
          | tail _ hy => exact .inl (.cons_cons _ (List.singleton_sublist.mpr hy))
      | tail _ hx =>
          cases hy with
          | head => exact .inr (.cons_cons _ (List.singleton_sublist.mpr hx))
          | tail _ hy => exact (ih hx hy).imp (.cons _) (.cons _)

/-- The elements in strict order are what they are sorted to from any other. -/
theorem sort_eq_of_perm {l' : List α} (h : c.Consistent) (hperm : l.Perm l')
    (hpair : l'.Pairwise fun x y => c x y < 0) : c.sort l = l' := by
  have hle : l'.Pairwise fun x y => c x y ≤ 0 := hpair.imp fun hlt => hlt.le
  refine List.Perm.eq_of_pairwise ?_ (sort_pairwise h l) hle ((sort_perm c l).trans hperm)
  intro x y hx hy hxy hyx
  by_contra hne
  have hstrict : c x y < 0 ∨ c y x < 0 := by
    rcases pair_sublist_or ((((sort_perm c l).trans hperm).mem_iff).mp hx) hy hne with hsub | hsub
    · have hlt := List.pairwise_pair.mp (hpair.sublist hsub)
      exact .inl hlt
    · have hlt := List.pairwise_pair.mp (hpair.sublist hsub)
      exact .inr hlt
  have hxy' := h.antisymm x y
  have hyx' := h.antisymm y x
  omega

/-- Two comparators that agree on two elements leave them in the same order. -/
theorem sort_same_order (hc : c.Consistent) (hd : d.Consistent) (hx : x ∈ l) (hy : y ∈ l)
    (hne : x ≠ y) (hxy : c x y = d x y) (hyx : c y x = d y x) :
    [x, y].Sublist (c.sort l) ∧ [x, y].Sublist (d.sort l) ∨
      [y, x].Sublist (c.sort l) ∧ [y, x].Sublist (d.sort l) := by
  have hstable : ∀ {e : Comparator α} {u v : α}, e u v ≤ 0 → [u, v].Sublist l →
      [u, v].Sublist (e.sort l) := fun h hsub => List.pair_sublist_insertionSort h hsub
  have hstrict : ∀ {e : Comparator α} {u v : α}, e.Consistent → u ∈ l → v ∈ l → u ≠ v →
      0 < e v u → [u, v].Sublist (e.sort l) := by
    intro e u v he hu hv hne hlt
    rcases pair_sublist_or ((sort_perm e l).mem_iff.mpr hu) ((sort_perm e l).mem_iff.mpr hv) hne
      with hsub | hsub
    · exact hsub
    · have hle := List.pairwise_pair.mp ((sort_pairwise he l).sublist hsub)
      omega
  have hcase : c x y < 0 ∨ 0 < c x y ∨ c x y = 0 := by omega
  rcases hcase with hlt | hlt | hzero
  · have hlt' := (hc.antisymm x y).mp hlt
    exact .inl ⟨hstrict hc hx hy hne hlt', hstrict hd hx hy hne (hyx ▸ hlt')⟩
  · exact .inr ⟨hstrict hc hy hx hne.symm hlt, hstrict hd hy hx hne.symm (hxy ▸ hlt)⟩
  · have hzero' := hc.zero.mp hzero
    refine (pair_sublist_or hx hy hne).imp (fun h => ?_) fun h => ?_
    · exact ⟨hstable hzero.le h, hstable (hxy ▸ hzero).le h⟩
    · exact ⟨hstable hzero'.le h, hstable (hyx ▸ hzero').le h⟩

end

end Comparator
