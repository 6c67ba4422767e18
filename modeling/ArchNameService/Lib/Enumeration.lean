import Mathlib.Data.List.Nodup

/-!
# Enumerations

A list enumerates a partial map where it has the value of every key once, and no other
value. What is said is said of the keys in scope; the values of the other keys only have
distinct keys.
-/

structure Enumerates {α κ : Type} (place : α → κ) (scope : κ → Prop) (held : κ → Option α)
    (xs : List α) : Prop where
  once : (xs.map place).Nodup
  mem_iff : ∀ k, scope k → ∀ x, x ∈ xs ∧ place x = k ↔ held k = some x

namespace Enumerates

variable {α β γ κ : Type} {place : α → κ} {scope : κ → Prop} {held : κ → Option α} {xs : List α}

/-- What comes from distinct places, and tells its place, is distinct. -/
theorem nodup_filterMap {f : α → Option β} {origin : α → γ} {key : β → γ} {l : List α}
    (h : (l.map origin).Nodup) (hkey : ∀ a b, f a = some b → key b = origin a) :
    ((l.filterMap f).map key).Nodup := by
  refine List.Nodup.sublist ?_ h
  clear h
  induction l with
  | nil => exact .slnil
  | cons a l ih =>
      rw [List.map_cons]
      cases hf : f a with
      | none =>
          rw [List.filterMap_cons_none hf]
          exact ih.cons _
      | some b =>
          rw [List.filterMap_cons_some hf, List.map_cons, hkey a b hf]
          exact ih.cons_cons _

theorem filter (h : Enumerates place scope held xs) (p : α → Bool) :
    Enumerates place scope (fun k => (held k).filter p) (xs.filter p) where
  once := h.once.sublist (List.filter_sublist.map place)
  mem_iff k hk x := by
    rw [Option.filter_eq_some_iff, ← h.mem_iff k hk x, List.mem_filter]
    exact and_right_comm

theorem perm {ys : List α} (h : Enumerates place scope held xs) (hperm : ys.Perm xs) :
    Enumerates place scope held ys where
  once := (hperm.map place).nodup_iff.mpr h.once
  mem_iff k hk x := by
    rw [hperm.mem_iff]
    exact h.mem_iff k hk x

theorem lookup_of_mem {κ β : Type} [BEq κ] [LawfulBEq κ] {l : List (κ × β)} {k : κ} {b : β}
    (hnodup : (l.map Prod.fst).Nodup) (h : (k, b) ∈ l) : l.lookup k = some b := by
  induction l with
  | nil => cases h
  | cons entry l ih =>
      rw [List.map_cons, List.nodup_cons] at hnodup
      cases h with
      | head => exact List.lookup_cons_self
      | tail _ h =>
          have hne : (k == entry.1) = false := by
            apply beq_eq_false_iff_ne.mpr
            intro heq
            exact hnodup.1 (heq ▸ List.mem_map_of_mem h)
          rw [List.lookup_cons, hne]
          exact ih hnodup.2 h

/-- A table of the values, from the last to the first, finds the value of every key in scope. -/
theorem lookup [BEq γ] [LawfulBEq γ] (h : Enumerates place scope held xs) {code : κ → γ}
    (hcode : Function.Injective code) (label : α → β) {k : κ} (hk : scope k) :
    (xs.reverse.map fun x => (code (place x), label x)).lookup (code k) = (held k).map label := by
  have hkeys : ((xs.reverse.map fun x => (code (place x), label x)).map Prod.fst).Nodup := by
    have hsame : (xs.reverse.map fun x => (code (place x), label x)).map Prod.fst =
        ((xs.map place).map code).reverse := by
      rw [List.map_map, List.map_map, ← List.map_reverse]
      rfl
    rw [hsame, List.nodup_reverse]
    exact h.once.map hcode
  cases hheld : held k with
  | some x =>
      obtain ⟨hx, rfl⟩ := (h.mem_iff k hk x).mpr hheld
      exact lookup_of_mem hkeys (List.mem_map.mpr ⟨x, List.mem_reverse.mpr hx, rfl⟩)
  | none =>
      cases hfound : (xs.reverse.map fun x => (code (place x), label x)).lookup (code k) with
      | none => rfl
      | some b =>
          obtain ⟨front, back, hsplit, -⟩ := List.lookup_eq_some_iff.mp hfound
          obtain ⟨x, hx, hentry⟩ := List.mem_map.mp
            (hsplit ▸ List.mem_append_right front List.mem_cons_self)
          have hplace := hcode (Prod.mk.inj hentry).1
          rw [(h.mem_iff k hk x).mp ⟨List.mem_reverse.mp hx, hplace⟩] at hheld
          cases hheld

end Enumerates
