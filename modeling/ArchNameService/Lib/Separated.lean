import Mathlib.Computability.Language

/-!
# Words of segments that a separator joins

The language of the pattern `a+(xa+)*`, for the letters of a class `a` and a
separator `x` outside it: its words are those that are not empty, consist of
letters and separators, and have no separator at either end or beside another one.
-/

open Computability

namespace Separated

variable {α : Type} (letter : α → Prop) (x : α)

/-- The words of one letter. -/
def letters : Language α := {w | ∃ a, letter a ∧ w = [a]}

def separator : Language α := {[x]}

def segment : Language α := letters letter * (letters letter)∗

def pattern : Language α := segment letter * (separator x * segment letter)∗

/-- What may follow the first letter of a segment. -/
def tail : Language α := (letters letter)∗ * (separator x * segment letter)∗

theorem pattern_eq : pattern letter x = letters letter * tail letter x := mul_assoc ..

/-- After a letter, the word ends, goes on with a letter, or with a new segment. -/
theorem tail_eq :
    tail letter x = 1 + separator x * pattern letter x + letters letter * tail letter x := by
  have hsegments : (separator x * segment letter)∗ = 1 + separator x * pattern letter x := by
    rw [pattern, ← mul_assoc]
    exact (Language.one_add_self_mul_kstar_eq_kstar _).symm
  have hletters : (letters letter)∗ = 1 + letters letter * (letters letter)∗ :=
    (Language.one_add_self_mul_kstar_eq_kstar _).symm
  calc tail letter x = (1 + letters letter * (letters letter)∗) * (separator x * segment letter)∗ := by
        rw [tail, ← hletters]
    _ = (separator x * segment letter)∗ + letters letter * tail letter x := by
        rw [add_mul, one_mul, mul_assoc]
        rfl
    _ = 1 + separator x * pattern letter x + letters letter * tail letter x := by rw [← hsegments]

variable {letter x}

theorem nil_notMem_letters_mul (l : Language α) : [] ∉ letters letter * l := by
  rintro ⟨_, ⟨a, -, rfl⟩, w, -, h⟩
  exact nomatch h

theorem cons_mem_letters_mul {l : Language α} {a : α} {w : List α} :
    a :: w ∈ letters letter * l ↔ letter a ∧ w ∈ l := by
  constructor
  · rintro ⟨_, ⟨b, hb, rfl⟩, v, hv, h⟩
    cases h
    exact ⟨hb, hv⟩
  · rintro ⟨ha, hw⟩
    exact ⟨[a], ⟨a, ha, rfl⟩, w, hw, rfl⟩

theorem cons_mem_separator_mul {l : Language α} {a : α} {w : List α} :
    a :: w ∈ separator x * l ↔ a = x ∧ w ∈ l := by
  constructor
  · rintro ⟨_, rfl, v, hv, h⟩
    cases h
    exact ⟨rfl, hv⟩
  · rintro ⟨rfl, hw⟩
    exact ⟨[a], rfl, w, hw, rfl⟩

theorem nil_mem_tail : [] ∈ tail letter x := by
  rw [tail_eq]
  exact .inl (.inl rfl)

theorem cons_mem_tail {a : α} {w : List α} :
    a :: w ∈ tail letter x ↔ a = x ∧ w ∈ pattern letter x ∨ letter a ∧ w ∈ tail letter x := by
  rw [← cons_mem_separator_mul, ← cons_mem_letters_mul]
  nth_rewrite 1 [tail_eq]
  constructor
  · rintro ((h | h) | h)
    · exact nomatch h
    · exact .inl h
    · exact .inr h
  · rintro (h | h)
    · exact .inl (.inr h)
    · exact .inr h

theorem cons_mem_pattern {a : α} {w : List α} :
    a :: w ∈ pattern letter x ↔ letter a ∧ w ∈ tail letter x := by
  rw [pattern_eq, cons_mem_letters_mul]

theorem nil_notMem_pattern : [] ∉ pattern letter x := by
  rw [pattern_eq]
  exact nil_notMem_letters_mul _

variable (letter x)

/-- Letters and separators, no two of which stand side by side, nor one at the end. -/
structure Spaced (w : List α) : Prop where
  letters : ∀ a ∈ w, letter a ∨ a = x
  last : w.getLast? ≠ some x
  apart : w.IsChain fun a b => ¬ (a = x ∧ b = x)

variable {letter x}

theorem spaced_nil : Spaced letter x [] := ⟨nofun, nofun, .nil⟩

/-- In front of a letter nothing is asked of it. -/
theorem spaced_letter {a : α} {w : List α} (ha : letter a) (hne : a ≠ x) :
    Spaced letter x (a :: w) ↔ Spaced letter x w := by
  cases w with
  | nil =>
      refine ⟨fun _ => spaced_nil, fun _ => ⟨?_, ?_, .singleton a⟩⟩
      · intro b hb
        exact .inl (List.mem_singleton.mp hb ▸ ha)
      · simpa using hne
  | cons b w =>
      have hapart : ¬ (a = x ∧ b = x) := fun h => hne h.1
      constructor
      · intro h
        refine ⟨fun c hc => h.letters c (List.mem_cons_of_mem a hc), ?_, ?_⟩
        · simpa only [List.getLast?_cons_cons] using h.last
        · exact (List.isChain_cons_cons.mp h.apart).2
      · intro h
        refine ⟨?_, ?_, List.isChain_cons_cons.mpr ⟨hapart, h.apart⟩⟩
        · intro c hc
          rcases List.mem_cons.mp hc with rfl | hc
          · exact .inl ha
          · exact h.letters c hc
        · simpa only [List.getLast?_cons_cons] using h.last

/-- Behind a separator a segment has to begin. -/
theorem spaced_separator {w : List α} :
    Spaced letter x (x :: w) ↔ w ≠ [] ∧ w.head? ≠ some x ∧ Spaced letter x w := by
  cases w with
  | nil => exact ⟨fun h => absurd rfl h.last, fun h => absurd rfl h.1⟩
  | cons b w =>
      constructor
      · intro h
        obtain ⟨hapart, hchain⟩ := List.isChain_cons_cons.mp h.apart
        refine ⟨nofun, ?_, fun c hc => h.letters c (List.mem_cons_of_mem x hc), ?_, hchain⟩
        · simpa using hapart
        · simpa only [List.getLast?_cons_cons] using h.last
      · rintro ⟨-, hhead, h⟩
        refine ⟨?_, ?_, List.isChain_cons_cons.mpr ⟨?_, h.apart⟩⟩
        · intro c hc
          rcases List.mem_cons.mp hc with rfl | hc
          · exact .inr rfl
          · exact h.letters c hc
        · simpa only [List.getLast?_cons_cons] using h.last
        · rintro ⟨-, rfl⟩
          exact hhead rfl

theorem mem_iff (hx : ¬ letter x) (w : List α) :
    (w ∈ tail letter x ↔ Spaced letter x w) ∧
      (w ∈ pattern letter x ↔ w ≠ [] ∧ w.head? ≠ some x ∧ Spaced letter x w) := by
  induction w with
  | nil =>
      refine ⟨⟨fun _ => spaced_nil, fun _ => nil_mem_tail⟩, ?_⟩
      exact ⟨fun h => absurd h nil_notMem_pattern, fun h => absurd rfl h.1⟩
  | cons a w ih =>
      obtain ⟨htail, hpattern⟩ := ih
      rw [cons_mem_tail, cons_mem_pattern, htail, hpattern]
      by_cases ha : letter a
      · have hne : a ≠ x := by
          rintro rfl
          exact hx ha
        rw [spaced_letter ha hne]
        simp [ha, hne]
      · by_cases heq : a = x
        · subst heq
          rw [spaced_separator]
          simp [ha]
        · have hspaced : ¬ Spaced letter x (a :: w) := fun h =>
            (h.letters a (List.mem_cons_self ..)).elim ha heq
          simp [ha, heq, hspaced]

end Separated
