import Mathlib.Data.List.TakeWhile

/-!
# Runs and their histories

A run of a labelled step relation, with its labels newest first. An invariant
may speak of the history. A simulation forgets the labels that the other system
does not see.
-/

/-- The states a step relation reaches, with the labels on the way, newest first. -/
inductive Run {σ ε : Type*} (step : σ → ε → σ → Prop) (start : σ) : List ε → σ → Prop
  | refl : Run step start [] start
  | step {history : List ε} {s s' : σ} {e : ε} :
      Run step start history s → step s e s' → Run step start (e :: history) s'

namespace Run

variable {σ τ ε δ : Type*} {step : σ → ε → σ → Prop} {start s : σ} {history : List ε}

/-- What holds at the start and is kept by each step of a run holds after it. -/
theorem invariant {I : List ε → σ → Prop} (run : Run step start history s) (hstart : I [] start)
    (hstep : ∀ {history s e s'}, Run step start history s → I history s → step s e s' →
      I (e :: history) s') : I history s := by
  induction run with
  | refl => exact hstart
  | step run h ih => exact hstep run ih h

theorem single {t : σ} {e : ε} (h : step s e t) : Run step s [e] t := refl.step h

theorem append {t : σ} {later : List ε} (run : Run step start history s)
    (rest : Run step s later t) : Run step start (later ++ history) t := by
  induction rest with
  | refl => exact run
  | step _ h ih => exact ih.step h

/-- A run passes through a state wherever its history is cut. -/
theorem split {later earlier : List ε} (run : Run step start (later ++ earlier) s) :
    ∃ mid, Run step start earlier mid ∧ Run step mid later s := by
  induction later generalizing s with
  | nil => exact ⟨s, run, .refl⟩
  | cons e later ih =>
      cases run with
      | step run h =>
          obtain ⟨mid, hearlier, hlater⟩ := ih run
          exact ⟨mid, hearlier, hlater.step h⟩

/-- A run one step before a label of its history. -/
theorem before {later earlier : List ε} {e : ε} (run : Run step start (later ++ e :: earlier) s) :
    ∃ t t', Run step start earlier t ∧ step t e t' ∧ Run step t' later s := by
  obtain ⟨mid, hearlier, hlater⟩ := run.split
  cases hearlier with
  | step run h => exact ⟨_, mid, run, h, hlater⟩

/-- What only labels of one kind change is kept by a run without them. -/
theorem frame {β : Type*} {f : σ → β} {p : ε → Bool} (run : Run step start history s)
    (hstep : ∀ {s e s'}, step s e s' → p e = false → f s' = f s)
    (hfree : ∀ e ∈ history, p e = false) : f s = f start := by
  induction run with
  | refl => rfl
  | @step history s s' e run h ih =>
      rw [hstep h (hfree e List.mem_cons_self)]
      exact ih fun d hd => hfree d (List.mem_cons_of_mem e hd)

/-- A run of one relation is a run of any that allows the same steps. -/
theorem mono {step' : σ → ε → σ → Prop} (run : Run step start history s)
    (hstep : ∀ {s e s'}, step s e s' → step' s e s') : Run step' start history s := by
  induction run with
  | refl => exact .refl
  | step _ h ih => exact ih.step (hstep h)

/-- A run with labels of one kind only is a run of the steps of that kind. -/
theorem restrict {p : ε → Prop} (run : Run step start history s) (hall : ∀ e ∈ history, p e) :
    Run (fun s e s' => step s e s' ∧ p e) start history s := by
  induction run with
  | refl => exact .refl
  | @step history s s' e run h ih =>
      exact (ih fun d hd => hall d (List.mem_cons_of_mem e hd)).step ⟨h, hall e List.mem_cons_self⟩

/-- Each label is matched by a step of the other system, or is not seen there. -/
theorem simulate {step' : τ → δ → τ → Prop} {start' : τ} {R : List ε → σ → τ → Prop}
    {view : ε → Option δ} (run : Run step start history s) (hstart : R [] start start')
    (hstep : ∀ {history s e s' t}, R history s t → step s e s' →
      (∃ d t', view e = some d ∧ step' t d t' ∧ R (e :: history) s' t') ∨
        view e = none ∧ R (e :: history) s' t) :
    ∃ t, Run step' start' (history.filterMap view) t ∧ R history s t := by
  induction run with
  | refl => exact ⟨start', .refl, hstart⟩
  | @step history s s' e run h ih =>
      obtain ⟨t, hrun, hrel⟩ := ih
      obtain ⟨d, t', hview, hstep', hrel'⟩ | ⟨hview, hrel'⟩ := hstep hrel h
      · exact ⟨t', by rw [List.filterMap_cons_some hview]; exact hrun.step hstep', hrel'⟩
      · exact ⟨t, by rwa [List.filterMap_cons_none hview], hrel'⟩

end Run

/-! ## The newest label of a kind

A history is cut at its newest label that satisfies `p`: the labels since then,
and the rest from that label on. A value stamped with a counter at that moment is
current as long as the counter has not moved since. -/

namespace History

variable {ε : Type*} (p q : ε → Bool)

def newest (history : List ε) : Option ε := history.find? p

def since (history : List ε) : List ε := history.takeWhile fun e => !p e

def upTo (history : List ε) : List ε := history.dropWhile fun e => !p e

variable {p q} {history : List ε} {e : ε}

@[simp] theorem newest_nil : newest p ([] : List ε) = none := rfl
@[simp] theorem since_nil : since p ([] : List ε) = [] := rfl
@[simp] theorem upTo_nil : upTo p ([] : List ε) = [] := rfl

theorem newest_cons_hit (h : p e = true) : newest p (e :: history) = some e :=
  List.find?_cons_of_pos h

theorem newest_cons_miss (h : p e = false) : newest p (e :: history) = newest p history :=
  List.find?_cons_of_neg (by rw [h]; exact Bool.false_ne_true)

theorem since_cons_hit (h : p e = true) : since p (e :: history) = [] := by
  simp only [since, List.takeWhile_cons, h, Bool.not_true, Bool.false_eq_true, if_false]

theorem since_cons_miss (h : p e = false) : since p (e :: history) = e :: since p history := by
  simp only [since, List.takeWhile_cons, h, Bool.not_false, if_true]

theorem upTo_cons_hit (h : p e = true) : upTo p (e :: history) = e :: history := by
  simp only [upTo, List.dropWhile_cons, h, Bool.not_true, Bool.false_eq_true, if_false]

theorem upTo_cons_miss (h : p e = false) : upTo p (e :: history) = upTo p history := by
  simp only [upTo, List.dropWhile_cons, h, Bool.not_false, if_true]

theorem since_append_upTo (history : List ε) : since p history ++ upTo p history = history :=
  List.takeWhile_append_dropWhile

theorem of_mem_since (h : e ∈ since p history) : p e = false := by
  simpa only [Bool.not_eq_true'] using List.mem_takeWhile_imp h

/-- The newest label of the kind, with what came before it. -/
theorem upTo_of_newest (h : newest p history = some e) :
    ∃ earlier, upTo p history = e :: earlier := by
  induction history with
  | nil => exact nomatch h
  | cons d history ih =>
      cases hd : p d with
      | false =>
          rw [newest_cons_miss hd] at h
          rw [upTo_cons_miss hd]
          exact ih h
      | true =>
          rw [newest_cons_hit hd, Option.some.injEq] at h
          exact ⟨history, by rw [upTo_cons_hit hd, h]⟩

theorem countP_since_add_upTo (history : List ε) :
    (since p history).countP q + (upTo p history).countP q = history.countP q := by
  rw [← List.countP_append, since_append_upTo]

/-- The counter stood where it stands now exactly when nothing has moved it since. -/
theorem countP_upTo_eq (history : List ε) :
    (upTo p history).countP q = history.countP q ↔ ∀ e ∈ since p history, q e = false := by
  rw [← countP_since_add_upTo (p := p) history, Nat.right_eq_add, List.countP_eq_zero]
  simp only [Bool.not_eq_true]

end History
