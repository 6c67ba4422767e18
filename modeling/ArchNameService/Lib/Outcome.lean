import Mathlib.Logic.Basic

/-! Fallible code: an early return with an error, or a panic. -/

/-- How a call ends without a value: it returns an error, or it panics. -/
inductive Abort (ε : Type) where
  | error (e : ε)
  | panic
  deriving DecidableEq

/-- The early return `if condition { return Err(e) }`. -/
def reject {ε : Type} (condition : Prop) [Decidable condition] (e : ε) : Except ε Unit :=
  if condition then .error e else .ok ()

/-- The value of an option, or an error where there is none. -/
def orElseError {ε α : Type} (e : ε) : Option α → Except ε α
  | some a => .ok a
  | none => .error e

namespace Outcome

variable {ε δ α β : Type}

theorem ok_bind (a : α) (f : α → Except ε β) : (Except.ok a >>= f) = f a := rfl

theorem error_bind (e : ε) (f : α → Except ε β) : (Except.error e >>= f) = .error e := rfl

@[simp] theorem bind_ok {x : Except ε α} {f : α → Except ε β} {b : β} :
    (x >>= f) = .ok b ↔ ∃ a, x = .ok a ∧ f a = .ok b := by
  cases x with
  | error e => exact ⟨fun h => (nomatch h), fun ⟨_, h, _⟩ => (nomatch h)⟩
  | ok a =>
      change f a = .ok b ↔ _
      exact ⟨fun h => ⟨a, rfl, h⟩, fun ⟨_, ha, h⟩ => by cases ha; exact h⟩

@[simp] theorem pure_ok {a b : α} : (pure a : Except ε α) = .ok b ↔ a = b :=
  ⟨fun h => by cases h; rfl, fun h => by cases h; rfl⟩

@[simp] theorem reject_ok {condition : Prop} [Decidable condition] {e : ε} {u : Unit} :
    reject condition e = .ok u ↔ ¬ condition := by
  unfold reject
  split
  · rename_i h
    exact ⟨fun e => (nomatch e), fun n => absurd h n⟩
  · rename_i h
    exact ⟨fun _ => h, fun _ => rfl⟩

@[simp] theorem orElseError_ok {e : ε} {o : Option α} {a : α} :
    orElseError e o = .ok a ↔ o = some a := by
  cases o with
  | none => exact ⟨fun h => (nomatch h), fun h => (nomatch h)⟩
  | some b => simp only [orElseError, Except.ok.injEq, Option.some.injEq]

@[simp] theorem mapError_ok {x : Except ε α} {f : ε → δ} {a : α} :
    x.mapError f = .ok a ↔ x = .ok a := by
  cases x with
  | error e => exact ⟨fun h => (nomatch h), fun h => (nomatch h)⟩
  | ok b => exact ⟨fun h => by cases h; rfl, fun h => by cases h; rfl⟩

@[simp] theorem throw_ok {e : ε} {a : α} : (throw e : Except ε α) = .ok a ↔ False :=
  ⟨fun h => (nomatch h), False.elim⟩

@[simp] theorem toOption_eq_some {x : Except ε α} {a : α} :
    x.toOption = some a ↔ x = .ok a := by
  cases x with
  | error e => exact ⟨fun h => (nomatch h), fun h => (nomatch h)⟩
  | ok b => simp only [Except.toOption, Option.some.injEq, Except.ok.injEq]

/-! ## Calls that fail -/

theorem bind_error {x : Except ε α} {f : α → Except ε β} {e : ε} :
    (x >>= f) = .error e ↔ x = .error e ∨ ∃ a, x = .ok a ∧ f a = .error e := by
  cases x with
  | error e' =>
      change Except.error e' = .error e ↔ _
      exact ⟨fun h => .inl (congrArg _ (Except.error.inj h)), fun h => by
        rcases h with h | ⟨_, h, -⟩
        · exact congrArg _ (Except.error.inj h)
        · exact nomatch h⟩
  | ok a =>
      change f a = .error e ↔ _
      exact ⟨fun h => .inr ⟨a, rfl, h⟩, fun h => by
        rcases h with h | ⟨_, ha, h⟩
        · exact nomatch h
        · exact Except.ok.inj ha ▸ h⟩

theorem pure_error {a : α} {e : ε} : (pure a : Except ε α) = .error e ↔ False :=
  ⟨fun h => (nomatch h), False.elim⟩

theorem reject_error {condition : Prop} [Decidable condition] {e e' : ε} :
    reject condition e = .error e' ↔ condition ∧ e = e' := by
  unfold reject
  split
  · rename_i h
    exact ⟨fun he => ⟨h, Except.error.inj he⟩, fun he => congrArg _ he.2⟩
  · rename_i h
    exact ⟨fun he => (nomatch he), fun he => absurd he.1 h⟩

theorem orElseError_error {e e' : ε} {o : Option α} :
    orElseError e o = .error e' ↔ o = none ∧ e = e' := by
  cases o with
  | none => exact ⟨fun h => ⟨rfl, Except.error.inj h⟩, fun h => congrArg _ h.2⟩
  | some a => exact ⟨fun h => (nomatch h), fun h => (nomatch h.1)⟩

theorem mapError_error {x : Except ε α} {f : ε → δ} {e : δ} :
    x.mapError f = .error e ↔ ∃ e', x = .error e' ∧ f e' = e := by
  cases x with
  | error e' =>
      exact ⟨fun h => ⟨e', rfl, Except.error.inj h⟩, fun ⟨_, h, he⟩ => by
        cases h
        exact congrArg _ he⟩
  | ok a => exact ⟨fun h => (nomatch h), fun ⟨_, h, _⟩ => (nomatch h)⟩

/-! ## Calls that do not panic -/

/-- The call returns, with a value or with an error. -/
def NoPanic (x : Except (Abort ε) α) : Prop := x ≠ .error .panic

theorem noPanic_ok (a : α) : NoPanic (.ok a : Except (Abort ε) α) := nofun

theorem noPanic_of_ok {x : Except (Abort ε) α} {a : α} (h : x = .ok a) : NoPanic x := h ▸ noPanic_ok a

theorem noPanic_throw (e : ε) : NoPanic (throw (.error e) : Except (Abort ε) α) := nofun

theorem noPanic_reject (condition : Prop) [Decidable condition] (e : ε) :
    NoPanic (reject condition (.error e)) := by
  unfold reject
  split
  · exact noPanic_throw e
  · exact noPanic_ok ()

theorem noPanic_orElseError (e : ε) (o : Option α) : NoPanic (orElseError (.error e) o) := by
  cases o with
  | none => exact noPanic_throw e
  | some a => exact noPanic_ok a

theorem NoPanic.bind {x : Except (Abort ε) α} {f : α → Except (Abort ε) β} (hx : NoPanic x)
    (hf : ∀ a, x = .ok a → NoPanic (f a)) : NoPanic (x >>= f) := by
  cases x with
  | error e =>
      intro h
      exact hx (congrArg Except.error (Except.error.inj h))
  | ok a => exact hf a rfl

end Outcome
