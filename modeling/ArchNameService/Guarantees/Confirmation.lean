import ArchNameService.Sdk.Confirm

/-!
# The verdict of a confirmation wait

A wait ends within the polls that its deadline leaves room for. Its verdict depends
only on the signals of the polls made in time: the first that decides does so, and a
read that throws decides nothing.
-/

namespace ArchNameService

namespace Sdk

/-- The message of what a read throws. -/
def thrown {α : Type} : Except JsString α → Option JsString
  | .error message => some message
  | .ok _ => none

namespace Wait
variable (w : Wait)

/-! ## Signals -/

/-- The caller's own signal fires in poll `n`. -/
def Probed (n : Nat) : Prop := ∃ isComplete, w.isComplete = some isComplete ∧ isComplete n = .ok true

/-- The lookup of poll `n` returns `Failed`. -/
def FailedWith (n : Nat) (message : JsString) : Prop :=
  ∃ t, w.getProcessedTransaction n = .ok (some t) ∧ t.status = text "Failed" ∧
    w.failureMessage t = message

def Failed (n : Nat) : Prop := ∃ message, w.FailedWith n message

/-- The lookup of poll `n` returns that the transaction was processed. -/
def Reported (n : Nat) : Prop :=
  ∃ t, w.getProcessedTransaction n = .ok (some t) ∧ isSettled t.status = true

/-- The signal to wait for: the caller's own where there is one, else the receipt. -/
def Completes (n : Nat) : Prop := w.Probed n ∨ w.isComplete = none ∧ w.Reported n

/-- The deadline leaves room for poll `n`. -/
def InTime (n : Nat) : Prop := ∀ m < n, w.now m + w.interval ≤ w.deadline

/-- Each sleep lasts an interval at least. -/
structure Clocked : Prop where
  start : w.start ≤ w.now 0
  sleep : ∀ n, w.now n + w.interval ≤ w.now (n + 1)

/-- What poll `n` throws, the lookup before the probe. -/
def thrownIn (n : Nat) : Option JsString :=
  (thrown (w.getProcessedTransaction n)).or
    (w.isComplete.bind fun isComplete => thrown (isComplete n))

/-- What was thrown last in the first `n` polls. -/
def lastThrown : Nat → Option JsString
  | 0 => none
  | n + 1 => (w.thrownIn n).or (lastThrown n)

/-- The same wait with reads that return nothing where they throw. -/
def silenced : Wait :=
  { w with
    isComplete := w.isComplete.map fun isComplete n => .ok ((isComplete n).toOption.getD false)
    getProcessedTransaction := fun n => .ok (w.getProcessedTransaction n).toOption.join }

/-- The rounds that go on: nothing in them decides. -/
structure Waiting (n : Nat) (s : WaitState) : Prop where
  undecided : ∀ m < n, ¬ w.Completes m ∧ ¬ w.Failed m
  inTime : w.InTime n
  processed : s.processed = true ↔ ∃ m < n, w.Reported m
  lastLookupError : s.lastLookupError = w.lastThrown n

variable {w}

theorem not_settled_of_failed {status : JsString} (h : status = text "Failed") :
    isSettled status = false := by
  subst h
  decide

/-! ## One poll -/

theorem reported_iff {n : Nat} {t : ProcessedTransaction}
    (h : w.getProcessedTransaction n = .ok (some t)) :
    w.Reported n ↔ isSettled t.status = true := by
  unfold Reported
  rw [h]
  exact ⟨fun ⟨_, ht, hsettled⟩ => by cases ht; exact hsettled, fun hsettled => ⟨t, rfl, hsettled⟩⟩

theorem failedWith_iff {n : Nat} {t : ProcessedTransaction} {message : JsString}
    (h : w.getProcessedTransaction n = .ok (some t)) :
    w.FailedWith n message ↔ t.status = text "Failed" ∧ w.failureMessage t = message := by
  unfold FailedWith
  rw [h]
  exact ⟨fun ⟨_, ht, hfailed⟩ => by cases ht; exact hfailed, fun hfailed => ⟨t, rfl, hfailed⟩⟩

/-- A lookup that finds nothing is no signal. -/
theorem not_signalled {n : Nat} (h : ∀ t, w.getProcessedTransaction n ≠ .ok (some t)) :
    ¬ w.Reported n ∧ ¬ w.Failed n := by
  constructor
  · rintro ⟨t, ht, -⟩
    exact h t ht
  · rintro ⟨_, t, ht, -⟩
    exact h t ht

/-- What poll `n` does with the status, once the caller's own signal has not fired. -/
theorem pollStatus_cases (n : Nat) (s : WaitState) :
    (∃ message, w.FailedWith n message ∧ w.pollStatus n s = .inl (.fails message)) ∨
    (w.isComplete = none ∧ w.Reported n ∧ w.pollStatus n s = .inl (.returns .complete)) ∨
    (¬ (w.isComplete = none ∧ w.Reported n) ∧ ¬ w.Failed n ∧ ∃ s',
      s'.lastLookupError = (thrown (w.getProcessedTransaction n)).or s.lastLookupError ∧
      (s'.processed = true ↔ s.processed = true ∨ w.Reported n) ∧
      w.pollStatus n s = w.endPoll n s') := by
  unfold pollStatus
  cases hlookup : w.getProcessedTransaction n with
  | error message =>
      obtain ⟨hreported, hfailed⟩ := not_signalled (w := w) (n := n) (by rw [hlookup]; nofun)
      exact .inr (.inr ⟨fun h => hreported h.2, hfailed, { s with lastLookupError := some message },
        rfl, ⟨.inl, fun h => h.resolve_right hreported⟩, rfl⟩)
  | ok found =>
      cases found with
      | none =>
          obtain ⟨hreported, hfailed⟩ := not_signalled (w := w) (n := n) (by rw [hlookup]; nofun)
          exact .inr (.inr ⟨fun h => hreported h.2, hfailed, s, rfl,
            ⟨.inl, fun h => h.resolve_right hreported⟩, rfl⟩)
      | some t =>
          have hreported := reported_iff hlookup
          have hfailed : ¬ w.Failed n ↔ t.status ≠ text "Failed" := by
            simp [Failed, failedWith_iff hlookup]
          by_cases hstatus : t.status = text "Failed"
          · refine .inl ⟨w.failureMessage t, (failedWith_iff hlookup).mpr ⟨hstatus, rfl⟩, ?_⟩
            simp only [hstatus, if_true]
          · simp only [hstatus, if_false]
            by_cases hsettled : isSettled t.status = true
            · cases hcomplete : w.isComplete with
              | none =>
                  refine .inr (.inl ⟨rfl, hreported.mpr hsettled, ?_⟩)
                  simp only [hsettled, if_true, Option.isNone_none]
              | some isComplete =>
                  refine .inr (.inr ⟨fun h => (nomatch h.1), hfailed.mpr hstatus,
                    { s with processed := true }, rfl, ⟨fun _ => .inr (hreported.mpr hsettled), fun _ => rfl⟩, ?_⟩)
                  simp only [hsettled, if_true, Option.isNone_some, Bool.false_eq_true, if_false]
            · have hnot : ¬ w.Reported n := fun h => hsettled (hreported.mp h)
              refine .inr (.inr ⟨fun h => hnot h.2, hfailed.mpr hstatus, s, rfl,
                ⟨.inl, fun h => h.resolve_right hnot⟩, ?_⟩)
              simp only [hsettled, Bool.false_eq_true, if_false]

/-- What poll `n` does: it ends at a signal, or goes on with what it has read. -/
theorem poll_cases (n : Nat) (s : WaitState) :
    (w.Probed n ∧ w.poll n s = .inl (.returns .complete)) ∨
    (¬ w.Probed n ∧ ∃ message, w.FailedWith n message ∧ w.poll n s = .inl (.fails message)) ∨
    (w.isComplete = none ∧ w.Reported n ∧ w.poll n s = .inl (.returns .complete)) ∨
    (¬ w.Completes n ∧ ¬ w.Failed n ∧ ∃ s',
      s'.lastLookupError = (w.thrownIn n).or s.lastLookupError ∧
      (s'.processed = true ↔ s.processed = true ∨ w.Reported n) ∧
      w.poll n s = w.endPoll n s') := by
  unfold poll
  cases hcomplete : w.isComplete with
  | none =>
      have hprobed : ¬ w.Probed n := by
        rintro ⟨_, h, -⟩
        exact nomatch hcomplete.symm.trans h
      have hthrown : w.thrownIn n = thrown (w.getProcessedTransaction n) := by
        rw [thrownIn, hcomplete]
        exact Option.or_none
      rcases pollStatus_cases n s with ⟨message, h⟩ | ⟨-, hreported, h⟩ | ⟨hnot, h⟩
      · exact .inr (.inl ⟨hprobed, message, h⟩)
      · exact .inr (.inr (.inl ⟨rfl, hreported, h⟩))
      · rw [hthrown]
        exact .inr (.inr (.inr ⟨not_or.mpr ⟨hprobed, hnot⟩, h⟩))
  | some isComplete =>
      have hcompletes : w.Completes n ↔ isComplete n = .ok true := by
        simp [Completes, Probed, hcomplete]
      have hprobed : w.Probed n ↔ isComplete n = .ok true := by simp [Probed, hcomplete]
      -- the status is looked up with what the probe has thrown
      have hstatus : ∀ s₁ : WaitState, isComplete n ≠ .ok true → s₁.processed = s.processed →
          s₁.lastLookupError = (thrown (isComplete n)).or s.lastLookupError →
          (¬ w.Probed n ∧ ∃ message, w.FailedWith n message ∧
              w.pollStatus n s₁ = .inl (.fails message)) ∨
            (¬ w.Completes n ∧ ¬ w.Failed n ∧ ∃ s',
              s'.lastLookupError = (w.thrownIn n).or s.lastLookupError ∧
              (s'.processed = true ↔ s.processed = true ∨ w.Reported n) ∧
              w.pollStatus n s₁ = w.endPoll n s') := by
        intro s₁ hresult hprocessed hlast
        have hthrown : w.thrownIn n =
            (thrown (w.getProcessedTransaction n)).or (thrown (isComplete n)) := by
          rw [thrownIn, hcomplete]
          rfl
        rw [hprobed, hcompletes, hthrown, Option.or_assoc, ← hlast, ← hprocessed]
        rcases pollStatus_cases n s₁ with h | ⟨hnone, -⟩ | ⟨-, h⟩
        · exact .inl ⟨hresult, h⟩
        · exact nomatch hcomplete.symm.trans hnone
        · exact .inr ⟨hresult, h⟩
      cases hresult : isComplete n with
      | error message =>
          simp only [hresult]
          rcases hstatus { s with lastLookupError := some message } (by rw [hresult]; nofun) rfl
            (by rw [hresult]; rfl) with h | h
          · exact .inr (.inl h)
          · exact .inr (.inr (.inr h))
      | ok fired =>
          simp only [hresult]
          cases fired with
          | true => exact .inl ⟨hprobed.mpr hresult, rfl⟩
          | false =>
              rcases hstatus s (by rw [hresult]; nofun) rfl (by rw [hresult]; rfl) with h | h
              · exact .inr (.inl h)
              · exact .inr (.inr (.inr h))

/-! ## The whole wait -/

/-- What a timeout after poll `last` has to tell of the lookups. -/
structure Attaches (w : Wait) (last : Nat) (lastLookupError : Option JsString) : Prop where
  reported : (∃ m ≤ last, w.Reported m) → lastLookupError = none
  thrown : (∀ m ≤ last, ¬ w.Reported m) → lastLookupError = w.lastThrown (last + 1)

/-- Poll `last` ends the wait with this result. -/
inductive Ends (w : Wait) (last : Nat) : WaitResult → Prop where
  | complete : w.Completes last → Ends w last (.returns .complete)
  | fails {message : JsString} : ¬ w.Probed last → w.FailedWith last message →
      Ends w last (.fails message)
  | timeout {lastLookupError : Option JsString} : ¬ w.Completes last → ¬ w.Failed last →
      w.deadline < w.now last + w.interval → w.Attaches last lastLookupError →
      Ends w last (.returns (.timeout lastLookupError))

theorem Waiting.ends {n : Nat} {s : WaitState} {result : WaitResult} (hs : w.Waiting n s)
    (h : w.poll n s = .inl result) : w.Ends n result := by
  rcases poll_cases n s with ⟨hprobed, hpoll⟩ | ⟨hprobed, message, hfailed, hpoll⟩ |
    ⟨hnone, hreported, hpoll⟩ | ⟨hcompletes, hfailed, s', hlast, hprocessed, hpoll⟩
  · rw [hpoll] at h
    cases h
    exact .complete (.inl hprobed)
  · rw [hpoll] at h
    cases h
    exact .fails hprobed hfailed
  · rw [hpoll] at h
    cases h
    exact .complete (.inr ⟨hnone, hreported⟩)
  · rw [hpoll, endPoll] at h
    split at h
    · rename_i hlate
      cases h
      have hreported : s'.processed = true ↔ ∃ m ≤ n, w.Reported m := by
        rw [hprocessed, hs.processed, ← Nat.exists_lt_succ_right]
        simp only [Nat.lt_succ_iff]
      refine .timeout hcompletes hfailed hlate ⟨?_, ?_⟩
      · intro hany
        exact if_pos (hreported.mpr hany)
      · intro hnone
        rw [if_neg fun h => absurd (hreported.mp h) (by simpa using hnone), hlast,
          hs.lastLookupError]
        rfl
    · exact nomatch h

theorem Waiting.next {n : Nat} {s s' : WaitState} (hs : w.Waiting n s)
    (h : w.poll n s = .inr s') : w.now n + w.interval ≤ w.deadline ∧ w.Waiting (n + 1) s' := by
  rcases poll_cases n s with ⟨-, hpoll⟩ | ⟨-, _, -, hpoll⟩ | ⟨-, -, hpoll⟩ |
    ⟨hcompletes, hfailed, s₁, hlast, hprocessed, hpoll⟩
  · exact nomatch hpoll.symm.trans h
  · exact nomatch hpoll.symm.trans h
  · exact nomatch hpoll.symm.trans h
  · rw [hpoll, endPoll] at h
    split at h
    · exact nomatch h
    · rename_i hintime
      cases h
      have hintime := not_lt.mp hintime
      refine ⟨hintime, ?_, ?_, ?_, ?_⟩
      · exact Nat.forall_lt_succ_right.mpr ⟨hs.undecided, hcompletes, hfailed⟩
      · exact Nat.forall_lt_succ_right.mpr ⟨hs.inTime, hintime⟩
      · rw [hprocessed, hs.processed, Nat.exists_lt_succ_right]
      · rw [hlast, hs.lastLookupError]
        rfl

theorem Clocked.now_le (hclock : w.Clocked) (n : Nat) : w.start + n * w.interval ≤ w.now n := by
  induction n with
  | zero =>
      rw [Nat.cast_zero, zero_mul, add_zero]
      exact hclock.start
  | succ n ih =>
      calc w.start + (n + 1 : ℕ) * w.interval = w.start + n * w.interval + w.interval := by
            push_cast
            ring
        _ ≤ w.now n + w.interval := add_le_add_left ih _
        _ ≤ w.now (n + 1) := hclock.sleep n

/-- The deadline leaves room for only so many further polls. -/
theorem Clocked.lt_floor (hclock : w.Clocked) (hinterval : 0 < w.interval) {n : Nat}
    (h : w.now n + w.interval ≤ w.deadline) : n < ⌊w.timeout / w.interval⌋₊ := by
  apply Nat.le_floor
  rw [le_div_iff₀ hinterval]
  have hnow := hclock.now_le n
  have hdeadline : w.deadline = w.start + w.timeout := rfl
  push_cast
  linarith

theorem waiting_init (w : Wait) : w.Waiting 0 { lastLookupError := none, processed := false } :=
  ⟨fun _ h => (nomatch h), fun _ h => (nomatch h), ⟨nofun, fun ⟨_, h, _⟩ => (nomatch h)⟩, rfl⟩

/-- The wait ends, within the polls that the deadline leaves room for. -/
theorem wait_ends (hinterval : 0 < w.interval) (hclock : w.Clocked) :
    ∃ result last, last ≤ ⌊w.timeout / w.interval⌋₊ ∧ (∀ m < last, ¬ w.Completes m ∧ ¬ w.Failed m) ∧
      w.InTime last ∧ w.Ends last result ∧
      ∀ fuel, last < fuel → w.waitForTransaction fuel = some (result, last + 1) := by
  have hstep : ∀ n s s', w.Waiting n s → w.poll n s = .inr s' →
      n < ⌊w.timeout / w.interval⌋₊ ∧ w.Waiting (n + 1) s' := by
    intro n s s' hs h
    exact ⟨hclock.lt_floor hinterval (hs.next h).1, (hs.next h).2⟩
  obtain ⟨result, last, s, -, hbound, hs, hpoll, hrun⟩ :=
    Polling.run_ends hstep (Nat.zero_le _) w.waiting_init
  refine ⟨result, last, hbound, hs.undecided, hs.inTime, hs.ends hpoll, ?_⟩
  intro fuel hfuel
  exact hrun fuel (by omega)

/-- What a wait that has ended comes from. -/
theorem wait_result {fuel polls : Nat} {result : WaitResult}
    (h : w.waitForTransaction fuel = some (result, polls)) :
    ∃ last, (∀ m < last, ¬ w.Completes m ∧ ¬ w.Failed m) ∧ w.InTime last ∧ w.Ends last result := by
  obtain ⟨last, s, hs, hpoll⟩ :=
    Polling.run_invariant (fun n s s' hs h => (hs.next h).2) w.waiting_init h
  exact ⟨last, hs.undecided, hs.inTime, hs.ends hpoll⟩

/-- Nothing decides until the time is up after poll `last`. -/
structure TimesOut (w : Wait) (last : Nat) (lastLookupError : Option JsString) : Prop where
  undecided : ∀ m ≤ last, ¬ w.Completes m ∧ ¬ w.Failed m
  inTime : w.InTime last
  late : w.deadline < w.now last + w.interval
  attaches : w.Attaches last lastLookupError

/-! ## The verdict -/

/-- The result is that of the first signal which decides, in the polls made in time. -/
structure Decides (w : Wait) (result : WaitResult) : Prop where
  fails : (∃ message, result = .fails message) ↔
    ∃ n, w.InTime n ∧ w.Failed n ∧ (∀ m ≤ n, ¬ w.Probed m) ∧ ∀ m < n, ¬ w.Completes m
  complete : result = .returns .complete ↔
    ∃ n, w.InTime n ∧ w.Completes n ∧ ∀ m < n, ¬ w.Failed m
  timeout : (∃ lastLookupError, result = .returns (.timeout lastLookupError)) ↔
    ∀ n, w.InTime n → ¬ w.Completes n ∧ ¬ w.Failed n
  lastLookupError : ∀ lastLookupError, result = .returns (.timeout lastLookupError) →
    (∃ n, w.InTime n ∧ w.Reported n) → lastLookupError = none

theorem not_reported_of_failed {n : Nat} (h : w.Failed n) : ¬ w.Reported n := by
  obtain ⟨_, t, ht, hfailed, -⟩ := h
  rw [reported_iff ht, not_settled_of_failed hfailed]
  exact Bool.false_ne_true

/-- No poll before the last decides, and no later one is made in time. -/
theorem Ends.le_last {last : Nat} {result : WaitResult} (h : w.Ends last result) {n : Nat}
    (hundecided : ∀ m < n, ¬ w.Completes m ∧ ¬ w.Failed m) (hintime : w.InTime n) : n ≤ last := by
  by_contra hlt
  have hlast := hundecided last (not_le.mp hlt)
  cases h with
  | complete hcompletes => exact hlast.1 hcompletes
  | fails _ hfailed => exact hlast.2 ⟨_, hfailed⟩
  | timeout _ _ hlate => exact absurd (hintime last (not_le.mp hlt)) (not_le.mpr hlate)

theorem Ends.decides {last : Nat} {result : WaitResult}
    (hundecided : ∀ m < last, ¬ w.Completes m ∧ ¬ w.Failed m) (hintime : w.InTime last)
    (h : w.Ends last result) : w.Decides result := by
  cases h with
  | complete hcompletes =>
      refine ⟨⟨fun ⟨_, h⟩ => (nomatch h), ?_⟩, ⟨fun _ => ?_, fun _ => rfl⟩,
        ⟨fun ⟨_, h⟩ => (nomatch h), fun h => absurd hcompletes (h last hintime).1⟩, nofun⟩
      · rintro ⟨n, -, hfailed, hprobed, hbefore⟩
        rcases lt_trichotomy n last with hlt | rfl | hlt
        · exact absurd hfailed (hundecided n hlt).2
        · rcases hcompletes with hprobe | ⟨-, hreported⟩
          · exact absurd hprobe (hprobed n (Nat.le_refl n))
          · exact absurd hreported (not_reported_of_failed hfailed)
        · exact absurd hcompletes (hbefore last hlt)
      · exact ⟨last, hintime, hcompletes, fun m hm => (hundecided m hm).2⟩
  | @fails message hprobed hmessage =>
      have hfailed : w.Failed last := ⟨message, hmessage⟩
      refine ⟨⟨fun _ => ?_, fun _ => ⟨message, rfl⟩⟩, ⟨fun h => (nomatch h), ?_⟩,
        ⟨fun ⟨_, h⟩ => (nomatch h), fun h => absurd hfailed (h last hintime).2⟩, nofun⟩
      · refine ⟨last, hintime, hfailed, ?_, fun m hm => (hundecided m hm).1⟩
        intro m hm hprobe
        rcases Nat.lt_or_eq_of_le hm with hlt | rfl
        · exact (hundecided m hlt).1 (.inl hprobe)
        · exact hprobed hprobe
      · rintro ⟨n, -, hcompletes, hbefore⟩
        rcases lt_trichotomy n last with hlt | rfl | hlt
        · exact absurd hcompletes (hundecided n hlt).1
        · rcases hcompletes with hprobe | ⟨-, hreported⟩
          · exact absurd hprobe hprobed
          · exact absurd hreported (not_reported_of_failed hfailed)
        · exact absurd hfailed (hbefore last hlt)
  | @timeout lastLookupError hcompletes hfailed hlate hreported =>
      have hle : ∀ n, w.InTime n → n ≤ last := by
        intro n hn
        by_contra hlt
        exact absurd (hn last (not_le.mp hlt)) (not_le.mpr hlate)
      have hnone : ∀ n, w.InTime n → ¬ w.Completes n ∧ ¬ w.Failed n := by
        intro n hn
        rcases Nat.lt_or_eq_of_le (hle n hn) with hlt | rfl
        · exact hundecided n hlt
        · exact ⟨hcompletes, hfailed⟩
      refine ⟨⟨fun ⟨_, h⟩ => (nomatch h), ?_⟩, ⟨fun h => (nomatch h), ?_⟩,
        ⟨fun _ => hnone, fun _ => ⟨lastLookupError, rfl⟩⟩, ?_⟩
      · rintro ⟨n, hn, h, -⟩
        exact absurd h (hnone n hn).2
      · rintro ⟨n, hn, h, -⟩
        exact absurd h (hnone n hn).1
      · rintro _ ⟨⟩ ⟨n, hn, h⟩
        exact hreported.reported ⟨n, hle n hn, h⟩

theorem Attaches.unique {last : Nat} {e e' : Option JsString} (h : w.Attaches last e)
    (h' : w.Attaches last e') : e' = e := by
  by_cases hreported : ∃ m ≤ last, w.Reported m
  · rw [h.reported hreported, h'.reported hreported]
  · have hnone : ∀ m ≤ last, ¬ w.Reported m := fun m hm hm' => hreported ⟨m, hm, hm'⟩
    rw [h.thrown hnone, h'.thrown hnone]

/-- Where a wait times out, that is its result. -/
theorem TimesOut.result {last last' : Nat} {e : Option JsString} {result : WaitResult}
    (h : w.TimesOut last' e) (hundecided : ∀ m < last, ¬ w.Completes m ∧ ¬ w.Failed m)
    (hintime : w.InTime last) (hends : w.Ends last result) : result = .returns (.timeout e) := by
  obtain ⟨hcompletes, hfailed⟩ := h.undecided last' (Nat.le_refl last')
  have hends' : w.Ends last' (.returns (.timeout e)) :=
    .timeout hcompletes hfailed h.late h.attaches
  obtain rfl : last' = last := Nat.le_antisymm
    (hends.le_last (fun m hm => h.undecided m (Nat.le_of_lt hm)) h.inTime)
    (hends'.le_last hundecided hintime)
  cases hends with
  | complete hcompletes' => exact absurd hcompletes' hcompletes
  | fails _ hfailed' => exact absurd ⟨_, hfailed'⟩ hfailed
  | timeout _ _ _ hattaches => rw [hattaches.unique h.attaches]

/-! ## Reads that throw -/

/-- A result without what was thrown. -/
def verdict : WaitResult → WaitResult
  | .returns (.timeout _) => .returns (.timeout none)
  | result => result

theorem silenced_probed (n : Nat) : w.silenced.Probed n ↔ w.Probed n := by
  unfold Probed silenced
  simp only [Option.map_eq_some_iff]
  constructor
  · rintro ⟨_, ⟨isComplete, hsome, rfl⟩, hfired⟩
    refine ⟨isComplete, hsome, ?_⟩
    cases hresult : isComplete n with
    | error message =>
        simp only [hresult] at hfired
        exact nomatch hfired
    | ok fired =>
        simp only [hresult] at hfired
        exact hfired
  · rintro ⟨isComplete, hsome, hfired⟩
    refine ⟨_, ⟨isComplete, hsome, rfl⟩, ?_⟩
    rw [hfired]
    rfl

theorem silenced_lookup (n : Nat) (t : ProcessedTransaction) :
    w.silenced.getProcessedTransaction n = .ok (some t) ↔
      w.getProcessedTransaction n = .ok (some t) := by
  change Except.ok (w.getProcessedTransaction n).toOption.join = .ok (some t) ↔ _
  cases w.getProcessedTransaction n with
  | error message => exact ⟨fun h => (nomatch h), fun h => (nomatch h)⟩
  | ok found => simp [Except.toOption]

theorem silenced_reported (n : Nat) : w.silenced.Reported n ↔ w.Reported n :=
  exists_congr fun t => and_congr_left' (silenced_lookup n t)

theorem silenced_completes (n : Nat) : w.silenced.Completes n ↔ w.Completes n :=
  or_congr (silenced_probed n) (and_congr Option.map_eq_none_iff (silenced_reported n))

theorem silenced_failedWith (n : Nat) (message : JsString) :
    w.silenced.FailedWith n message ↔ w.FailedWith n message :=
  exists_congr fun t => and_congr_left' (silenced_lookup n t)

theorem silenced_undecided (n : Nat) : (∀ m < n, ¬ w.silenced.Completes m ∧ ¬ w.silenced.Failed m) ↔
    ∀ m < n, ¬ w.Completes m ∧ ¬ w.Failed m := by
  simp only [silenced_completes, Failed, silenced_failedWith]

theorem FailedWith.unique {n : Nat} {message message' : JsString} (h : w.FailedWith n message)
    (h' : w.FailedWith n message') : message' = message := by
  obtain ⟨t, ht, -, rfl⟩ := h
  exact ((failedWith_iff ht).mp h').2.symm

/-- The last poll and the verdict do not depend on what the reads throw. -/
theorem Ends.silenced {last last' : Nat} {result result' : WaitResult}
    (hundecided : ∀ m < last, ¬ w.Completes m ∧ ¬ w.Failed m) (hintime : w.InTime last)
    (h : w.Ends last result)
    (hundecided' : ∀ m < last', ¬ w.silenced.Completes m ∧ ¬ w.silenced.Failed m)
    (hintime' : w.silenced.InTime last') (h' : w.silenced.Ends last' result') :
    last' = last ∧ verdict result' = verdict result := by
  obtain rfl : last' = last := Nat.le_antisymm
    (h.le_last ((silenced_undecided last').mp hundecided') hintime')
    (h'.le_last ((silenced_undecided last).mpr hundecided) hintime)
  refine ⟨rfl, ?_⟩
  have hdecides := h.decides hundecided hintime
  cases h' with
  | complete hcompletes =>
      rw [hdecides.complete.mpr ⟨last', hintime, (silenced_completes last').mp hcompletes,
        fun m hm => (hundecided m hm).2⟩]
  | @fails message hprobed hfailed =>
      rw [silenced_probed] at hprobed
      rw [silenced_failedWith] at hfailed
      cases h with
      | complete hcompletes =>
          rcases hcompletes with hprobe | ⟨-, hreported⟩
          · exact absurd hprobe hprobed
          · exact absurd hreported (not_reported_of_failed ⟨message, hfailed⟩)
      | fails _ hfailed' => rw [hfailed'.unique hfailed]
      | timeout _ hnone => exact absurd ⟨message, hfailed⟩ hnone
  | timeout hcompletes hfailed hlate =>
      have hundecided : ∀ n, w.InTime n → ¬ w.Completes n ∧ ¬ w.Failed n := by
        intro n hn
        have hle : n ≤ last' := by
          by_contra hlt
          exact absurd (hn last' (not_le.mp hlt)) (not_le.mpr hlate)
        rcases Nat.lt_or_eq_of_le hle with hlt | rfl
        · exact hundecided n hlt
        · refine ⟨fun h => hcompletes ((silenced_completes n).mpr h), ?_⟩
          rintro ⟨message, h⟩
          exact hfailed ⟨message, (silenced_failedWith n message).mpr h⟩
      obtain ⟨_, rfl⟩ := hdecides.timeout.mpr hundecided
      rfl

end Wait

end Sdk

/-- A wait ends within the polls that fit before its deadline, its result is that of the first
signal which decides, and what the reads throw changes neither. -/
theorem wait_verdict (w : Sdk.Wait) (hinterval : 0 < w.interval) (hclock : w.Clocked) :
    ∃ result polls, polls ≤ ⌊w.timeout / w.interval⌋₊ + 1 ∧
      (∀ fuel, polls ≤ fuel → w.waitForTransaction fuel = some (result, polls)) ∧
      w.Decides result ∧
      ∃ result', Sdk.Wait.verdict result' = Sdk.Wait.verdict result ∧
        ∀ fuel, polls ≤ fuel → w.silenced.waitForTransaction fuel = some (result', polls) := by
  obtain ⟨result, last, hbound, hundecided, hintime, hends, hrun⟩ := w.wait_ends hinterval hclock
  have hclock' : w.silenced.Clocked := ⟨hclock.start, hclock.sleep⟩
  obtain ⟨result', last', -, hundecided', hintime', hends', hrun'⟩ :=
    w.silenced.wait_ends hinterval hclock'
  obtain ⟨rfl, hverdict⟩ := hends.silenced hundecided hintime hundecided' hintime' hends'
  exact ⟨result, last' + 1, Nat.succ_le_succ hbound, hrun, hends.decides hundecided hintime,
    result', hverdict, hrun'⟩

/-- Two reads that throw, before the account becomes visible. -/
def slowProbe : Sdk.Wait :=
  { txid := Sdk.text "ab"
    isComplete := some fun n => if n = 2 then .ok true else .error (Sdk.text "gateway timeout")
    getProcessedTransaction := fun _ => .ok none
    timeoutMs := some 3
    intervalMs := some 1
    start := 0
    now := fun n => n }

theorem slow_probe_completes : ∃ polls, polls ≤ 4 ∧
    ∀ fuel, polls ≤ fuel → slowProbe.waitForTransaction fuel = some (.returns .complete, polls) := by
  have hclock : slowProbe.Clocked :=
    ⟨by simp [slowProbe], fun n => by simp [slowProbe, Sdk.Wait.interval]⟩
  have hinterval : 0 < slowProbe.interval := by simp [slowProbe, Sdk.Wait.interval]
  obtain ⟨result, polls, hpolls, hrun, hdecides, -⟩ := wait_verdict slowProbe hinterval hclock
  have hbound : ⌊slowProbe.timeout / slowProbe.interval⌋₊ = 3 := by
    simp [slowProbe, Sdk.Wait.timeout, Sdk.Wait.interval]
  have hintime : slowProbe.InTime 2 := by
    intro m hm
    have hle : (m : ℚ) ≤ 1 := by exact_mod_cast Nat.le_of_lt_succ hm
    change (m : ℚ) + 1 ≤ 0 + 3
    linarith
  have hcomplete : result = .returns .complete := by
    apply hdecides.complete.mpr
    refine ⟨2, hintime, .inl ⟨_, rfl, rfl⟩, ?_⟩
    rintro m - ⟨_, t, ht, -⟩
    exact nomatch ht
  rw [hbound] at hpolls
  rw [hcomplete] at hrun
  exact ⟨polls, hpolls, hrun⟩

/-! ## The run of an instruction -/

section
variable [Sdk.ArchSdk] [Sdk.Platform] {ε : Type}

/-- What becomes of a transaction that the node has accepted: it is complete, or it has failed by
its own status, or it is pending, as it is whenever the wait times out. -/
structure Sdk.SendParams.Kept (p : Sdk.SendParams ε) (txid : JsString)
    (outcome : Except (Sdk.SendError ε) (Option JsString)) : Prop where
  ends : outcome = .ok (some txid) ∨
    (∃ n message, (p.wait txid).InTime n ∧ (p.wait txid).FailedWith n message ∧
      (outcome = .error (.failed message) ∨ outcome = .error .nameTaken)) ∨
    ∃ lastLookupError, outcome = .error (.pending txid lastLookupError)
  pending : (∀ n, (p.wait txid).InTime n →
      ¬ (p.wait txid).Completes n ∧ ¬ (p.wait txid).Failed n) →
    ∃ lastLookupError, outcome = .error (.pending txid lastLookupError)

variable {p : Sdk.SendParams ε} {txid : JsString}

theorem signAndSend_outside {e : ε} (hsubmit : Sdk.submitTransaction p = .ok txid)
    {onSubmitted : JsString → Except ε Unit} (hsome : p.onSubmitted = some onSubmitted)
    (hthrows : onSubmitted txid = .error e) (fuel : Nat) :
    Sdk.signAndSendInstruction p fuel = .error (.outside e) := by
  have hnotify : Sdk.notifySubmitted p txid = .error (.outside e) := by
    simp only [Sdk.notifySubmitted, hsome, hthrows]
    rfl
  rw [Sdk.signAndSendInstruction, hsubmit, Outcome.ok_bind, Sdk.confirmSubmitted, hnotify,
    Outcome.error_bind]

/-- With the callback out of the way, the outcome is what becomes of the wait. -/
theorem signAndSend_eq (hsubmit : Sdk.submitTransaction p = .ok txid)
    (hconfirm : p.confirm ≠ some false)
    (hcallback : ∀ onSubmitted, p.onSubmitted = some onSubmitted → onSubmitted txid = .ok ())
    (fuel : Nat) : Sdk.signAndSendInstruction p fuel =
      match (p.wait txid).waitForTransaction fuel with
      | none => .ok none
      | some (result, _) => some <$> Sdk.settle txid result := by
  have hnotify : Sdk.notifySubmitted p txid = .ok () := by
    unfold Sdk.notifySubmitted
    cases hsome : p.onSubmitted with
    | none => rfl
    | some onSubmitted =>
        simp only [hcallback onSubmitted hsome]
        rfl
  rw [Sdk.signAndSendInstruction, hsubmit, Outcome.ok_bind, Sdk.confirmSubmitted, hnotify,
    Outcome.ok_bind, if_neg hconfirm]
  rfl

theorem settle_kept_iff {last : Nat} {result : Sdk.WaitResult}
    (hundecided : ∀ m < last, ¬ (p.wait txid).Completes m ∧ ¬ (p.wait txid).Failed m)
    (hintime : (p.wait txid).InTime last) (hends : (p.wait txid).Ends last result) :
    p.Kept txid (some <$> Sdk.settle txid result) ↔
      ∀ last lastLookupError, (p.wait txid).TimesOut last lastLookupError →
        Sdk.isDuplicateRegistrationErrorMessage (Sdk.pendingMessage txid lastLookupError) =
          false := by
  have hdecides := hends.decides hundecided hintime
  -- a wait that has ended otherwise has not timed out
  have hresult : ∀ last' e, (p.wait txid).TimesOut last' e → result = .returns (.timeout e) :=
    fun _ _ h => h.result hundecided hintime hends
  cases hends with
  | complete hcompletes =>
      constructor
      · intro _ last' e h
        exact nomatch hresult last' e h
      · intro _
        refine ⟨.inl rfl, fun h => ?_⟩
        obtain ⟨_, h⟩ := hdecides.timeout.mpr h
        exact nomatch h
  | @fails message hprobed hfailed =>
      constructor
      · intro _ last' e h
        exact nomatch hresult last' e h
      · intro _
        refine ⟨.inr (.inl ⟨last, message, hintime, hfailed, ?_⟩), fun h => ?_⟩
        · simp only [Sdk.settle]
          split
          · exact .inr rfl
          · exact .inl rfl
        · obtain ⟨_, h⟩ := hdecides.timeout.mpr h
          exact nomatch h
  | @timeout e hcompletes hfailed hlate hattaches =>
      have hall : ∀ m ≤ last, ¬ (p.wait txid).Completes m ∧ ¬ (p.wait txid).Failed m := by
        simp only [← Nat.lt_succ_iff]
        exact Nat.forall_lt_succ_right.mpr ⟨hundecided, hcompletes, hfailed⟩
      have htimesOut : (p.wait txid).TimesOut last e :=
        ⟨hall, hintime, hlate, hattaches⟩
      constructor
      · intro hkept last' e' h
        cases hresult last' e' h
        obtain ⟨e', hpending⟩ := hkept.pending (hdecides.timeout.mp ⟨e, rfl⟩)
        by_contra hduplicate
        rw [Bool.not_eq_false] at hduplicate
        simp only [Sdk.settle, hduplicate, if_true] at hpending
        exact nomatch hpending
      · intro hmessage
        have hpending : some <$> Sdk.settle (ε := ε) txid (.returns (.timeout e)) =
            .error (.pending txid e) := by
          simp only [Sdk.settle, hmessage last e htimesOut]
          rfl
        rw [hpending]
        exact ⟨.inr (.inr ⟨e, rfl⟩), fun _ => ⟨e, rfl⟩⟩

/-- An accepted transaction is never lost, unless the callback throws or the message of the
timeout reads like a duplicate registration. -/
theorem accepted_kept_iff (p : Sdk.SendParams ε) (txid : JsString)
    (hsubmit : Sdk.submitTransaction p = .ok txid) (hconfirm : p.confirm ≠ some false) :
    (0 < (p.wait txid).interval → (p.wait txid).Clocked →
      ∃ bound, ∀ fuel, bound ≤ fuel → Sdk.signAndSendInstruction p fuel ≠ .ok none) ∧
    ∀ fuel, Sdk.signAndSendInstruction p fuel ≠ .ok none →
      (p.Kept txid (Sdk.signAndSendInstruction p fuel) ↔
        (∀ onSubmitted, p.onSubmitted = some onSubmitted → onSubmitted txid = .ok ()) ∧
        ∀ last lastLookupError, (p.wait txid).TimesOut last lastLookupError →
          Sdk.isDuplicateRegistrationErrorMessage (Sdk.pendingMessage txid lastLookupError) =
            false) := by
  by_cases hcallback : ∀ onSubmitted, p.onSubmitted = some onSubmitted → onSubmitted txid = .ok ()
  · have houtcome := signAndSend_eq hsubmit hconfirm hcallback
    constructor
    · intro hinterval hclock
      obtain ⟨result, last, -, -, -, -, hrun⟩ := (p.wait txid).wait_ends hinterval hclock
      refine ⟨last + 1, fun fuel hfuel => ?_⟩
      rw [houtcome, hrun fuel hfuel]
      simp only
      cases Sdk.settle txid result <;> nofun
    · intro fuel hended
      rw [houtcome] at hended ⊢
      cases hwait : (p.wait txid).waitForTransaction fuel with
      | none =>
          rw [hwait] at hended
          exact absurd rfl hended
      | some ended =>
          obtain ⟨last, hundecided, hintime, hends⟩ := Sdk.Wait.wait_result hwait
          rw [settle_kept_iff hundecided hintime hends]
          exact ⟨fun h => ⟨hcallback, h⟩, fun h => h.2⟩
  · push Not at hcallback
    obtain ⟨onSubmitted, hsome, hthrows⟩ := hcallback
    obtain ⟨e, he⟩ : ∃ e, onSubmitted txid = .error e := by
      cases h : onSubmitted txid with
      | error e => exact ⟨e, rfl⟩
      | ok u => exact absurd h hthrows
    have houtcome := signAndSend_outside hsubmit hsome he
    constructor
    · intro _ _
      refine ⟨0, fun fuel _ => ?_⟩
      rw [houtcome]
      nofun
    · intro fuel _
      rw [houtcome]
      constructor
      · rintro ⟨h | ⟨_, _, -, -, h | h⟩ | ⟨_, h⟩, -⟩ <;> exact nomatch h
      · rintro ⟨h, -⟩
        exact absurd (h onSubmitted hsome) hthrows

end

namespace Gateway

scoped instance platform : Sdk.Platform where
  lowerUnicode s := s
  bech32mToWords _ := []
  bech32mEncode _ _ := .error (.error "Exceeds length limit")

scoped instance archSdk : Sdk.ArchSdk where
  SanitizedMessage := Unit
  createSanitizedMessage _ _ _ := .ok ()
  hash _ := []

/-- A run whose only lookup throws: the wait is up after one poll. -/
def params (message : JsString) : Sdk.SendParams Unit :=
  { instruction := ⟨Bytes.fill 32 0, [], []⟩
    feePayer := Bytes.fill 32 0
    getBestBlockHash := .ok []
    signer := fun _ => .ok []
    sendTransaction := fun _ => .ok (Sdk.text "ab")
    getProcessedTransaction := fun _ _ => .error message
    confirm := none
    confirmTimeoutMs := some 0
    confirmIntervalMs := some 1
    isComplete := none
    onSubmitted := none
    start := 0
    now := fun n => n }

theorem late (message : JsString) : ((params message).wait (Sdk.text "ab")).deadline <
    ((params message).wait (Sdk.text "ab")).now 0 + ((params message).wait (Sdk.text "ab")).interval := by
  change (0 : ℚ) + 0 < ((0 : ℕ) : ℚ) + 1
  norm_num

theorem silent (message : JsString) {onSubmitted : JsString → Except Unit Unit}
    (h : (params message).onSubmitted = some onSubmitted) : onSubmitted (Sdk.text "ab") = .ok () := by
  cases h

theorem outcome_eq (message : JsString) : Sdk.signAndSendInstruction (params message) 1 =
    some <$> Sdk.settle (Sdk.text "ab") (.returns (.timeout (some message))) := by
  have hpoll : ((params message).wait (Sdk.text "ab")).poll 0
      { lastLookupError := none, processed := false } = .inl (.returns (.timeout (some message))) :=
    if_pos (late message)
  have hwait : ((params message).wait (Sdk.text "ab")).waitForTransaction 1 =
      some (.returns (.timeout (some message)), 1) := Polling.run_done hpoll
  have hsubmit : Sdk.submitTransaction (params message) = .ok (Sdk.text "ab") := rfl
  rw [signAndSend_eq hsubmit (by simp [params]) fun _ => silent message, hwait]

theorem undecided (message : JsString) (n : Nat) :
    ¬ ((params message).wait (Sdk.text "ab")).Reported n ∧
      ¬ ((params message).wait (Sdk.text "ab")).Failed n ∧
      ¬ ((params message).wait (Sdk.text "ab")).Completes n := by
  obtain ⟨hreported, hfailed⟩ := Sdk.Wait.not_signalled
    (w := (params message).wait (Sdk.text "ab")) (n := n) nofun
  refine ⟨hreported, hfailed, ?_⟩
  rintro (⟨_, hsome, -⟩ | ⟨-, hreported'⟩)
  · exact nomatch hsome
  · exact hreported hreported'

end Gateway

open Gateway in
theorem timeout_pending : (params (Sdk.text "gateway timeout")).Kept (Sdk.text "ab")
    (Sdk.signAndSendInstruction (params (Sdk.text "gateway timeout")) 1) := by
  have hended : Sdk.signAndSendInstruction (params (Sdk.text "gateway timeout")) 1 ≠ .ok none := by
    rw [outcome_eq]
    decide
  apply ((accepted_kept_iff (params (Sdk.text "gateway timeout")) (Sdk.text "ab") rfl nofun).2 1
    hended).mpr
  refine ⟨fun _ => silent _, fun last e h => ?_⟩
  have hreport := undecided (Sdk.text "gateway timeout")
  have hends := Sdk.Wait.Ends.timeout (hreport 0).2.2 (hreport 0).2.1 (late _)
    ⟨fun ⟨m, _, hm⟩ => absurd hm (hreport m).1, fun _ => rfl⟩
  have hresult := h.result (fun m hm => absurd hm (Nat.not_lt_zero m))
    (fun m hm => absurd hm (Nat.not_lt_zero m)) hends
  cases hresult
  decide

open Gateway in
/-- The lookup throws with a text of the node's, and the accepted transaction is reported as a
name that is taken. -/
theorem timeout_name_taken :
    Sdk.signAndSendInstruction (params (Sdk.text "account already initialized")) 1 =
      .error .nameTaken ∧
    ¬ (params (Sdk.text "account already initialized")).Kept (Sdk.text "ab")
      (Sdk.signAndSendInstruction (params (Sdk.text "account already initialized")) 1) := by
  have houtcome : Sdk.signAndSendInstruction (params (Sdk.text "account already initialized")) 1 =
      .error .nameTaken := by
    rw [outcome_eq]
    decide
  refine ⟨houtcome, ?_⟩
  rw [houtcome]
  rintro ⟨h | ⟨_, _, -, ⟨_, h, -⟩, -⟩ | ⟨_, h⟩, -⟩ <;> exact nomatch h

end ArchNameService
