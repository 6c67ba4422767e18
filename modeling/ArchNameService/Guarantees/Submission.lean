import Mathlib
import ArchNameService.Lib.History
import ArchNameService.Manager.Submit

/-!
# One action submits at most once

Every event of an action is held to the events before it: a transaction to the
checks of its signature, a second attempt to the signature that the first one
discarded.
-/

namespace ArchNameService
open Std.Do

set_option mvcgen.warning false

namespace Manager

/-! ## What each event must account for -/

def Event.isAttempt : Event → Bool
  | .attempt .. => true
  | _ => false

def Event.isMutation : Event → Bool
  | .sent t => t.phase = .mutation
  | _ => false

/-- The events of the running attempt. -/
abbrev current (trace : List Event) : List Event := History.since Event.isAttempt trace

/-- Some signature has verified for some key. -/
def Verified (events : List Event) : Prop :=
  ∃ approval key messageHash signature,
    .checked approval key messageHash signature .match ∈ events

/-- What stands before a transaction in its attempt: its signature was checked against
the payer, no signature was attributed to another key, and a mismatch goes out only
when nothing has verified. -/
structure Sendable (events : List Event) (t : Sent) : Prop where
  checked : ∃ result, .checked t.approval t.actor t.messageHash t.signature result ∈ events
  own : ∀ approval key messageHash signature,
    .checked approval key messageHash signature .match ∈ events → key = t.actor
  proven : .checked t.approval t.actor t.messageHash t.signature .mismatch ∈ events →
    ¬ Verified events

/-- A signature that is not the payer's was attributed to the signer and discarded. -/
def Identified (events : List Event) (payer signer : JsString) : Prop :=
  ∃ approval messageHash signature,
    .checked approval payer messageHash signature .mismatch ∈ events ∧
    .checked approval signer messageHash signature .match ∈ events ∧
    ∀ t, .sent t ∈ events → t.approval ≠ approval

/-- An attempt is the first one, or the second one after a first that sent no mutation and
in the name of the signer that its discarded signature has shown; what is built and sent
is built and paid by the account of the running attempt; and the mutation is the first. -/
def Justified (env : Environment) (earlier : List Event) : Event → Prop
  | .attempt number actor =>
      (number = 1 ∧ earlier.countP Event.isAttempt = 0) ∨
      (number = 2 ∧ earlier.countP Event.isAttempt = 1 ∧ earlier.countP Event.isMutation = 0 ∧
        ∃ payer, History.newest Event.isAttempt earlier = some (.attempt 1 payer) ∧
          Identified (current earlier) payer actor)
  | .built actor _ => ∃ number, History.newest Event.isAttempt earlier = some (.attempt number actor)
  | .sent t =>
      (∃ number, History.newest Event.isAttempt earlier = some (.attempt number t.actor)) ∧
      canonicalArchKey env t.actor = some t.feePayer ∧ Sendable (current earlier) t ∧
      (t.phase = .mutation → earlier.countP Event.isMutation = 0)
  | _ => True

def Accountable (env : Environment) : List Event → Prop
  | [] => True
  | e :: earlier => Justified env earlier e ∧ Accountable env earlier

/-! ## A running attempt -/

/-- An attempt that has not sent its mutation. -/
structure Live (env : Environment) (a : Attempt) (trace : List Event) (index : Nat) (proven : Bool) :
    Prop where
  accountable : Accountable env trace
  latest : History.newest Event.isAttempt trace = some (.attempt a.number a.actor)
  unsent : trace.countP Event.isMutation = 0
  unproven : proven = false → ¬ Verified (current trace)
  own : ∀ approval key messageHash signature,
    .checked approval key messageHash signature .match ∈ current trace → key = a.actor
  checks : ∀ approval key messageHash signature result,
    .checked approval key messageHash signature result ∈ current trace → approval ≤ index
  sends : ∀ t, .sent t ∈ current trace → t.approval ≤ index

/-- How an attempt may fail: with an identified signer only before its mutation. -/
def Failed (env : Environment) (a : Attempt) (e : SubmitError) (trace : List Event) : Prop :=
  Accountable env trace ∧ ∀ signer, identifiedSigner a.number e = some signer →
    trace.countP Event.isMutation = 0 ∧
    History.newest Event.isAttempt trace = some (.attempt a.number a.actor) ∧
    Identified (current trace) a.actor signer

/-- The signature of the last approval may go out. -/
structure Approved (env : Environment) (a : Attempt) (messageHash signature : JsString)
    (trace : List Event) (index : Nat) (proven : Bool) : Prop where
  live : Live env a trace index proven
  checked : ∃ result, .checked index a.actor messageHash signature result ∈ current trace
  sound : .checked index a.actor messageHash signature .mismatch ∈ current trace →
    ¬ Verified (current trace)

section
variable {env : Environment} {a : Attempt} {trace : List Event} {index : Nat} {proven : Bool}
  {messageHash signature : JsString}

theorem current_cons {e : Event} (h : e.isAttempt = false) :
    current (e :: trace) = e :: current trace := History.since_cons_miss h

/-- An error without a signer leads to no other attempt. -/
theorem Accountable.failed (haccountable : Accountable env trace) {e : SubmitError}
    (h : identifiedSigner a.number e = none) : Failed env a e trace := by
  refine ⟨haccountable, fun signer hsigner => ?_⟩
  rw [h] at hsigner
  exact nomatch hsigner

theorem Live.failed (live : Live env a trace index proven) {e : SubmitError}
    (h : identifiedSigner a.number e = none) : Failed env a e trace := live.accountable.failed h

theorem Live.proved (live : Live env a trace index proven) : Live env a trace index true :=
  { live with unproven := fun h => nomatch h }

theorem Live.advance (live : Live env a trace index proven) : Live env a trace (index + 1) proven :=
  { live with
    checks := fun approval key messageHash signature result h =>
      Nat.le_succ_of_le (live.checks approval key messageHash signature result h)
    sends := fun t h => Nat.le_succ_of_le (live.sends t h) }

/-- One more event of the attempt, besides its mutation. -/
theorem Live.record (live : Live env a trace index proven) {e : Event}
    (hjustified : Justified env trace e) (hattempt : e.isAttempt = false)
    (hmutation : e.isMutation = false)
    (hcheck : ∀ approval key messageHash signature result,
      e = .checked approval key messageHash signature result →
        approval ≤ index ∧ (result = .match → proven = true ∧ key = a.actor))
    (hsent : ∀ t, e = .sent t → t.approval ≤ index) : Live env a (e :: trace) index proven := by
  have hcurrent : current (e :: trace) = e :: current trace := current_cons hattempt
  constructor
  · exact ⟨hjustified, live.accountable⟩
  · rw [History.newest_cons_miss hattempt, live.latest]
  · rw [List.countP_cons_of_neg (by rw [hmutation]; exact Bool.false_ne_true), live.unsent]
  · intro hproven
    rw [hcurrent]
    rintro ⟨approval, key, messageHash, signature, hmem⟩
    rcases List.mem_cons.mp hmem with hhead | htail
    · obtain ⟨htrue, -⟩ := (hcheck _ _ _ _ _ hhead.symm).2 rfl
      rw [hproven] at htrue
      exact nomatch htrue
    · exact live.unproven hproven ⟨approval, key, messageHash, signature, htail⟩
  · intro approval key messageHash signature hmem
    rw [hcurrent] at hmem
    rcases List.mem_cons.mp hmem with hhead | htail
    · exact ((hcheck _ _ _ _ _ hhead.symm).2 rfl).2
    · exact live.own approval key messageHash signature htail
  · intro approval key messageHash signature result hmem
    rw [hcurrent] at hmem
    rcases List.mem_cons.mp hmem with hhead | htail
    · exact (hcheck _ _ _ _ _ hhead.symm).1
    · exact live.checks approval key messageHash signature result htail
  · intro t hmem
    rw [hcurrent] at hmem
    rcases List.mem_cons.mp hmem with hhead | htail
    · exact hsent t hhead.symm
    · exact live.sends t htail

theorem Live.progress (live : Live env a trace index proven) (p : SubmitProgress) :
    Live env a (.progress p :: trace) index proven :=
  live.record trivial rfl rfl (fun _ _ _ _ _ h => nomatch h) (fun _ h => nomatch h)

theorem Live.built (live : Live env a trace index proven) (instruction : BuiltInstruction) :
    Live env a (.built a.actor instruction :: trace) index proven :=
  live.record ⟨a.number, live.latest⟩ rfl rfl (fun _ _ _ _ _ h => nomatch h) (fun _ h => nomatch h)

/-- A failed or undecided check. -/
theorem Live.check (live : Live env a trace index proven) {key : JsString} {result : SignatureCheck}
    (hresult : result = .match → proven = true ∧ key = a.actor) :
    Live env a (.checked index key messageHash signature result :: trace) index proven := by
  refine live.record trivial rfl rfl (fun _ _ _ _ _ h => ?_) (fun _ h => nomatch h)
  cases h
  exact ⟨Nat.le_refl _, hresult⟩

/-- The checks of an approval that has just begun are its own. -/
theorem Live.not_checked (live : Live env a trace index proven) {key : JsString}
    {result : SignatureCheck} :
    .checked (index + 1) key messageHash signature result ∉ current trace := by
  intro h
  exact absurd (live.checks _ _ _ _ _ h) (Nat.not_succ_le_self index)

/-- The payer's key matches, or the check cannot tell. -/
theorem Live.approve (live : Live env a trace index proven) {result : SignatureCheck}
    (hresult : result ≠ .mismatch) (hproven : result = .match → proven = true) :
    Approved env a messageHash signature
      (.checked (index + 1) a.actor messageHash signature result :: trace) (index + 1) proven := by
  refine ⟨live.advance.check fun h => ⟨hproven h, rfl⟩, ⟨result, ?_⟩, fun hmem => ?_⟩
  · rw [current_cons rfl]
    exact List.mem_cons_self
  · rw [current_cons rfl] at hmem
    rcases List.mem_cons.mp hmem with hhead | htail
    · cases hhead
      exact absurd rfl hresult
    · exact absurd htail live.not_checked

/-- The candidates tried in an approval, the last one first. -/
def Probes (index : Nat) (candidates : List JsString) (messageHash signature : JsString)
    (probes : List Event) : Prop :=
  ∀ e ∈ probes, ∃ key ∈ candidates, ∃ result,
    e = .checked index key messageHash signature result

theorem Probes.not_attempt {candidates : List JsString} {probes : List Event}
    (h : Probes index candidates messageHash signature probes) :
    ∀ e ∈ probes, e.isAttempt = false := by
  intro e he
  obtain ⟨key, -, result, rfl⟩ := h e he
  rfl

theorem current_append {probes : List Event} (h : ∀ e ∈ probes, e.isAttempt = false) :
    current (probes ++ trace) = probes ++ current trace := by
  induction probes with
  | nil => rfl
  | cons e probes ih =>
      obtain ⟨he, hrest⟩ := List.forall_mem_cons.mp h
      rw [List.cons_append, current_cons he, ih hrest, List.cons_append]

/-- Candidates that do not match leave the attempt as it is. -/
theorem Live.probed (live : Live env a trace index proven) {candidates : List JsString}
    {probes : List Event} (h : Probes index candidates messageHash signature probes)
    (hnone : ¬ Verified probes) : Live env a (probes ++ trace) index proven := by
  induction probes with
  | nil => exact live
  | cons e probes ih =>
      have hrest : Live env a (probes ++ trace) index proven := by
        apply ih
        · intro e he
          exact h e (List.mem_cons_of_mem _ he)
        · rintro ⟨approval, key, hash, sig, hmem⟩
          exact hnone ⟨approval, key, hash, sig, List.mem_cons_of_mem _ hmem⟩
      obtain ⟨key, -, result, rfl⟩ := h e List.mem_cons_self
      refine hrest.check fun hmatch => ?_
      subst hmatch
      exact absurd ⟨index, key, messageHash, signature, List.mem_cons_self⟩ hnone

/-- A mismatch that nothing explains goes out when nothing has verified. -/
theorem Live.approve_unproven (live : Live env a trace index false) {candidates : List JsString}
    {probes : List Event} (h : Probes (index + 1) candidates messageHash signature probes)
    (hnone : ¬ Verified probes) :
    Approved env a messageHash signature
      (probes ++ .checked (index + 1) a.actor messageHash signature .mismatch :: trace)
      (index + 1) false := by
  have hchecked : Live env a (.checked (index + 1) a.actor messageHash signature .mismatch :: trace)
      (index + 1) false := live.advance.check fun h => nomatch h
  have hlive := hchecked.probed h hnone
  refine ⟨hlive, ⟨.mismatch, ?_⟩, fun _ => hlive.unproven rfl⟩
  rw [current_append h.not_attempt, current_cons rfl]
  exact List.mem_append_right _ List.mem_cons_self

/-- A candidate that matches ends the attempt, and its signature is not sent. -/
theorem Live.reject (live : Live env a trace index proven) {candidates : List JsString}
    {probes : List Event} (h : Probes (index + 1) candidates messageHash signature probes)
    {e : SubmitError}
    (hsigner : ∀ signer, identifiedSigner a.number e = some signer →
      .checked (index + 1) signer messageHash signature .match ∈ probes) :
    Failed env a e
      (probes ++ .checked (index + 1) a.actor messageHash signature .mismatch :: trace) := by
  have hchecked : Live env a (.checked (index + 1) a.actor messageHash signature .mismatch :: trace)
      (index + 1) proven := live.advance.check fun h => nomatch h
  have hprobes : ∀ probes : List Event, Probes (index + 1) candidates messageHash signature probes →
      Accountable env (probes ++ .checked (index + 1) a.actor messageHash signature .mismatch :: trace) ∧
      History.newest Event.isAttempt
        (probes ++ .checked (index + 1) a.actor messageHash signature .mismatch :: trace) =
          some (.attempt a.number a.actor) ∧
      (probes ++ .checked (index + 1) a.actor messageHash signature .mismatch :: trace).countP
        Event.isMutation = 0 := by
    intro probes h
    induction probes with
    | nil => exact ⟨hchecked.accountable, hchecked.latest, hchecked.unsent⟩
    | cons e probes ih =>
        obtain ⟨haccountable, hlatest, hunsent⟩ := ih fun e he => h e (List.mem_cons_of_mem _ he)
        obtain ⟨key, -, result, rfl⟩ := h e List.mem_cons_self
        refine ⟨⟨trivial, haccountable⟩, ?_, ?_⟩
        · rw [List.cons_append, History.newest_cons_miss rfl, hlatest]
        · rw [List.cons_append, List.countP_cons_of_neg Bool.false_ne_true, hunsent]
  obtain ⟨haccountable, hlatest, hunsent⟩ := hprobes probes h
  refine ⟨haccountable, fun signer hs => ⟨hunsent, hlatest, index + 1, messageHash, signature, ?_⟩⟩
  rw [current_append h.not_attempt, current_cons rfl]
  refine ⟨List.mem_append_right _ List.mem_cons_self, List.mem_append_left _ (hsigner signer hs), ?_⟩
  intro t ht happroval
  rcases List.mem_append.mp ht with hprobe | hrest
  · obtain ⟨key, -, result, he⟩ := h _ hprobe
    exact nomatch he
  · rcases List.mem_cons.mp hrest with hhead | hold
    · exact nomatch hhead
    · have hold := live.sends t hold
      omega

/-- The transaction of an approval. -/
theorem Approved.justified (approved : Approved env a messageHash signature trace index proven)
    {phase : SubmitPhase} {feePayer : ArchAddress} {signatureBytes : List UInt8}
    (hkey : canonicalArchKey env a.actor = some feePayer) :
    Justified env trace (.sent ⟨phase, a.actor, feePayer, index, messageHash, signature,
      signatureBytes⟩) :=
  ⟨⟨a.number, approved.live.latest⟩, hkey,
    ⟨approved.checked, approved.live.own, approved.sound⟩, fun _ => approved.live.unsent⟩

theorem Approved.sent (approved : Approved env a messageHash signature trace index proven)
    {phase : SubmitPhase} {feePayer : ArchAddress} {signatureBytes : List UInt8}
    (hkey : canonicalArchKey env a.actor = some feePayer) :
    Accountable env (.sent ⟨phase, a.actor, feePayer, index, messageHash, signature,
      signatureBytes⟩ :: trace) :=
  ⟨approved.justified hkey, approved.live.accountable⟩

/-- After the account setup the attempt goes on. -/
theorem Approved.setup (approved : Approved env a messageHash signature trace index proven)
    {feePayer : ArchAddress} {signatureBytes : List UInt8}
    (hkey : canonicalArchKey env a.actor = some feePayer) :
    Live env a (.sent ⟨.accountSetup, a.actor, feePayer, index, messageHash, signature,
      signatureBytes⟩ :: trace) index proven := by
  refine approved.live.record (approved.justified hkey) rfl rfl (fun _ _ _ _ _ h => nomatch h) ?_
  intro t ht
  cases ht
  exact Nat.le_refl _

/-- A new attempt has checked nothing and sent nothing. -/
theorem Live.begin (haccountable : Accountable env trace)
    (hunsent : trace.countP Event.isMutation = 0)
    (hjustified : Justified env trace (.attempt a.number a.actor)) :
    Live env a (.attempt a.number a.actor :: trace) 0 false := by
  have hcurrent : current (.attempt a.number a.actor :: trace) = [] := History.since_cons_hit rfl
  constructor
  · exact ⟨hjustified, haccountable⟩
  · exact History.newest_cons_hit rfl
  · rw [List.countP_cons_of_neg Bool.false_ne_true, hunsent]
  · rintro - ⟨_, _, _, _, h⟩
    rw [hcurrent] at h
    exact nomatch h
  · intro _ _ _ _ h
    rw [hcurrent] at h
    exact nomatch h
  · intro _ _ _ _ _ h
    rw [hcurrent] at h
    exact nomatch h
  · intro _ h
    rw [hcurrent] at h
    exact nomatch h

/-- The number of the latest attempt counts them. -/
theorem Accountable.count {number : Nat} {actor : JsString} (h : Accountable env trace)
    (hlatest : History.newest Event.isAttempt trace = some (.attempt number actor)) :
    trace.countP Event.isAttempt = number := by
  induction trace with
  | nil => exact nomatch hlatest
  | cons e earlier ih =>
      obtain ⟨hjustified, hearlier⟩ := h
      by_cases hattempt : e.isAttempt = true
      · rw [History.newest_cons_hit hattempt] at hlatest
        cases hlatest
        rw [List.countP_cons_of_pos hattempt]
        rcases hjustified with ⟨rfl, hcount⟩ | ⟨rfl, hcount, -, -⟩
        · rw [hcount]
        · rw [hcount]
      · rw [History.newest_cons_miss (Bool.eq_false_iff.mpr hattempt)] at hlatest
        rw [List.countP_cons_of_neg hattempt, ih hearlier hlatest]

/-- Only a first attempt identifies a signer for another one. -/
theorem identifiedSigner_first {n : Nat} {e : SubmitError} {signer : JsString}
    (h : identifiedSigner n e = some signer) : n = 1 := by
  unfold identifiedSigner at h
  split at h
  · split at h
    · assumption
    · exact nomatch h
  · exact nomatch h

/-- What a failed first attempt leaves to the second. -/
theorem Failed.second {e : SubmitError} (failed : Failed env a e trace) {signer : JsString}
    (hsigner : identifiedSigner a.number e = some signer) (reported key : JsString) :
    Accountable env (.remembered reported key :: trace) ∧
    (Event.remembered reported key :: trace).countP Event.isMutation = 0 ∧
    Justified env (.remembered reported key :: trace) (.attempt 2 signer) := by
  obtain ⟨haccountable, hfailed⟩ := failed
  obtain ⟨hunsent, hlatest, approval, messageHash, signature, hmismatch, hmatch, hsent⟩ :=
    hfailed signer hsigner
  rw [identifiedSigner_first hsigner] at hlatest
  have hunsent' : (Event.remembered reported key :: trace).countP Event.isMutation = 0 := by
    rw [List.countP_cons_of_neg Bool.false_ne_true, hunsent]
  refine ⟨⟨trivial, haccountable⟩, hunsent', .inr ⟨rfl, ?_, hunsent', a.actor, ?_, ?_⟩⟩
  · rw [List.countP_cons_of_neg Bool.false_ne_true, haccountable.count hlatest]
  · rw [History.newest_cons_miss rfl, hlatest]
  · rw [current_cons rfl]
    refine ⟨approval, messageHash, signature, List.mem_cons_of_mem _ hmismatch,
      List.mem_cons_of_mem _ hmatch, ?_⟩
    intro t ht
    rcases List.mem_cons.mp ht with hhead | htail
    · exact nomatch hhead
    · exact hsent t htail

end

/-! ## Specifications -/

section
variable {env : Environment} {a : Attempt} {flow₀ : Flow}

@[spec] theorem answer_spec {α : Type} (respond : Nat → α) :
    ⦃fun flow => ⌜flow = flow₀⌝⦄ answer respond
    ⦃post⟨fun _ flow => ⌜flow = { flow₀ with time := flow₀.time + 1 }⌝, fun _ _ => ⌜False⌝⟩⦄ := by
  mvcgen [answer]
  subst_vars
  rfl

@[spec] theorem okOrFail_spec {α : Type} (x : Except Failure α) :
    ⦃fun flow => ⌜flow = flow₀⌝⦄ okOrFail x
    ⦃post⟨fun _ flow => ⌜flow = flow₀⌝,
      fun e flow => ⌜flow = flow₀ ∧ ∃ f, e = .failure f⌝⟩⦄ := by
  cases x with
  | ok a => mvcgen [okOrFail]
  | error f =>
      mvcgen [okOrFail]
      rename_i hflow
      exact ⟨hflow, f, rfl⟩

@[spec] theorem answerOrFail_spec {α : Type} (respond : Nat → Except Failure α) :
    ⦃fun flow => ⌜flow = flow₀⌝⦄ answerOrFail respond
    ⦃post⟨fun _ flow => ⌜flow = { flow₀ with time := flow₀.time + 1 }⌝,
      fun e flow => ⌜flow = { flow₀ with time := flow₀.time + 1 } ∧ ∃ f, e = .failure f⌝⟩⦄ := by
  mvcgen [answerOrFail]
  subst_vars
  rfl

@[spec] theorem record_spec (e : Event) :
    ⦃fun flow => ⌜flow = flow₀⌝⦄ record e
    ⦃post⟨fun _ flow => ⌜flow = { flow₀ with trace := e :: flow₀.trace }⌝,
      fun _ _ => ⌜False⌝⟩⦄ := by
  mvcgen [record]
  subst_vars
  rfl

@[spec] theorem requireConnectedArchAccount_spec (expected : Option JsString) (signed : Bool) :
    ⦃fun flow => ⌜flow = flow₀⌝⦄ requireConnectedArchAccount env expected signed
    ⦃post⟨fun _ flow => ⌜∃ time, flow = { flow₀ with time }⌝,
      fun e flow => ⌜(∃ time, flow = { flow₀ with time }) ∧ ∀ n, identifiedSigner n e = none⌝⟩⦄ := by
  mvcgen [requireConnectedArchAccount, kitPort, rejectSwitch]
  all_goals subst_vars
  all_goals first | exact ⟨_, rfl⟩ | exact ⟨⟨_, rfl⟩, fun _ => rfl⟩

@[spec] theorem requireArchKey_spec (archAddress : JsString) :
    ⦃fun flow => ⌜flow = flow₀⌝⦄ requireArchKey env archAddress
    ⦃post⟨fun key flow => ⌜flow = flow₀ ∧ canonicalArchKey env archAddress = some key⌝,
      fun e flow => ⌜flow = flow₀ ∧ e = .unreadableAddress archAddress⌝⟩⦄ := by
  mvcgen [requireArchKey]

@[spec] theorem checkArchSignature_spec (key messageHash signature : JsString) :
    ⦃fun flow => ⌜flow = flow₀⌝⦄ checkArchSignature env key messageHash signature
    ⦃post⟨fun result flow => ⌜flow = { flow₀ with
        time := flow₀.time + 1
        trace := .checked flow₀.approvalIndex key messageHash signature result :: flow₀.trace }⌝,
      fun _ _ => ⌜False⌝⟩⦄ := by
  mvcgen [checkArchSignature]
  subst_vars
  rfl

/-- The probes are recorded, and the signer is one that matched. -/
def Probed (flow₀ : Flow) (candidates : List JsString) (messageHash signature : JsString)
    (signer : Option JsString) (flow : Flow) : Prop :=
  ∃ probes time, flow = { flow₀ with time, trace := probes ++ flow₀.trace } ∧
    Probes flow₀.approvalIndex candidates messageHash signature probes ∧
    (signer = none → ¬ Verified probes) ∧
    ∀ key, signer = some key →
      .checked flow₀.approvalIndex key messageHash signature .match ∈ probes

theorem probed_nil {messageHash signature : JsString} :
    Probed flow₀ [] messageHash signature none flow₀ := by
  refine ⟨[], flow₀.time, rfl, ?_, ?_, fun _ h => nomatch h⟩
  · exact fun _ h => nomatch h
  · rintro - ⟨_, _, _, _, h⟩
    exact nomatch h

theorem probed_match {messageHash signature candidate : JsString} (later : List JsString)
    (time : Nat) :
    Probed flow₀ (candidate :: later) messageHash signature (some candidate)
      { flow₀ with
        time
        trace := .checked flow₀.approvalIndex candidate messageHash signature .match :: flow₀.trace } := by
  refine ⟨[_], time, rfl, ?_, fun h => (nomatch h), ?_⟩
  · intro e he
    exact ⟨candidate, List.mem_cons_self, .match, List.mem_singleton.mp he⟩
  · rintro key h
    cases h
    exact List.mem_cons_self

/-- The candidates after one that does not match. -/
theorem Probed.cons {messageHash signature candidate : JsString} {later : List JsString} {time : Nat}
    {result : SignatureCheck} (hresult : result ≠ .match) {signer : Option JsString} {flow : Flow}
    (h : Probed
      { flow₀ with
        time
        trace := .checked flow₀.approvalIndex candidate messageHash signature result :: flow₀.trace }
      later messageHash signature signer flow) :
    Probed flow₀ (candidate :: later) messageHash signature signer flow := by
  obtain ⟨probes, time', rfl, hprobes, hnone, hsigner⟩ := h
  refine ⟨probes ++ [.checked flow₀.approvalIndex candidate messageHash signature result], time', ?_,
    ?_, ?_, fun key hkey => List.mem_append_left _ (hsigner key hkey)⟩
  · rw [List.append_assoc, List.singleton_append]
  · intro e he
    rcases List.mem_append.mp he with hlater | hfirst
    · obtain ⟨key, hkey, r, rfl⟩ := hprobes e hlater
      exact ⟨key, List.mem_cons_of_mem _ hkey, r, rfl⟩
    · exact ⟨candidate, List.mem_cons_self, result, List.mem_singleton.mp hfirst⟩
  · rintro hs ⟨approval, key, hash, sig, hmem⟩
    rcases List.mem_append.mp hmem with hlater | hfirst
    · exact hnone hs ⟨approval, key, hash, sig, hlater⟩
    · cases List.mem_singleton.mp hfirst
      exact hresult rfl

@[spec] theorem probeCandidates_spec (messageHash signature : JsString) (candidates : List JsString) :
    ⦃fun flow => ⌜flow = flow₀⌝⦄ probeCandidates env messageHash signature candidates
    ⦃post⟨fun result flow => ⌜Probed flow₀ candidates messageHash signature result.1 flow⌝,
      fun _ _ => ⌜False⌝⟩⦄ := by
  induction candidates generalizing flow₀ with
  | nil =>
      mvcgen [probeCandidates]
      subst_vars
      exact probed_nil
  | cons candidate later ih =>
      mvcgen [probeCandidates, ih]
      · subst_vars
        exact probed_match later _
      · rename_i hresult _ _ _ _ hprobed
        subst_vars
        exact hprobed.cons hresult

@[spec] theorem identifySigner_spec (payer reported messageHash signature : JsString) :
    ⦃fun flow => ⌜flow = flow₀⌝⦄ identifySigner env payer reported messageHash signature
    ⦃post⟨fun result flow =>
        ⌜∃ candidates, Probed flow₀ candidates messageHash signature result.1 flow⌝,
      fun _ _ => ⌜False⌝⟩⦄ := by
  mvcgen [identifySigner]
  subst_vars
  intro hprobed
  obtain ⟨probes, time, rfl, h⟩ := hprobed
  exact ⟨_, probes, time, rfl, h⟩

@[spec] theorem requestSignature_spec (approvalTotal : Nat) (messageHash : JsString) :
    ⦃fun flow => ⌜Live env a flow.trace flow.approvalIndex flow.verifierProven⌝⦄
      requestSignature env a approvalTotal messageHash
    ⦃post⟨fun _ flow => ⌜∃ index, flow.approvalIndex = index + 1 ∧
        Live env a flow.trace index flow.verifierProven⌝,
      fun e flow => ⌜Failed env a e flow.trace⌝⟩⦄ := by
  mvcgen [requestSignature]
  · rename_i live _ progress _ hconnected _ _ _ _ _ _
    obtain ⟨time, rfl⟩ := hconnected
    intro hanswer
    subst_vars
    exact ⟨_, rfl, live.progress progress⟩
  · rename_i live _ progress _ hconnected _ _ _ _ _ _
    obtain ⟨time, rfl⟩ := hconnected
    intro hanswer hfailure
    obtain ⟨f, rfl⟩ := hfailure
    subst_vars
    exact (live.progress progress).failed rfl
  · rename_i live _ _
    rintro ⟨time, rfl⟩ hnone
    exact live.failed (hnone a.number)

/-- Only the signer of an error can be an identified one. -/
theorem identifiedSigner_mismatch {n : Nat} {payer : JsString} {signer : Option JsString}
    {probes : List (JsString × SignatureCheck)} {approvals : Nat} {key : JsString}
    (h : identifiedSigner n (.signerMismatch payer signer probes approvals) = some key) :
    signer = some key := by
  unfold identifiedSigner at h
  dsimp only at h
  split at h
  · exact h
  · exact nomatch h

@[spec] theorem refuseMismatch_spec (messageHash signature : JsString) :
    ⦃fun flow => ⌜∃ index trace, flow.approvalIndex = index + 1 ∧
        Live env a trace index flow.verifierProven ∧
        flow.trace = .checked (index + 1) a.actor messageHash signature .mismatch :: trace⌝⦄
      refuseMismatch env a messageHash signature
    ⦃post⟨fun signature flow =>
        ⌜Approved env a messageHash signature flow.trace flow.approvalIndex flow.verifierProven⌝,
      fun e flow => ⌜Failed env a e flow.trace⌝⟩⦄ := by
  mvcgen [refuseMismatch]
  · rename_i flow hlive _ _ hprobed _ _
    obtain ⟨index, trace, hindex, live, htrace⟩ := hlive
    obtain ⟨candidates, probes, time, rfl, hprobes, -, hsigner⟩ := hprobed
    rw [hindex] at hprobes hsigner
    change Failed env a _ (probes ++ flow.trace)
    rw [htrace]
    apply live.reject hprobes
    intro signer hidentified
    exact hsigner signer (identifiedSigner_mismatch hidentified)
  · rename_i flow hlive result _ hprobed _ hproven
    obtain ⟨index, trace, hindex, live, htrace⟩ := hlive
    obtain ⟨candidates, probes, time, rfl, hprobes, hnone, -⟩ := hprobed
    rw [hindex] at hprobes
    obtain ⟨hunproven, hsigner⟩ := Bool.or_eq_false_iff.mp (Bool.eq_false_iff.mpr hproven)
    rw [hunproven] at live
    change Approved env a messageHash signature (probes ++ flow.trace) flow.approvalIndex
      (flow.verifierProven || result.1.isSome)
    rw [htrace, hindex, hunproven, hsigner]
    exact live.approve_unproven hprobes 
      (hnone (Option.isNone_iff_eq_none.mp (Option.isSome_eq_false_iff.mp hsigner)))

/-- One approval: the signature may go out, or the attempt fails. -/
@[spec] theorem signWithActor_spec (approvalTotal : Nat) (messageHash : JsString) :
    ⦃fun flow => ⌜Live env a flow.trace flow.approvalIndex flow.verifierProven⌝⦄
      signWithActor env a approvalTotal messageHash
    ⦃post⟨fun signature flow =>
        ⌜Approved env a messageHash signature flow.trace flow.approvalIndex flow.verifierProven⌝,
      fun e flow => ⌜Failed env a e flow.trace⌝⟩⦄ := by
  mvcgen [signWithActor]
  · rename_i flow hrequested _ _ _ _ _
    obtain ⟨index, hindex, live⟩ := hrequested
    subst_vars
    change Approved env a messageHash _
      (.checked flow.approvalIndex a.actor messageHash _ .match :: flow.trace) flow.approvalIndex true
    rw [hindex]
    apply live.proved.approve
    · exact nofun
    · exact fun _ => rfl
  · rename_i hrequested _ _ _ _
    obtain ⟨index, hindex, live⟩ := hrequested
    subst_vars
    simp only [hindex]
    apply live.approve
    · exact nofun
    · exact nofun
  · rename_i hrequested _ _ _ _
    obtain ⟨index, hindex, live⟩ := hrequested
    subst_vars
    exact ⟨index, _, hindex, live, by rw [hindex]⟩

@[spec] theorem sendTransaction_spec (phase : SubmitPhase) (feePayer : ArchAddress)
    (messageHash signature : JsString) (signatureBytes : List UInt8) :
    ⦃fun flow => ⌜flow = flow₀⌝⦄
      sendTransaction env a phase feePayer messageHash signature signatureBytes
    ⦃post⟨fun _ flow => ⌜flow = { flow₀ with
        time := flow₀.time + 1
        trace := .sent ⟨phase, a.actor, feePayer, flow₀.approvalIndex, messageHash, signature,
          signatureBytes⟩ :: flow₀.trace }⌝,
      fun e flow => ⌜(∃ f, e = .failure f) ∧ flow = { flow₀ with
        time := flow₀.time + 1
        trace := .sent ⟨phase, a.actor, feePayer, flow₀.approvalIndex, messageHash, signature,
          signatureBytes⟩ :: flow₀.trace }⌝⟩⦄ := by
  mvcgen [sendTransaction]
  · intro hanswer
    subst_vars
    rfl
  · intro hanswer hfailure
    subst_vars
    exact ⟨hfailure, rfl⟩

@[spec] theorem onSubmitted_spec :
    ⦃fun flow => ⌜Accountable env flow.trace⌝⦄ onSubmitted
    ⦃post⟨fun _ flow => ⌜Accountable env flow.trace⌝, fun _ _ => ⌜False⌝⟩⦄ := by
  mvcgen [onSubmitted]
  rename_i haccountable progress _ _ _ _
  intro hrecord
  subst_vars
  exact ⟨trivial, haccountable⟩

@[spec] theorem adjustedSignature_spec (signature : JsString) :
    ⦃fun flow => ⌜flow = flow₀⌝⦄ adjustedSignature env signature
    ⦃post⟨fun _ flow => ⌜flow = flow₀⌝,
      fun e flow => ⌜(∀ n, identifiedSigner n e = none) ∧ flow = flow₀⌝⟩⦄ := by
  mvcgen [adjustedSignature]
  · subst_vars
    exact ⟨fun _ => rfl, rfl⟩
  · subst_vars
    exact ⟨fun _ => rfl, rfl⟩
  · subst_vars
    rfl
  · rintro hflow ⟨f, rfl⟩
    subst_vars
    exact ⟨fun _ => rfl, rfl⟩

@[spec] theorem buildTransaction_spec (instruction : BuiltInstruction) (feePayer : ArchAddress) :
    ⦃fun flow => ⌜Live env a flow.trace flow.approvalIndex flow.verifierProven⌝⦄
      buildTransaction env instruction feePayer
    ⦃post⟨fun _ flow => ⌜Live env a flow.trace flow.approvalIndex flow.verifierProven⌝,
      fun e flow => ⌜Failed env a e flow.trace⌝⟩⦄ := by
  mvcgen [buildTransaction]
  · subst_vars
    assumption
  · rename_i live _ _ _ _
    subst_vars
    exact live.failed rfl
  · rename_i live _ _
    intro hanswer hfailure
    obtain ⟨f, rfl⟩ := hfailure
    subst_vars
    exact live.failed rfl

/-- The account setup leaves the attempt running. -/
@[spec] theorem createArchAccountWithFaucet_spec (approvalTotal : Nat) :
    ⦃fun flow => ⌜Live env a flow.trace flow.approvalIndex flow.verifierProven⌝⦄
      createArchAccountWithFaucet env a approvalTotal
    ⦃post⟨fun _ flow => ⌜Live env a flow.trace flow.approvalIndex flow.verifierProven⌝,
      fun e flow => ⌜Failed env a e flow.trace⌝⟩⦄ := by
  mvcgen [createArchAccountWithFaucet]
  · rename_i live _ _ hkey _ _ _
    obtain ⟨rfl, -⟩ := hkey
    subst_vars
    exact live
  · rename_i hkey _ _ _ _ _ approved _ _ _ _ _ _ _ _ _ _
    subst_vars
    exact approved.setup hkey.2
  · rename_i hkey _ _ _ _ _ approved _ _ _ _ _ _ _ _ _ _ _
    subst_vars
    exact (approved.setup hkey.2).failed rfl
  · rename_i hkey _ _ _ _ _ approved _ _ _ _ _ _ _ _ _ _ _
    subst_vars
    exact (approved.setup hkey.2).failed rfl
  · rename_i hkey _ _ _ _ _ approved _ _ _ _ _
    rintro ⟨f, rfl⟩ hflow
    subst_vars
    exact (approved.setup hkey.2).failed rfl
  · rename_i approved _ _
    rintro hflow ⟨f, rfl⟩
    subst_vars
    exact approved.live.failed rfl
  · rename_i live _ _ hkey _ _
    rintro hflow ⟨f, rfl⟩
    obtain ⟨rfl, -⟩ := hkey
    subst_vars
    exact live.failed rfl
  · rename_i live _ _
    rintro hflow herror
    subst_vars
    exact live.failed rfl

@[spec] theorem setUpAccount_spec (approvalTotal : Nat) :
    ⦃fun flow => ⌜Live env a flow.trace flow.approvalIndex flow.verifierProven⌝⦄
      setUpAccount env a approvalTotal
    ⦃post⟨fun _ flow => ⌜Live env a flow.trace flow.approvalIndex flow.verifierProven⌝,
      fun e flow => ⌜Failed env a e flow.trace⌝⟩⦄ := by
  mvcgen [setUpAccount]

@[spec] theorem settleError_spec (e : SubmitError) :
    ⦃fun flow => ⌜Failed env a e flow.trace⌝⦄ settleError e
    ⦃post⟨fun _ flow => ⌜Accountable env flow.trace⌝,
      fun e flow => ⌜Failed env a e flow.trace⌝⟩⦄ := by
  mvcgen [settleError]
  · rename_i failed
    exact failed.1
  · rename_i failed
    exact failed.1.failed rfl

@[spec] theorem archAccountExists_spec (archAddress : JsString) :
    ⦃fun flow => ⌜flow = flow₀⌝⦄ archAccountExists env archAddress
    ⦃post⟨fun _ flow => ⌜∃ time, flow = { flow₀ with time }⌝,
      fun e flow => ⌜(∃ time, flow = { flow₀ with time }) ∧ ∀ n, identifiedSigner n e = none⌝⟩⦄ := by
  mvcgen [archAccountExists]
  · rename_i hkey _ _
    obtain ⟨rfl, -⟩ := hkey
    intro hflow
    subst_vars
    exact ⟨_, rfl⟩
  · rename_i hkey _ _
    obtain ⟨rfl, -⟩ := hkey
    intro hflow hfailure
    obtain ⟨f, rfl⟩ := hfailure
    subst_vars
    exact ⟨⟨_, rfl⟩, fun _ => rfl⟩
  · intro hflow herror
    subst_vars
    exact ⟨⟨_, rfl⟩, fun _ => rfl⟩

/-- The state in which an attempt may begin. -/
def Ready (env : Environment) (number : Nat) (actor : JsString) (trace : List Event) : Prop :=
  Accountable env trace ∧ trace.countP Event.isMutation = 0 ∧
    Justified env trace (.attempt number actor)

theorem Ready.first {actor : JsString} {trace : List Event} (h : trace = []) :
    Ready env 1 actor trace := by
  subst h
  exact ⟨trivial, rfl, .inl ⟨rfl, rfl⟩⟩

variable [Sdk.Platform]

/-- The mutation goes out, or the attempt fails. -/
@[spec] theorem signAndSendInstruction_spec (approvalTotal : Nat) (instruction : BuiltInstruction)
    (feePayer : ArchAddress) (confirmEffect : Bool)
    (hkey : canonicalArchKey env a.actor = some feePayer) :
    ⦃fun flow => ⌜Live env a flow.trace flow.approvalIndex flow.verifierProven⌝⦄
      signAndSendInstruction env a approvalTotal instruction feePayer confirmEffect
    ⦃post⟨fun _ flow => ⌜Accountable env flow.trace⌝,
      fun e flow => ⌜Failed env a e flow.trace⌝⟩⦄ := by
  mvcgen [signAndSendInstruction]
  · rename_i approved _ _ _ _ _ _
    subst_vars
    exact approved.sent hkey
  · rename_i haccountable _ _ _ _ _
    intro hflow
    subst_vars
    exact haccountable
  · rename_i haccountable _ _ _ _ _
    rintro hflow ⟨f, rfl⟩
    subst_vars
    exact haccountable.failed rfl
  · rename_i approved _ _ _ _ _
    rintro ⟨f, rfl⟩ hflow
    subst_vars
    exact (approved.sent hkey).failed rfl
  · rename_i approved _ _
    intro hnone hflow
    subst_vars
    exact approved.live.failed (hnone _)

@[spec] theorem submitMutation_spec (approvalTotal : Nat) (confirmEffect : Bool) :
    ⦃fun flow => ⌜Live env a flow.trace flow.approvalIndex flow.verifierProven⌝⦄
      submitMutation env a approvalTotal confirmEffect
    ⦃post⟨fun _ flow => ⌜Accountable env flow.trace⌝,
      fun e flow => ⌜Failed env a e flow.trace⌝⟩⦄ := by
  mvcgen [submitMutation]
  · rename_i hkey
    exact hkey.2
  · rename_i live instruction _ _ _ _ _ _ _ hkey
    obtain ⟨rfl, -⟩ := hkey
    subst_vars
    exact live.built instruction
  · rename_i live instruction _ _ _ _ _ _ _
    intro hflow herror
    subst_vars
    exact (live.built instruction).failed rfl
  · rename_i live _ _
    intro hflow hfailure
    obtain ⟨f, rfl⟩ := hfailure
    subst_vars
    exact live.failed rfl

@[spec] theorem submitSteps_spec (approvalTotal : Nat) (confirmEffect : Bool) :
    ⦃fun flow => ⌜Live env a flow.trace flow.approvalIndex flow.verifierProven⌝⦄
      submitSteps env a approvalTotal confirmEffect
    ⦃post⟨fun _ flow => ⌜Accountable env flow.trace⌝,
      fun e flow => ⌜Failed env a e flow.trace⌝⟩⦄ := by
  mvcgen [submitSteps]

@[spec] theorem runSubmitAttempt_spec (confirmEffect : Bool) :
    ⦃fun flow => ⌜Ready env a.number a.actor flow.trace⌝⦄ runSubmitAttempt env a confirmEffect
    ⦃post⟨fun _ flow => ⌜Accountable env flow.trace⌝,
      fun e flow => ⌜Failed env a e flow.trace⌝⟩⦄ := by
  mvcgen [runSubmitAttempt]
  · rename_i hready _ _ _ _ _ _ hexists _
    obtain ⟨time, rfl⟩ := hexists
    subst_vars
    exact Live.begin hready.1 hready.2.1 hready.2.2
  · exact id
  · rename_i hready _ _ _ _ _
    rintro ⟨time, rfl⟩ hnone
    subst_vars
    exact (Live.begin hready.1 hready.2.1 hready.2.2).failed (hnone a.number)

/-- The attempts from a number on: only the second one has a first one before it. -/
@[spec] theorem runAttempts_second (reported actor : JsString) (confirmEffect : Bool)
    (pinSource : PinSource) :
    ⦃fun flow => ⌜Ready env 2 actor flow.trace⌝⦄
      runAttempts env reported confirmEffect [2] actor pinSource
    ⦃post⟨fun _ flow => ⌜Accountable env flow.trace⌝,
      fun _ flow => ⌜Accountable env flow.trace⌝⟩⦄ := by
  mvcgen [runAttempts]
  · rename_i haccountable _ _ _
    subst_vars
    exact ⟨trivial, haccountable⟩
  · rename_i failed
    exact failed.1
  · rename_i failed _ _ _
    subst_vars
    exact ⟨trivial, failed.1⟩

@[spec] theorem runAttempts_spec (reported actor : JsString) (confirmEffect : Bool)
    (pinSource : PinSource) :
    ⦃fun flow => ⌜Ready env 1 actor flow.trace⌝⦄
      runAttempts env reported confirmEffect [1, 2] actor pinSource
    ⦃post⟨fun _ flow => ⌜Accountable env flow.trace⌝,
      fun _ flow => ⌜Accountable env flow.trace⌝⟩⦄ := by
  unfold runAttempts
  mvcgen
  · rename_i haccountable _ _ _
    subst_vars
    exact ⟨trivial, haccountable⟩
  · rename_i failed
    exact failed.1
  · rename_i hsigner _ failed _ _ _
    subst_vars
    exact failed.second hsigner reported _

theorem submitWithWindowArch_spec (confirmEffect : Bool) :
    ⦃fun flow => ⌜flow.trace = []⌝⦄ submitWithWindowArch env confirmEffect
    ⦃post⟨fun _ flow => ⌜Accountable env flow.trace⌝,
      fun _ flow => ⌜Accountable env flow.trace⌝⟩⦄ := by
  mvcgen [submitWithWindowArch, kitPort]
  · subst_vars
    exact Ready.first ‹_›
  · rintro failed
    exact failed.1
  · rename_i hconnected _ _ _
    obtain ⟨time, rfl⟩ := hconnected
    subst_vars
    exact Ready.first ‹_›
  · rintro ⟨time, rfl⟩ hnone
    subst_vars
    rename_i htrace _ _ _
    rw [htrace]
    trivial

theorem userAction_accountable (confirmEffect : Bool) :
    Accountable env (userAction env confirmEffect).2 := by
  have hspec := @submitWithWindowArch_spec env _ confirmEffect
  have hwp : ⊢ₛ wp⟦(submitWithWindowArch env confirmEffect).run⟧
      (⇓ _ flow => ⌜Accountable env flow.trace⌝) Flow.start := by
    rw [WP.ExceptT_run]
    intro _
    exact hspec Flow.start rfl
  exact StateM.of_wp_run_eq rfl
    (fun x : Except SubmitError SubmitOutcome × Flow => Accountable env x.2.trace) hwp

end

/-! ## What an action has done -/

section
variable {env : Environment} {trace : List Event}

theorem Accountable.attempts (h : Accountable env trace) : trace.countP Event.isAttempt ≤ 2 := by
  induction trace with
  | nil => exact Nat.zero_le 2
  | cons e earlier ih =>
      obtain ⟨hjustified, hearlier⟩ := h
      cases e with
      | attempt number actor =>
          rw [List.countP_cons_of_pos rfl]
          rcases hjustified with ⟨-, hcount⟩ | ⟨-, hcount, -⟩ <;> omega
      | _ => exact ih hearlier

theorem Accountable.mutations (h : Accountable env trace) : trace.countP Event.isMutation ≤ 1 := by
  induction trace with
  | nil => exact Nat.zero_le 1
  | cons e earlier ih =>
      obtain ⟨hjustified, hearlier⟩ := h
      by_cases hmutation : e.isMutation = true
      · rw [List.countP_cons_of_pos hmutation]
        cases e with
        | sent t =>
            have hnone := hjustified.2.2.2 (of_decide_eq_true hmutation)
            omega
        | _ => exact nomatch hmutation
      · rw [List.countP_cons_of_neg hmutation]
        exact ih hearlier

theorem Accountable.each (h : Accountable env trace) {later earlier : List Event} {e : Event}
    (htrace : trace = later ++ e :: earlier) : Justified env earlier e := by
  subst htrace
  induction later with
  | nil => exact h.1
  | cons e' later ih => exact ih h.2

end

end Manager

end ArchNameService
