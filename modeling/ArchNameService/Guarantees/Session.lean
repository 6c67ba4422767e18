import ArchNameService.Manager.WalletSession

/-!
# What the wallet session of the page keeps to

Over every run of reads, prompts and answers: the account that may sign is never one that is
only watched, and while the page waits for the wallet, the wallet owes it an answer to the
newest prompt. An answer to an older prompt does not reach the page.
-/

namespace ArchNameService

namespace Manager.Wallet

/-! ## What the wallet reports -/

/-- No open prompt; and an account that is connected can sign. -/
def Reported : WalletStatus → Prop
  | .connected account => isSignableAccount account = true
  | .awaitingWallet .. => False
  | _ => True

theorem accountStatus_reported (account : ConnectedAccount) : Reported (accountStatus account) := by
  unfold accountStatus
  split
  · assumption
  · trivial

theorem answeredStatus_reported (next : Option ProviderAccount) : Reported (answeredStatus next) := by
  unfold answeredStatus
  cases normalizeAccount next with
  | none => trivial
  | some account => exact accountStatus_reported account

theorem statusFromError_reported (error : WalletFailure) : Reported (statusFromError error) := by
  unfold statusFromError
  split
  · trivial
  · trivial
  · trivial
  · trivial
  · split
    · trivial
    · trivial

theorem promptFailureStatus_reported (error : WalletFailure) (intent : WalletPromptIntent) :
    Reported (promptFailureStatus error intent) := by
  unfold promptFailureStatus
  cases classifyWalletPromptFailure error with
  | some reason => trivial
  | none =>
      dsimp only
      split
      · trivial
      · trivial
      · trivial
      · exact statusFromError_reported error

theorem resolveAmbiguousLock_reported {status : WalletStatus} (knownNotInitialized : Bool)
    (reported : Reported status) : Reported (resolveAmbiguousLock knownNotInitialized status) := by
  unfold resolveAmbiguousLock
  split
  · split
    · trivial
    · trivial
  · exact reported

theorem readStatus_reported (knownNotInitialized : Bool) (answer : WalletAnswer) :
    Reported (readStatus knownNotInitialized answer).1 := by
  cases answer with
  | ok next => exact answeredStatus_reported next
  | error error => exact resolveAmbiguousLock_reported _ (statusFromError_reported error)

theorem promptStatus_reported (knownNotInitialized : Bool) (intent : WalletPromptIntent)
    (answer : WalletAnswer) : Reported (promptStatus knownNotInitialized intent answer).1 := by
  cases answer with
  | ok next => exact answeredStatus_reported next
  | error error => exact promptFailureStatus_reported error intent

theorem outcome_reported {next : WalletStatus} {probed : Option WalletStatus} (hnext : Reported next)
    (hprobed : ∀ status, probed = some status → Reported status) : Reported (outcome next probed) := by
  unfold outcome
  cases hfound : probed.filter fun probed => (statusAccount probed).isSome with
  | none => exact hnext
  | some status => exact hprobed status (Option.filter_eq_some_iff.mp hfound).1

theorem kitAccount_signable {kitWallet : Option KitWallet} {providerId : Option JsString}
    {account : ConnectedAccount} (h : kitLaserEyesAccount kitWallet providerId = some account) :
    isSignableAccount account = true := by
  simp only [kitLaserEyesAccount, Option.bind_eq_bind, Option.bind_eq_some_iff] at h
  obtain ⟨_, -, _, -, h⟩ := h
  split at h
  · cases h
  · cases h
    rfl

namespace WalletSession
variable {s s' : WalletSession}

/-! ## Sessions -/

/-- The wallet has not answered the prompt, or not the read that followed it. -/
def Owes (s : WalletSession) (id : Nat) : Prop :=
  (∃ intent, ⟨id, intent⟩ ∈ s.prompts) ∨ ∃ next, .check id next ∈ s.readers

/-- The page waits for the newest prompt. -/
def Awaits (s : WalletSession) : Prop :=
  s.connecting = true ∧ ∃ intent canReprompt, s.archStatus = .awaitingWallet intent canReprompt

structure Consistent (s : WalletSession) : Prop where
  status : Reported s.archStatus ∨ s.Awaits
  kit : ∀ account, s.kitAccount = some account → isSignableAccount account = true
  checks : ∀ id next, .check id next ∈ s.readers → Reported next
  owed : s.connecting = true → s.Owes s.latestPromptId

theorem initial_consistent : initial.Consistent where
  status := .inl trivial
  kit _ h := nomatch h
  checks _ _ h := nomatch h
  owed h := nomatch h

namespace Consistent

theorem tell (consistent : s.Consistent) {status : WalletStatus} (reported : Reported status) :
    { s with archStatus := status }.Consistent where
  status := .inl reported
  kit := consistent.kit
  checks := consistent.checks
  owed := consistent.owed

theorem adopt (consistent : s.Consistent) {status : WalletStatus} (reported : Reported status) :
    (s.adopt status).Consistent := by
  unfold WalletSession.adopt
  split
  · exact consistent.tell reported
  · exact consistent

/-- The end of the newest prompt leaves nothing to wait for. -/
theorem conclude (kit : ∀ account, s.kitAccount = some account → isSignableAccount account = true)
    (checks : ∀ id next, .check id next ∈ s.readers → Reported next) {next : WalletStatus}
    {probed : Option WalletStatus} (reported : Reported (outcome next probed)) :
    (s.conclude next probed).Consistent where
  status := .inl reported
  kit := kit
  checks := checks
  owed h := nomatch h

/-- A caller that starts a read changes nothing else. -/
theorem await (consistent : s.Consistent) {reader : Reader}
    (hreader : ∀ id next, reader = .check id next → Reported next) :
    { s with readers := reader :: s.readers }.Consistent where
  status := consistent.status
  kit := consistent.kit
  checks := by
    intro id next h
    rcases List.mem_cons.mp h with hfirst | hrest
    · exact hreader id next hfirst.symm
    · exact consistent.checks id next hrest
  owed hconnecting := by
    refine (consistent.owed hconnecting).imp_right ?_
    rintro ⟨next, hnext⟩
    exact ⟨next, List.mem_cons_of_mem reader hnext⟩

end Consistent

/-! ## One turn -/

theorem unasked_reported {status : WalletStatus} (h : s.unasked = some status) :
    Reported status := by
  unfold unasked at h
  split at h <;> cases h <;> trivial

theorem refresh_consistent (consistent : s.Consistent) : s.refresh.2.Consistent := by
  unfold refresh
  split
  · rename_i status hunasked
    exact consistent.adopt (unasked_reported hunasked)
  · exact consistent.await nofun

/-- The end of a prompt, of which only the newest may be what the page waits for. -/
theorem ended_consistent (id : Nat) {next : WalletStatus} (reported : Reported next)
    (status : Reported s.archStatus ∨ s.Awaits)
    (kit : ∀ account, s.kitAccount = some account → isSignableAccount account = true)
    (checks : ∀ id next, .check id next ∈ s.readers → Reported next)
    (owed : id ≠ s.latestPromptId → s.connecting = true → s.Owes s.latestPromptId) :
    (s.ended id next).2.Consistent := by
  unfold ended
  by_cases hcurrent : id = s.latestPromptId
  · rw [isCurrentWalletPrompt, decide_eq_true hcurrent]
    simp only [Bool.not_true, Bool.false_eq_true, if_false]
    split
    · exact .conclude kit checks (outcome_reported reported nofun)
    · split
      · rename_i hunasked
        refine .conclude kit checks (outcome_reported reported ?_)
        rintro _ ⟨⟩
        exact unasked_reported hunasked
      · refine ⟨status, kit, ?_, fun _ => .inr ⟨next, ?_⟩⟩
        · intro other next' h
          rcases List.mem_cons.mp h with hfirst | hrest
          · cases hfirst
            exact reported
          · exact checks other next' hrest
        · rw [hcurrent]
          exact List.mem_cons_self
  · rw [isCurrentWalletPrompt, decide_eq_false hcurrent]
    exact ⟨status, kit, checks, owed hcurrent⟩

theorem connect_consistent (consistent : s.Consistent) (intent : WalletPromptIntent) :
    (s.connect intent).2.Consistent := by
  unfold connect
  dsimp only
  split
  · exact ended_consistent _ trivial (.inr ⟨rfl, intent, false, rfl⟩) consistent.kit
      consistent.checks fun hne _ => absurd rfl hne
  · exact ⟨.inr ⟨rfl, intent, false, rfl⟩, consistent.kit, consistent.checks,
      fun _ => .inl ⟨intent, List.mem_cons_self⟩⟩

theorem offerReprompt_consistent (consistent : s.Consistent) (id : Nat) :
    (s.offerReprompt id).Consistent := by
  unfold offerReprompt
  split
  · rename_i intent hawaiting
    split
    · refine ⟨.inr ⟨?_, intent, true, rfl⟩, consistent.kit, consistent.checks, consistent.owed⟩
      rcases consistent.status with hreported | hawaits
      · rw [hawaiting] at hreported
        exact hreported.elim
      · exact hawaits.1
    · exact consistent
  · exact consistent

/-- The wallet answers a read. -/
theorem deliver_consistent (consistent : s.Consistent) {reader : Reader} {status : WalletStatus}
    (knownNotInitialized : Bool) (hreader : reader ∈ s.readers) (reported : Reported status) :
    (({ s with knownNotInitialized, readers := s.readers.erase reader } : WalletSession).deliver
      status reader).2.Consistent := by
  have checks : ∀ id next, .check id next ∈ s.readers.erase reader → Reported next :=
    fun id next h => consistent.checks id next (List.mem_of_mem_erase h)
  have owed : (∀ next, reader ≠ .check s.latestPromptId next) → s.connecting = true →
      (∃ intent, ⟨s.latestPromptId, intent⟩ ∈ s.prompts) ∨
        ∃ next, .check s.latestPromptId next ∈ s.readers.erase reader := by
    intro hother hconnecting
    refine (consistent.owed hconnecting).imp_right ?_
    rintro ⟨next, hnext⟩
    exact ⟨next, (List.mem_erase_of_ne (hother next).symm).mpr hnext⟩
  cases reader with
  | refresh =>
      have waiting : ({ s with
          knownNotInitialized, readers := s.readers.erase .refresh } : WalletSession).Consistent :=
        ⟨consistent.status, consistent.kit, checks, owed nofun⟩
      exact waiting.adopt reported
  | check id next =>
      unfold deliver
      dsimp only
      split
      · refine Consistent.conclude (s := { s with
          knownNotInitialized, readers := s.readers.erase (.check id next) }) consistent.kit checks
          (outcome_reported (consistent.checks id next hreader) ?_)
        rintro _ ⟨⟩
        exact reported
      · rename_i hcurrent
        refine ⟨consistent.status, consistent.kit, checks, owed ?_⟩
        rintro _ ⟨⟩
        exact hcurrent (decide_eq_true rfl)
  | other => exact ⟨consistent.status, consistent.kit, checks, owed nofun⟩

theorem Step.consistent {l : SessionLabel} (step : s.Step l s') (consistent : s.Consistent) :
    s'.Consistent := by
  obtain ⟨event, told⟩ := l
  unfold Step at step
  cases event with
  | injected readable =>
      simp only [handle, Option.ite_none_left_eq_some, Option.some.injEq, Prod.mk.injEq] at step
      obtain ⟨-, -, rfl⟩ := step
      exact ⟨consistent.status, consistent.kit, consistent.checks, consistent.owed⟩
  | undetected =>
      simp only [handle, Option.ite_none_left_eq_some, Option.some.injEq, Prod.mk.injEq] at step
      obtain ⟨-, -, rfl⟩ := step
      exact consistent.tell trivial
  | refreshed =>
      have hafter := refresh_consistent consistent
      simp only [handle, Option.some.injEq] at step
      rwa [step] at hafter
  | probed =>
      simp only [handle, Option.some.injEq, Prod.mk.injEq] at step
      obtain ⟨-, rfl⟩ := step
      split
      · exact consistent
      · exact consistent.await nofun
  | clicked intent =>
      have hafter := connect_consistent consistent intent
      simp only [handle, Option.some.injEq] at step
      rwa [step] at hafter
  | reprompted id =>
      simp only [handle, Option.some.injEq, Prod.mk.injEq] at step
      obtain ⟨-, rfl⟩ := step
      exact offerReprompt_consistent consistent id
  | heard reader answer =>
      simp only [handle, List.contains_iff_mem, Option.ite_none_right_eq_some,
        Option.some.injEq] at step
      obtain ⟨hreader, step⟩ := step
      have hafter := deliver_consistent consistent (readStatus s.knownNotInitialized answer).2 hreader
        (readStatus_reported s.knownNotInitialized answer)
      rwa [step] at hafter
  | answered prompt answer =>
      simp only [handle, List.contains_iff_mem, Option.ite_none_right_eq_some,
        Option.some.injEq] at step
      obtain ⟨hprompt, step⟩ := step
      have hafter := ended_consistent (s := { s with
          knownNotInitialized := (promptStatus s.knownNotInitialized prompt.intent answer).2
          prompts := s.prompts.erase prompt }) prompt.id
        (promptStatus_reported s.knownNotInitialized prompt.intent answer) consistent.status
        consistent.kit consistent.checks ?_
      · rwa [step] at hafter
      · intro hother hconnecting
        refine (consistent.owed hconnecting).imp_left ?_
        rintro ⟨intent, hintent⟩
        refine ⟨intent, (List.mem_erase_of_ne fun hsame => ?_).mpr hintent⟩
        exact hother (congrArg WalletPrompt.id hsame).symm
  | kitChanged kitWallet providerId =>
      simp only [handle, Option.some.injEq, Prod.mk.injEq] at step
      obtain ⟨-, rfl⟩ := step
      exact ⟨consistent.status, fun _ h => kitAccount_signable h, consistent.checks, consistent.owed⟩

/-! ## Whole sessions -/

theorem reached_consistent {history : List SessionLabel} (run : Run Step initial history s) :
    s.Consistent :=
  run.invariant (I := fun _ s => s.Consistent) initial_consistent fun _ h step => step.consistent h

/-- The account that may sign is not one that is only watched. -/
theorem account_signable {history : List SessionLabel} (run : Run Step initial history s)
    {account : ConnectedAccount} (h : s.account = some account) :
    isSignableAccount account = true := by
  have consistent := reached_consistent run
  unfold WalletSession.account status at h
  cases hkit : s.kitAccount with
  | some kit =>
      rw [hkit] at h
      cases h
      exact consistent.kit account hkit
  | none =>
      rw [hkit] at h
      dsimp only at h
      split at h
      · rename_i harch
        cases h
        rcases consistent.status with hreported | ⟨-, intent, canReprompt, hawaiting⟩
        · rwa [harch] at hreported
        · cases harch.symm.trans hawaiting
      · cases h

/-- While the page waits for the wallet, the wallet owes an answer to the newest prompt. -/
theorem awaiting_owed {history : List SessionLabel} (run : Run Step initial history s)
    {intent : WalletPromptIntent} {canReprompt : Bool}
    (h : s.archStatus = .awaitingWallet intent canReprompt) : s.Owes s.latestPromptId := by
  have consistent := reached_consistent run
  rcases consistent.status with hreported | hawaits
  · rw [h] at hreported
    exact hreported.elim
  · exact consistent.owed hawaits.1

/-- An answer to an older prompt does not reach the page. -/
theorem Step.superseded {prompt : WalletPrompt} {answer : WalletAnswer} {told : Option Told}
    (step : s.Step ⟨.answered prompt answer, told⟩ s') (holder : prompt.id ≠ s.latestPromptId) :
    told = none ∧ s'.archStatus = s.archStatus ∧ s'.connecting = s.connecting := by
  simp only [Step, handle, List.contains_iff_mem, Option.ite_none_right_eq_some,
    Option.some.injEq] at step
  obtain ⟨-, step⟩ := step
  rw [ended, isCurrentWalletPrompt, decide_eq_false holder] at step
  cases step
  exact ⟨rfl, rfl, rfl⟩

end WalletSession

end Manager.Wallet

end ArchNameService
