import Mathlib.Data.List.Range
import ArchNameService.Manager.WalletGateway

/-!
# Requests to the wallet, one at a time

The runs that the gateway has queued begin in their order, each once and only when the
one before has settled; a keyed request rides along while one of its key is pending.
-/

namespace ArchNameService

namespace Manager
open JsString
open Promises

variable {α : Type}

abbrev WalletHistory (α : Type) := List (WalletEvent α)

/-- How a run has settled that came back so, where that is known. -/
def WalletHeap.outcomeOf (h : WalletHeap α) :
    Completion PromiseId (WalletValue α) → Option (Promises.Settled (WalletValue α))
  | .value v => some (.fulfilled v)
  | .thrown reason => some (.rejected reason)
  | .promise p => h.outcomes p

/-- The run has come back, and has settled. -/
def RunSettled (history : WalletHistory α) (h : WalletHeap α) (c : Nat)
    (outcome : Promises.Settled (WalletValue α)) : Prop :=
  ∃ completion, .finished c completion ∈ history ∧ h.outcomeOf completion = some outcome

/-- Which promise a reaction may be attached to, and which it settles. -/
def Link (history : WalletHistory α) : Reaction PromiseId Handler → PromiseId → Prop
  | .call (.run c) derived, p => derived = .result c ∧ p = tailBefore c
  | .call .settled derived, p => ∃ c, derived = .tail c ∧ p = .result c
  | .call (.release _ result) derived, p =>
      p = result ∧ ∃ c, result = .result c ∧ derived = .released c
  | .pass derived, p => ∃ c, derived = .result c ∧ .finished c (.promise p) ∈ history

/-- Every promise settles after what it waits for, a result as its run has settled. -/
structure Causal (history : WalletHistory α) (h : WalletHeap α) : Prop where
  linked : h.Linked (Link history)
  initial : ∃ o, h.outcomes .initial = some o
  result : ∀ c o, h.outcomes (.result c) = some o → RunSettled history h c o
  tail : ∀ c o, h.outcomes (.tail c) = some o → ∃ o', h.outcomes (.result c) = some o'

theorem RunSettled.mono {history history' : WalletHistory α} {h h' : WalletHeap α} {c : Nat}
    {o : Promises.Settled (WalletValue α)} (hs : RunSettled history h c o)
    (hhistory : ∀ e ∈ history, e ∈ history')
    (hheap : ∀ p o, h.outcomes p = some o → h'.outcomes p = some o) :
    RunSettled history' h' c o := by
  obtain ⟨completion, hmem, ho⟩ := hs
  refine ⟨completion, hhistory _ hmem, ?_⟩
  cases completion with
  | value v => exact ho
  | thrown reason => exact ho
  | promise p => exact hheap p o ho

theorem Link.mono {history history' : WalletHistory α} (hhistory : ∀ e ∈ history, e ∈ history')
    (r : Reaction PromiseId Handler) (p : PromiseId) (h : Link history r p) :
    Link history' r p := by
  cases r with
  | call handler derived => cases handler <;> exact h
  | pass derived =>
      obtain ⟨c, hd, hmem⟩ := h
      exact ⟨c, hd, hhistory _ hmem⟩

/-! ## What keeps causality -/

namespace Causal
variable {history : WalletHistory α} {h : WalletHeap α}

theorem cons (hc : Causal history h) (e : WalletEvent α) : Causal (e :: history) h := by
  have hmem : ∀ d ∈ history, d ∈ e :: history := fun d hd => List.mem_cons_of_mem e hd
  refine ⟨hc.linked.mono (Link.mono hmem), hc.initial, fun c o ho => ?_, hc.tail⟩
  exact (hc.result c o ho).mono hmem fun _ _ h => h

/-- The queues change, and no promise settles. -/
theorem linkedTo {h' : WalletHeap α} (hc : Causal history h) (hlinked : h'.Linked (Link history))
    (houtcomes : h'.outcomes = h.outcomes) : Causal history h' := by
  refine ⟨hlinked, houtcomes ▸ hc.initial, fun c o ho => ?_, fun c o ho => ?_⟩
  · rw [houtcomes] at ho
    exact (hc.result c o ho).mono (fun _ h => h) fun p o hp => by rw [houtcomes, hp]
  · rw [houtcomes] at ho ⊢
    exact hc.tail c o ho

theorem subscribe (hc : Causal history h) {p : PromiseId} {r : Reaction PromiseId Handler}
    (hlink : Link history r p) : Causal history (h.subscribe p r) :=
  hc.linkedTo (hc.linked.subscribe hlink) Heap.subscribe_outcomes

theorem pop (hc : Causal history h) {job : Job PromiseId Handler (WalletValue α)}
    {jobs : List (Job PromiseId Handler (WalletValue α))} (hjobs : h.jobs = job :: jobs) :
    Causal history { h with jobs } :=
  hc.linkedTo (hc.linked.pop hjobs) rfl

/-- A promise settles: a result as its run, a tail after its result. -/
theorem settle (hc : Causal history h) {d : PromiseId} {o : Promises.Settled (WalletValue α)}
    (hresult : ∀ c, d = .result c → h.outcomes d = none → RunSettled history (h.settle d o) c o)
    (htail : ∀ c, d = .tail c → ∃ o', h.outcomes (.result c) = some o') :
    Causal history (h.settle d o) := by
  have hkeep : ∀ p o', h.outcomes p = some o' → (h.settle d o).outcomes p = some o' :=
    fun _ _ hp => Heap.settle_outcomes_of_some hp
  refine ⟨hc.linked.settle d o, ?_, fun c o' ho => ?_, fun c o' ho => ?_⟩
  · obtain ⟨o', ho⟩ := hc.initial
    exact ⟨o', hkeep _ _ ho⟩
  · cases hold : h.outcomes (.result c) with
    | some o'' =>
        rw [hkeep _ _ hold, Option.some.injEq] at ho
        subst ho
        exact (hc.result c _ hold).mono (fun _ h => h) hkeep
    | none =>
        rcases Heap.settle_outcomes_cases ho with hsome | ⟨hd, rfl⟩
        · exact nomatch hold.symm.trans hsome
        · exact hresult c hd.symm (hd ▸ hold)
  · rcases Heap.settle_outcomes_cases ho with hsome | ⟨hd, -⟩
    · obtain ⟨o'', ho''⟩ := hc.tail c o' hsome
      exact ⟨o'', hkeep _ _ ho''⟩
    · obtain ⟨o'', ho''⟩ := htail c hd.symm
      exact ⟨o'', hkeep _ _ ho''⟩

/-- The promise of a run is resolved with what the run came back with. -/
theorem resolve (hc : Causal history h) {c : Nat}
    {completion : Completion PromiseId (WalletValue α)}
    (hmem : .finished c completion ∈ history) :
    Causal history (h.resolve .typeError (.result c) completion) := by
  cases completion with
  | value v =>
      refine hc.settle (fun c' hd _ => ?_) fun c' hd => nomatch hd
      cases hd
      exact ⟨_, hmem, rfl⟩
  | thrown reason =>
      refine hc.settle (fun c' hd _ => ?_) fun c' hd => nomatch hd
      cases hd
      exact ⟨_, hmem, rfl⟩
  | promise p =>
      simp only [Heap.resolve]
      split
      · rename_i hp
        refine hc.settle (fun c' hd hnone => ?_) fun c' hd => nomatch hd
        cases hd
        refine ⟨_, hmem, ?_⟩
        rw [hp]
        exact Heap.settle_outcomes_self hnone
      · exact hc.linkedTo (hc.linked.enqueue ⟨c, rfl, hmem⟩) rfl

/-- An outcome is passed on to the result of the run that came back with its promise. -/
theorem pass (hc : Causal history h) {d p : PromiseId} {o : Promises.Settled (WalletValue α)}
    (hlink : Link history (.pass d) p) (hp : h.outcomes p = some o) :
    Causal history (h.settle d o) := by
  obtain ⟨c, rfl, hmem⟩ := hlink
  refine hc.settle (fun c' hd _ => ?_) fun c' hd => nomatch hd
  cases hd
  exact ⟨_, hmem, Heap.settle_outcomes_of_some hp⟩

end Causal

/-! ## What a step does -/

namespace WalletGateway
variable {s s' : WalletGateway α}

theorem nextJob_cases {e : WalletEvent α} (h : s.nextJob = some (e, s')) :
    ∃ job jobs, s.running = none ∧ s.heap.jobs = job :: jobs ∧
      ((∃ c derived outcome, job = .react (.call (.run c) derived) outcome ∧ e = .begun c ∧
        s' = { s with heap := { s.heap with jobs }, running := some (c, derived) }) ∨
      (∃ derived outcome, job = .react (.call .settled derived) outcome ∧ e = .job ∧
        s' = { s with
          heap := Heap.settle { s.heap with jobs } derived (.fulfilled .undefined) }) ∨
      (∃ key result derived outcome, job = .react (.call (.release key result) derived) outcome ∧
        e = .job ∧ s' = { s.release key result with
          heap := Heap.settle { s.heap with jobs } derived (.fulfilled .undefined) }) ∨
      (∃ derived outcome, job = .react (.pass derived) outcome ∧ e = .job ∧
        s' = { s with heap := Heap.settle { s.heap with jobs } derived outcome }) ∨
      (∃ source derived, job = .adopt source derived ∧ e = .job ∧
        s' = { s with heap := Heap.subscribe { s.heap with jobs } source (.pass derived) })) := by
  unfold nextJob at h
  split at h
  · rename_i job jobs hrunning hjobs
    refine ⟨job, jobs, hrunning, hjobs, ?_⟩
    dsimp only at h
    split at h
    · cases h
      exact .inl ⟨_, _, _, rfl, rfl, rfl⟩
    · cases h
      exact .inr (.inl ⟨_, _, rfl, rfl, rfl⟩)
    · rename_i key result derived _
      cases h
      refine .inr (.inr (.inl ⟨key, result, derived, _, rfl, rfl, ?_⟩))
      unfold release
      split <;> rfl
    · cases h
      exact .inr (.inr (.inr (.inl ⟨_, _, rfl, rfl, rfl⟩)))
    · cases h
      exact .inr (.inr (.inr (.inr ⟨_, _, rfl, rfl, rfl⟩)))
  · exact nomatch h

theorem finish_cases {completion : Completion PromiseId (WalletValue α)} {c : Nat}
    (h : s.finish completion = some (c, s')) : ∃ derived, s.running = some (c, derived) ∧
      s' = { s with heap := s.heap.resolve .typeError derived completion, running := none } := by
  unfold finish at h
  split at h
  · exact nomatch h
  · rename_i derived hrunning
    cases h
    exact ⟨derived, hrunning, rfl⟩

/-- A call rides along, or queues a run of its own, with a release where it has a key. -/
theorem walletRequest_cases (s : WalletGateway α) (key : Option JsString) :
    (∃ k existing, requestKey key = some k ∧ s.inFlight k = some existing ∧
      s.walletRequest key = (existing, s)) ∨
    (requestKey key = none ∧ s.walletRequest key = (.result s.queued, s.enqueueRun)) ∨
    (∃ k, requestKey key = some k ∧ s.inFlight k = none ∧
      s.walletRequest key = (.result s.queued,
        { s.enqueueRun with
          inFlight := Function.update s.inFlight k (some (.result s.queued))
          heap := s.enqueueRun.heap.subscribe (.result s.queued)
            (.call (.release k (.result s.queued)) (.released s.queued)) })) := by
  unfold walletRequest
  cases hkey : requestKey key with
  | none => exact .inr (.inl ⟨rfl, rfl⟩)
  | some k =>
      dsimp only
      cases hinflight : s.inFlight k with
      | some existing => exact .inl ⟨k, existing, rfl, hinflight, rfl⟩
      | none => exact .inr (.inr ⟨k, rfl, hinflight, rfl⟩)

/-! ## Causality in every run -/

/-- The promises of a state settle in causal order, and it goes on at the tail of its queue. -/
structure Wired (history : WalletHistory α) (s : WalletGateway α) : Prop where
  causal : Causal history s.heap
  queue : s.queue = tailBefore s.queued
  running : ∀ c derived, s.running = some (c, derived) → derived = .result c

theorem wired_initial : Wired ([] : WalletHistory α) (initial α) := by
  have hsettled : ∀ p o, (initial α).heap.outcomes p = some o → p = .initial := by
    intro p o ho
    by_contra hne
    have hnone : (initial α).heap.outcomes p = none := by
      simp only [initial, Function.update_of_ne hne]
    exact nomatch hnone.symm.trans ho
  refine ⟨⟨⟨nofun, nofun, nofun⟩, ⟨_, rfl⟩, fun c o ho => ?_, fun c o ho => ?_⟩, rfl, nofun⟩
  · exact nomatch hsettled _ _ ho
  · exact nomatch hsettled _ _ ho

theorem Wired.enqueueRun {history : WalletHistory α} (hs : Wired history s) :
    Wired history s.enqueueRun := by
  refine ⟨?_, rfl, hs.running⟩
  apply Causal.subscribe
  · exact hs.causal.subscribe ⟨rfl, hs.queue⟩
  · exact ⟨s.queued, rfl, rfl⟩

theorem Wired.step {history : WalletHistory α} {e : WalletEvent α} (hs : Wired history s)
    (h : Step s e s') : Wired (e :: history) s' := by
  have hs' : Wired (e :: history) s := ⟨hs.causal.cons e, hs.queue, hs.running⟩
  cases h with
  | call key =>
      rcases s.walletRequest_cases key with ⟨k, existing, -, -, heq⟩ | ⟨-, heq⟩ | ⟨k, -, -, heq⟩
      · rw [heq] at hs' ⊢
        exact hs'
      · rw [heq] at hs' ⊢
        exact hs'.enqueueRun
      · rw [heq] at hs' ⊢
        have hqueued := hs'.enqueueRun
        exact ⟨hqueued.causal.subscribe ⟨rfl, s.queued, rfl, rfl⟩, hqueued.queue, hqueued.running⟩
  | job h =>
      obtain ⟨job, jobs, hrunning, hjobs, hcases⟩ := nextJob_cases h
      have hfirst : job ∈ s.heap.jobs := hjobs ▸ List.mem_cons_self
      have hpop := hs'.causal.pop hjobs
      rcases hcases with ⟨c, d, o, rfl, rfl, rfl⟩ | ⟨d, o, rfl, rfl, rfl⟩ |
        ⟨k, result, d, o, rfl, rfl, rfl⟩ | ⟨d, o, rfl, rfl, rfl⟩ | ⟨p, d, rfl, rfl, rfl⟩
      · refine ⟨hpop, hs.queue, ?_⟩
        rintro c' d' ⟨⟩
        obtain ⟨p, hlink, -⟩ := hs.causal.linked.react _ _ hfirst
        exact hlink.1
      · obtain ⟨p, ⟨c, rfl, rfl⟩, ho⟩ := hs.causal.linked.react _ _ hfirst
        refine ⟨hpop.settle (fun c' hd => nomatch hd) fun c' hd => ?_, hs.queue, hs.running⟩
        cases hd
        exact ⟨o, ho⟩
      · obtain ⟨p, ⟨-, c, -, rfl⟩, -⟩ := hs.causal.linked.react _ _ hfirst
        have hsettle := hpop.settle (d := .released c) (o := .fulfilled .undefined)
          (fun c' hd => nomatch hd) fun c' hd => nomatch hd
        refine ⟨hsettle, ?_, ?_⟩
        · rw [release_queue, release_queued]
          exact hs.queue
        · rw [release_running]
          exact hs.running
      · obtain ⟨p, hlink, ho⟩ := hs'.causal.linked.react _ _ hfirst
        exact ⟨hpop.pass hlink ho, hs.queue, hs.running⟩
      · exact ⟨hpop.subscribe (hs'.causal.linked.adopt p d hfirst), hs.queue, hs.running⟩
  | finish hvisible h =>
      obtain ⟨derived, hrunning, rfl⟩ := finish_cases h
      cases hs.running _ _ hrunning
      exact ⟨hs'.causal.resolve List.mem_cons_self, hs.queue, nofun⟩
  | foreign f outcome =>
      have hsettle := hs'.causal.settle (d := .foreign f) (o := outcome)
        (fun c hd => nomatch hd) fun c hd => nomatch hd
      exact ⟨hsettle, hs.queue, hs.running⟩

/-! ## Nothing is lost -/

/-- The promise that the code on the stack is to settle. -/
def active (s : WalletGateway α) : Option PromiseId := s.running.map Prod.snd

/-- The results and the tails of the queued runs have settled, or something will settle them. -/
def NothingLost (s : WalletGateway α) : Prop :=
  ∀ c < s.queued, s.heap.Accounted s.active (.result c) ∧ s.heap.Accounted s.active (.tail c)

theorem NothingLost.enqueueRun (hs : s.NothingLost) : s.enqueueRun.NothingLost := by
  intro c hc
  rcases Nat.lt_succ_iff_lt_or_eq.mp hc with hc | rfl
  · exact ⟨((hs c hc).1.subscribe _ _).subscribe _ _, ((hs c hc).2.subscribe _ _).subscribe _ _⟩
  · exact ⟨(Heap.accounted_subscribe _ _).subscribe _ _, Heap.accounted_subscribe _ _⟩

theorem NothingLost.step {e : WalletEvent α} (hs : s.NothingLost) (h : Step s e s') :
    s'.NothingLost := by
  cases h with
  | call key =>
      rcases s.walletRequest_cases key with ⟨k, existing, -, -, heq⟩ | ⟨-, heq⟩ | ⟨k, -, -, heq⟩
      · rw [heq]
        exact hs
      · rw [heq]
        exact hs.enqueueRun
      · rw [heq]
        intro c hc
        have hqueued := hs.enqueueRun c hc
        exact ⟨hqueued.1.subscribe _ _, hqueued.2.subscribe _ _⟩
  | job h =>
      obtain ⟨job, jobs, hrunning, hjobs, hcases⟩ := nextJob_cases h
      have hactive : s.active = none := by rw [active, hrunning, Option.map_none]
      have hpop : ∀ p, s.heap.Accounted s.active p →
          Heap.Accounted { s.heap with jobs } (some job.reaction.derived) p := by
        intro p hp
        rw [hactive] at hp
        exact hp.pop hjobs
      rcases hcases with ⟨c, d, o, rfl, -, rfl⟩ | ⟨d, o, rfl, -, rfl⟩ |
        ⟨k, result, d, o, rfl, -, rfl⟩ | ⟨d, o, rfl, -, rfl⟩ | ⟨p, d, rfl, -, rfl⟩
      · exact fun c' hc => ⟨hpop _ (hs c' hc).1, hpop _ (hs c' hc).2⟩
      · intro c hc
        change Heap.Accounted _ s.active _ ∧ Heap.Accounted _ s.active _
        rw [hactive]
        exact ⟨(hpop _ (hs c hc).1).settled _, (hpop _ (hs c hc).2).settled _⟩
      · intro c hc
        rw [release_queued] at hc
        rw [active, release_running, hrunning, Option.map_none]
        exact ⟨(hpop _ (hs c hc).1).settled _, (hpop _ (hs c hc).2).settled _⟩
      · intro c hc
        change Heap.Accounted _ s.active _ ∧ Heap.Accounted _ s.active _
        rw [hactive]
        exact ⟨(hpop _ (hs c hc).1).settled _, (hpop _ (hs c hc).2).settled _⟩
      · intro c hc
        change Heap.Accounted _ s.active _ ∧ Heap.Accounted _ s.active _
        rw [hactive]
        exact ⟨(hpop _ (hs c hc).1).deferred Heap.subscribe_outcomes rfl Heap.subscribe_reactions,
          (hpop _ (hs c hc).2).deferred Heap.subscribe_outcomes rfl Heap.subscribe_reactions⟩
  | finish hvisible h =>
      obtain ⟨derived, hrunning, rfl⟩ := finish_cases h
      intro c hc
      have hactive : s.active = some derived := by rw [active, hrunning, Option.map_some]
      have hold := hs c hc
      rw [hactive] at hold
      exact ⟨hold.1.resolve .typeError _, hold.2.resolve .typeError _⟩
  | foreign f outcome =>
      exact fun c hc => ⟨(hs c hc).1.settle _ _, (hs c hc).2.settle _ _⟩

end WalletGateway

/-! ## The order of the runs -/

/-- The run that a reaction begins. -/
def runOf : Reaction PromiseId Handler → Option Nat
  | .call (.run c) _ => some c
  | _ => none

/-- The runs that are yet to begin. -/
def WalletHeap.runs (h : WalletHeap α) : List Nat := h.reactions.filterMap runOf

/-- The runs have begun up to one of them, each once and after the one before has settled. -/
structure InOrder (history : WalletHistory α) (s : WalletGateway α) : Prop where
  begun : ∃ m ≤ s.queued, (∀ c, .begun c ∈ history ↔ c < m) ∧
    s.heap.runs.Perm (List.range' m (s.queued - m))
  after : ∀ c, .begun c ∈ history → ∃ o, s.heap.outcomes (tailBefore c) = some o
  finished : ∀ c completion, .finished c completion ∈ history → .begun c ∈ history
  running : ∀ c derived, s.running = some (c, derived) →
    .begun c ∈ history ∧ ∀ completion, .finished c completion ∉ history
  once : ∀ c x y, .finished c x ∈ history → .finished c y ∈ history → x = y

open WalletGateway

variable {s s' : WalletGateway α} {history : WalletHistory α}

theorem inOrder_initial : InOrder [] (initial α) :=
  ⟨⟨0, Nat.le_refl 0, fun _ => ⟨nofun, nofun⟩, .refl _⟩, nofun, nofun, nofun, nofun⟩

/-- A step that begins, ends and queues no run. -/
theorem InOrder.quiet {e : WalletEvent α} (hs : InOrder history s) (hbegun : ∀ c, e ≠ .begun c)
    (hfinished : ∀ c x, e ≠ .finished c x) (hqueued : s'.queued = s.queued)
    (hrunning : s'.running = s.running) (hruns : s'.heap.runs.Perm s.heap.runs)
    (hheap : ∀ p o, s.heap.outcomes p = some o → s'.heap.outcomes p = some o) :
    InOrder (e :: history) s' := by
  have hmem : ∀ c, .begun c ∈ e :: history ↔ .begun c ∈ history := by
    intro c
    rw [List.mem_cons]
    exact ⟨fun h => h.resolve_left (hbegun c).symm, .inr⟩
  have hdone : ∀ c x, .finished c x ∈ e :: history ↔ .finished c x ∈ history := by
    intro c x
    rw [List.mem_cons]
    exact ⟨fun h => h.resolve_left (hfinished c x).symm, .inr⟩
  obtain ⟨m, hm, hlt, hperm⟩ := hs.begun
  refine ⟨⟨m, hqueued ▸ hm, fun c => (hmem c).trans (hlt c), ?_⟩, fun c hc => ?_, fun c x hx => ?_,
    fun c d hd => ?_, fun c x y hx hy => ?_⟩
  · rw [hqueued]
    exact hruns.trans hperm
  · obtain ⟨o, ho⟩ := hs.after c ((hmem c).mp hc)
    exact ⟨o, hheap _ _ ho⟩
  · exact (hmem c).mpr (hs.finished c x ((hdone c x).mp hx))
  · obtain ⟨hc, hnot⟩ := hs.running c d (hrunning ▸ hd)
    exact ⟨(hmem c).mpr hc, fun x hx => hnot x ((hdone c x).mp hx)⟩
  · exact hs.once c x y ((hdone c x).mp hx) ((hdone c y).mp hy)

/-- A run is queued behind the others. -/
theorem InOrder.queue {e : WalletEvent α} (hs : InOrder history s) (hbegun : ∀ c, e ≠ .begun c)
    (hfinished : ∀ c x, e ≠ .finished c x) (hqueued : s'.queued = s.queued + 1)
    (hrunning : s'.running = s.running) (hruns : s'.heap.runs.Perm (s.queued :: s.heap.runs))
    (hheap : s'.heap.outcomes = s.heap.outcomes) : InOrder (e :: history) s' := by
  -- the new run goes to the end of those that are yet to begin
  have hquiet : InOrder (e :: history) s :=
    hs.quiet hbegun hfinished rfl rfl (.refl _) fun _ _ h => h
  obtain ⟨m, hm, hlt, hperm⟩ := hquiet.begun
  refine ⟨⟨m, hqueued ▸ Nat.le_succ_of_le hm, hlt, ?_⟩, fun c hc => hheap ▸ hquiet.after c hc,
    hquiet.finished, fun c d hd => hquiet.running c d (hrunning ▸ hd), hquiet.once⟩
  have hlength : s'.queued - m = s.queued - m + 1 := by omega
  have hlast : m + (s.queued - m) = s.queued := by omega
  rw [hlength, List.range'_1_concat, hlast]
  refine hruns.trans ((List.Perm.cons s.queued hperm).trans ?_)
  exact (List.perm_append_singleton ..).symm

/-- The run that begins is the next one: the tail before it has settled. -/
theorem InOrder.next (hs : InOrder history s) (hc : Causal history s.heap) {c : Nat}
    (hrun : c ∈ s.heap.runs) {o : Promises.Settled (WalletValue α)}
    (htail : s.heap.outcomes (tailBefore c) = some o) :
    .begun c ∉ history ∧ c < s.queued ∧ ∀ b, .begun b ∈ history ↔ b < c := by
  obtain ⟨m, hm, hlt, hperm⟩ := hs.begun
  obtain ⟨hle, hqueued⟩ := List.mem_range'_1.mp (hperm.mem_iff.mp hrun)
  have heq : c = m := by
    by_contra hne
    obtain ⟨b, rfl⟩ : ∃ b, c = b + 1 := ⟨c - 1, by omega⟩
    obtain ⟨o', ho'⟩ := hc.tail b o htail
    obtain ⟨completion, hfinished, -⟩ := hc.result b o' ho'
    have hbegun := (hlt b).mp (hs.finished b completion hfinished)
    omega
  subst heq
  exact ⟨fun h => Nat.lt_irrefl _ ((hlt c).mp h), by omega, hlt⟩

/-- What runs before a run has settled. -/
theorem InOrder.settled (hs : InOrder history s) (hc : Causal history s.heap) {c : Nat}
    (hbegun : ∀ b, .begun b ∈ history ↔ b < c) {o : Promises.Settled (WalletValue α)}
    (htail : s.heap.outcomes (tailBefore c) = some o) (b : Nat) (hb : b < c) :
    .begun b ∈ history ∧ ∃ o, RunSettled history s.heap b o := by
  obtain ⟨o', ho'⟩ : ∃ o', s.heap.outcomes (.tail b) = some o' := by
    rcases Nat.lt_or_eq_of_le (Nat.succ_le_of_lt hb) with hlt | rfl
    · exact hs.after (b + 1) ((hbegun _).mpr hlt)
    · exact ⟨o, htail⟩
  obtain ⟨o'', ho''⟩ := hc.tail b o' ho'
  exact ⟨(hbegun b).mpr hb, o'', hc.result b o'' ho''⟩

theorem runs_subscribe {h : WalletHeap α} {p : PromiseId} {r : Reaction PromiseId Handler}
    (hr : runOf r = none) : (WalletHeap.runs (h.subscribe p r)).Perm h.runs := by
  unfold WalletHeap.runs
  refine (Heap.subscribe_reactions.filterMap runOf).trans ?_
  rw [List.filterMap_cons_none hr]

theorem runs_settle {h : WalletHeap α} {p : PromiseId} {o : Promises.Settled (WalletValue α)} :
    (WalletHeap.runs (h.settle p o)).Perm h.runs := Heap.settle_reactions.filterMap runOf

theorem runs_of_jobs {h : WalletHeap α} {job : Job PromiseId Handler (WalletValue α)}
    {jobs : List (Job PromiseId Handler (WalletValue α))} (hjobs : h.jobs = job :: jobs)
    (hr : runOf job.reaction = none) : WalletHeap.runs { h with jobs } = h.runs := by
  unfold WalletHeap.runs
  rw [Heap.reactions_of_jobs hjobs, List.filterMap_cons_none hr]

theorem runs_enqueueRun : s.enqueueRun.heap.runs.Perm (s.queued :: s.heap.runs) := by
  refine (runs_subscribe rfl).trans ?_
  unfold WalletHeap.runs
  exact Heap.subscribe_reactions.filterMap runOf

theorem runs_resolve {h : WalletHeap α} {d : PromiseId}
    {completion : Completion PromiseId (WalletValue α)} :
    (WalletHeap.runs (h.resolve .typeError d completion)).Perm h.runs := by
  cases completion with
  | value v => exact runs_settle
  | thrown reason => exact runs_settle
  | promise p =>
      simp only [Heap.resolve]
      split
      · exact runs_settle
      · unfold WalletHeap.runs
        exact Heap.enqueue_reactions.filterMap runOf

theorem resolve_outcomes {h : WalletHeap α} {d p : PromiseId}
    {completion : Completion PromiseId (WalletValue α)} {o : Promises.Settled (WalletValue α)}
    (hp : h.outcomes p = some o) :
    (h.resolve .typeError d completion).outcomes p = some o := by
  cases completion with
  | value v => exact Heap.settle_outcomes_of_some hp
  | thrown reason => exact Heap.settle_outcomes_of_some hp
  | promise q =>
      simp only [Heap.resolve]
      split
      · exact Heap.settle_outcomes_of_some hp
      · exact hp

/-- The next run begins. -/
theorem InOrder.begin (hs : InOrder history s) (hw : Wired history s) {c : Nat} {d : PromiseId}
    {o o' : Promises.Settled (WalletValue α)} {jobs : List (Job PromiseId Handler (WalletValue α))}
    (hjobs : s.heap.jobs = .react (.call (.run c) d) o :: jobs)
    (htail : s.heap.outcomes (tailBefore c) = some o') :
    InOrder (.begun c :: history)
      { s with heap := { s.heap with jobs }, running := some (c, d) } := by
  have hruns : s.heap.runs = c :: WalletHeap.runs { s.heap with jobs } := by
    unfold WalletHeap.runs
    rw [Heap.reactions_of_jobs hjobs]
    exact List.filterMap_cons_some rfl
  obtain ⟨hnot, hc, hbegun⟩ := hs.next hw.causal (hruns ▸ List.mem_cons_self) htail
  have hmem : ∀ b, .begun b ∈ WalletEvent.begun c :: history ↔ b < c + 1 := by
    intro b
    rw [List.mem_cons, hbegun b, WalletEvent.begun.injEq, Nat.lt_succ_iff_lt_or_eq, or_comm]
  have hdone : ∀ b x, .finished b x ∈ WalletEvent.begun c :: history ↔ .finished b x ∈ history := by
    intro b x
    rw [List.mem_cons]
    exact ⟨fun h => h.resolve_left nofun, .inr⟩
  refine ⟨⟨c + 1, hc, hmem, ?_⟩, fun b hb => ?_, fun b x hx => ?_, ?_, fun b x y hx hy => ?_⟩
  · obtain ⟨m, hm, hlt, hperm⟩ := hs.begun
    have hcm : c = m := by
      have hnotc := mt (hlt c).mpr hnot
      have hle : m ≤ c := by omega
      rcases Nat.lt_or_eq_of_le hle with hlt' | heq
      · exact absurd ((hlt m).mp ((hbegun m).mpr hlt')) (Nat.lt_irrefl m)
      · exact heq.symm
    subst hcm
    have hlength : s.queued - c = s.queued - (c + 1) + 1 := by omega
    rw [hruns, hlength, List.range'_succ] at hperm
    exact hperm.cons_inv
  · rcases Nat.lt_succ_iff_lt_or_eq.mp ((hmem b).mp hb) with hb | rfl
    · exact hs.after b ((hbegun b).mpr hb)
    · exact ⟨o', htail⟩
  · exact List.mem_cons_of_mem _ (hs.finished b x ((hdone b x).mp hx))
  · rintro b d' ⟨⟩
    exact ⟨List.mem_cons_self, fun x hx => hnot (hs.finished c x ((hdone c x).mp hx))⟩
  · exact hs.once b x y ((hdone b x).mp hx) ((hdone b y).mp hy)

/-- The run on the stack comes back, for the first time. -/
theorem InOrder.finish (hs : InOrder history s) {c : Nat} {d : PromiseId}
    {completion : Completion PromiseId (WalletValue α)} (hrunning : s.running = some (c, d)) :
    InOrder (.finished c completion :: history)
      { s with heap := s.heap.resolve .typeError d completion, running := none } := by
  obtain ⟨hbegun, hnot⟩ := hs.running c d hrunning
  have hmem : ∀ b, .begun b ∈ WalletEvent.finished c completion :: history ↔
      .begun b ∈ history := by
    intro b
    rw [List.mem_cons]
    exact ⟨fun h => h.resolve_left nofun, .inr⟩
  have hdone : ∀ b x, .finished b x ∈ WalletEvent.finished c completion :: history →
      b = c ∧ x = completion ∨ .finished b x ∈ history := by
    intro b x hx
    rcases List.mem_cons.mp hx with heq | hx
    · cases heq
      exact .inl ⟨rfl, rfl⟩
    · exact .inr hx
  obtain ⟨m, hm, hlt, hperm⟩ := hs.begun
  refine ⟨⟨m, hm, fun b => (hmem b).trans (hlt b), runs_resolve.trans hperm⟩, fun b hb => ?_,
    fun b x hx => (hmem b).mpr ?_, nofun, fun b x y hx hy => ?_⟩
  · obtain ⟨o, ho⟩ := hs.after b ((hmem b).mp hb)
    exact ⟨o, resolve_outcomes ho⟩
  · rcases hdone b x hx with ⟨rfl, -⟩ | hx
    · exact hbegun
    · exact hs.finished b x hx
  · rcases hdone b x hx with ⟨hb, hx⟩ | hx
    · rcases hdone b y hy with ⟨-, hy⟩ | hy
      · exact hx.trans hy.symm
      · exact absurd (hb ▸ hy) (hnot y)
    · rcases hdone b y hy with ⟨hb, -⟩ | hy
      · exact absurd (hb ▸ hx) (hnot x)
      · exact hs.once b x y hx hy

theorem InOrder.step {e : WalletEvent α} (hs : InOrder history s) (hw : Wired history s)
    (h : Step s e s') : InOrder (e :: history) s' := by
  cases h with
  | call key =>
      rcases s.walletRequest_cases key with ⟨k, existing, -, -, heq⟩ | ⟨-, heq⟩ | ⟨k, -, -, heq⟩
      · rw [heq]
        exact hs.quiet nofun nofun rfl rfl (.refl _) fun _ _ h => h
      · rw [heq]
        dsimp only
        refine hs.queue nofun nofun rfl rfl runs_enqueueRun ?_
        simp only [enqueueRun, Heap.subscribe_outcomes]
      · rw [heq]
        dsimp only
        refine hs.queue nofun nofun rfl rfl ((runs_subscribe rfl).trans runs_enqueueRun) ?_
        simp only [enqueueRun, Heap.subscribe_outcomes]
  | job h =>
      obtain ⟨job, jobs, hrunning, hjobs, hcases⟩ := nextJob_cases h
      have hfirst : job ∈ s.heap.jobs := hjobs ▸ List.mem_cons_self
      rcases hcases with ⟨c, d, o, rfl, rfl, rfl⟩ | ⟨d, o, rfl, rfl, rfl⟩ |
        ⟨k, result, d, o, rfl, rfl, rfl⟩ | ⟨d, o, rfl, rfl, rfl⟩ | ⟨p, d, rfl, rfl, rfl⟩
      · obtain ⟨p, ⟨rfl, rfl⟩, ho⟩ := hw.causal.linked.react _ _ hfirst
        exact hs.begin hw hjobs ho
      · refine hs.quiet nofun nofun rfl rfl ?_ fun _ _ hp => Heap.settle_outcomes_of_some hp
        rw [← runs_of_jobs hjobs rfl]
        exact runs_settle
      · refine hs.quiet nofun nofun (release_queued ..) (release_running ..) ?_
          fun _ _ hp => Heap.settle_outcomes_of_some hp
        rw [← runs_of_jobs hjobs rfl]
        exact runs_settle
      · refine hs.quiet nofun nofun rfl rfl ?_ fun _ _ hp => Heap.settle_outcomes_of_some hp
        rw [← runs_of_jobs hjobs rfl]
        exact runs_settle
      · refine hs.quiet nofun nofun rfl rfl ?_ fun q o hq => ?_
        · rw [← runs_of_jobs hjobs rfl]
          exact runs_subscribe rfl
        · rw [Heap.subscribe_outcomes]
          exact hq
  | finish hvisible h =>
      obtain ⟨derived, hrunning, rfl⟩ := finish_cases h
      exact hs.finish hrunning
  | foreign f outcome =>
      exact hs.quiet nofun nofun rfl rfl runs_settle fun _ _ hp => Heap.settle_outcomes_of_some hp

/-! ## The keys in flight -/

/-- The request in flight of a key is to be released, and is the pending one of that key. -/
structure Keyed (history : WalletHistory α) (s : WalletGateway α) : Prop where
  known : ∀ key p, .called key p ∈ history → ∃ c < s.queued, p = .result c
  release : ∀ k p, s.inFlight k = some p → ∃ c < s.queued, p = .result c ∧
    .call (.release k p) (.released c) ∈ s.heap.reactions
  pending : ∀ key k c, .called key (.result c) ∈ history → requestKey key = some k →
    s.heap.outcomes (.result c) = none → s.inFlight k = some (.result c)

theorem keyed_initial : Keyed [] (initial α) := ⟨nofun, nofun, nofun⟩

/-- A step that calls nothing and runs no release. -/
theorem Keyed.quiet {e : WalletEvent α} (hs : Keyed history s) (he : ∀ key p, e ≠ .called key p)
    (hqueued : s'.queued = s.queued) (hinFlight : s'.inFlight = s.inFlight)
    (hreactions : ∀ k p d, .call (.release k p) d ∈ s.heap.reactions →
      .call (.release k p) d ∈ s'.heap.reactions)
    (hheap : ∀ p o, s.heap.outcomes p = some o → s'.heap.outcomes p = some o) :
    Keyed (e :: history) s' := by
  have hcalled : ∀ key p, .called key p ∈ e :: history → .called key p ∈ history := by
    intro key p h
    exact (List.mem_cons.mp h).resolve_left (he key p).symm
  refine ⟨fun key p h => ?_, fun k p h => ?_, fun key k c h hk hnone => ?_⟩
  · rw [hqueued]
    exact hs.known key p (hcalled key p h)
  · rw [hinFlight] at h
    obtain ⟨c, hc, hp, hr⟩ := hs.release k p h
    exact ⟨c, hqueued ▸ hc, hp, hreactions k p _ hr⟩
  · rw [hinFlight]
    apply hs.pending key k c (hcalled key _ h) hk
    cases hold : s.heap.outcomes (.result c) with
    | none => rfl
    | some o => exact nomatch hnone.symm.trans (hheap _ _ hold)

/-- A call with the result that it returns, where the request is still in flight or is new. -/
theorem Keyed.call {key : Option JsString} {c : Nat} (hs : Keyed history s)
    (hc : c < s'.queued) (hqueued : s.queued ≤ s'.queued)
    (hrelease : ∀ k p, s'.inFlight k = some p → s.inFlight k = some p ∨ requestKey key = some k ∧
      p = .result c ∧ .call (.release k p) (.released c) ∈ s'.heap.reactions)
    (hkeep : ∀ k p, s.inFlight k = some p → s'.inFlight k = some p)
    (hkey : ∀ k, requestKey key = some k → s'.inFlight k = some (.result c))
    (hreactions : ∀ r ∈ s.heap.reactions, r ∈ s'.heap.reactions)
    (hheap : s'.heap.outcomes = s.heap.outcomes) :
    Keyed (.called key (.result c) :: history) s' := by
  refine ⟨fun key' p h => ?_, fun k p h => ?_, fun key' k c' h hk hnone => ?_⟩
  · rcases List.mem_cons.mp h with heq | h
    · cases heq
      exact ⟨c, hc, rfl⟩
    · obtain ⟨b, hb, hp⟩ := hs.known key' p h
      exact ⟨b, Nat.lt_of_lt_of_le hb hqueued, hp⟩
  · rcases hrelease k p h with h | ⟨-, hp, hr⟩
    · obtain ⟨b, hb, hp, hr⟩ := hs.release k p h
      exact ⟨b, Nat.lt_of_lt_of_le hb hqueued, hp, hreactions _ hr⟩
    · exact ⟨c, hc, hp, hr⟩
  · rcases List.mem_cons.mp h with heq | h
    · cases heq
      exact hkey k hk
    · exact hkeep k _ (hs.pending key' k c' h hk (hheap ▸ hnone))

theorem resolve_reactions {h : WalletHeap α} {d : PromiseId} {r : Reaction PromiseId Handler}
    {completion : Completion PromiseId (WalletValue α)} (hr : r ∈ h.reactions) :
    r ∈ (h.resolve .typeError d completion).reactions := by
  cases completion with
  | value v => exact Heap.settle_reactions.mem_iff.mpr hr
  | thrown reason => exact Heap.settle_reactions.mem_iff.mpr hr
  | promise q =>
      simp only [Heap.resolve]
      split
      · exact Heap.settle_reactions.mem_iff.mpr hr
      · exact Heap.enqueue_reactions.mem_iff.mpr (List.mem_cons_of_mem _ hr)

/-- The key of a settled request is released, where it is still that request's. -/
theorem Keyed.released (hs : Keyed history s) {k : JsString} {c : Nat}
    {o o' : Promises.Settled (WalletValue α)} {jobs : List (Job PromiseId Handler (WalletValue α))}
    (hjobs : s.heap.jobs =
      .react (.call (.release k (.result c)) (.released c)) o :: jobs)
    (ho : s.heap.outcomes (.result c) = some o') :
    Keyed (.job :: history) { s.release k (.result c) with
      heap := Heap.settle { s.heap with jobs } (.released c) (.fulfilled .undefined) } := by
  have hinFlight : ∀ k' p, (s.release k (.result c)).inFlight k' = some p ↔
      s.inFlight k' = some p ∧ ¬ (k' = k ∧ p = .result c) := by
    intro k' p
    unfold WalletGateway.release
    split
    · rename_i hk
      by_cases hkk : k' = k
      · subst hkk
        dsimp only
        rw [Function.update_self, hk]
        refine ⟨nofun, fun h => absurd ⟨rfl, ?_⟩ h.2⟩
        exact (Option.some.inj h.1).symm
      · dsimp only
        rw [Function.update_of_ne hkk]
        exact ⟨fun h => ⟨h, fun hk' => hkk hk'.1⟩, fun h => h.1⟩
    · rename_i hk
      refine ⟨fun h => ⟨h, ?_⟩, fun h => h.1⟩
      rintro ⟨rfl, rfl⟩
      exact hk h
  have hcalled : ∀ key p, .called key p ∈ WalletEvent.job :: history → .called key p ∈ history :=
    fun key p h => (List.mem_cons.mp h).resolve_left nofun
  refine ⟨fun key p h => ?_, fun k' p h => ?_, fun key k' c' h hk hnone => ?_⟩
  · rw [release_queued]
    exact hs.known key p (hcalled key p h)
  · obtain ⟨hold, hne⟩ := (hinFlight k' p).mp h
    obtain ⟨b, hb, hp, hr⟩ := hs.release k' p hold
    refine ⟨b, by rwa [release_queued], hp, Heap.settle_reactions.mem_iff.mpr ?_⟩
    rw [Heap.reactions_of_jobs hjobs] at hr
    refine (List.mem_cons.mp hr).resolve_left fun heq => hne ?_
    cases heq
    exact ⟨rfl, rfl⟩
  · have hold : s.heap.outcomes (.result c') = none := by
      cases hsome : s.heap.outcomes (.result c') with
      | none => rfl
      | some o'' =>
          have hkept : (Heap.settle { s.heap with jobs } (.released c)
              (.fulfilled .undefined)).outcomes (.result c') = some o'' :=
            Heap.settle_outcomes_of_some hsome
          exact nomatch hnone.symm.trans hkept
    refine (hinFlight k' _).mpr ⟨hs.pending key k' c' (hcalled key _ h) hk hold, ?_⟩
    rintro ⟨-, heq⟩
    cases heq
    exact nomatch hold.symm.trans ho

theorem Keyed.step {e : WalletEvent α} (hs : Keyed history s) (hw : Wired history s)
    (h : Step s e s') : Keyed (e :: history) s' := by
  have hqueuedRun : ∀ r ∈ s.heap.reactions, r ∈ s.enqueueRun.heap.reactions := by
    intro r hr
    apply Heap.subscribe_reactions.mem_iff.mpr
    apply List.mem_cons_of_mem
    exact Heap.subscribe_reactions.mem_iff.mpr (List.mem_cons_of_mem _ hr)
  cases h with
  | call key =>
      rcases s.walletRequest_cases key with ⟨k, existing, hk, hinFlight, heq⟩ | ⟨hk, heq⟩ |
        ⟨k, hk, hinFlight, heq⟩
      · rw [heq]
        obtain ⟨c, hc, rfl, -⟩ := hs.release k existing hinFlight
        refine hs.call hc (Nat.le_refl _) (fun _ _ h => .inl h) (fun _ _ h => h) ?_ (fun _ h => h) rfl
        intro k' hk'
        cases hk.symm.trans hk'
        exact hinFlight
      · rw [heq]
        refine hs.call (Nat.lt_succ_self _) (Nat.le_succ _) (fun _ _ h => .inl h) (fun _ _ h => h)
          ?_ hqueuedRun ?_
        · intro k' hk'
          exact nomatch hk.symm.trans hk'
        · simp only [enqueueRun, Heap.subscribe_outcomes]
      · rw [heq]
        refine hs.call (Nat.lt_succ_self _) (Nat.le_succ _) ?_ ?_ ?_ ?_ ?_
        · intro k' p h
          by_cases hkk : k' = k
          · subst hkk
            change Function.update s.inFlight k' (some (.result s.queued)) k' = some p at h
            rw [Function.update_self, Option.some.injEq] at h
            subst h
            exact .inr ⟨hk, rfl, Heap.subscribe_reactions.mem_iff.mpr List.mem_cons_self⟩
          · exact .inl ((Function.update_of_ne hkk ..).symm.trans h)
        · intro k' p h
          have hkk : k' ≠ k := by
            rintro rfl
            exact nomatch hinFlight.symm.trans h
          exact (Function.update_of_ne hkk ..).trans h
        · intro k' hk'
          cases hk.symm.trans hk'
          exact Function.update_self ..
        · intro r hr
          exact Heap.subscribe_reactions.mem_iff.mpr (List.mem_cons_of_mem _ (hqueuedRun r hr))
        · simp only [enqueueRun, Heap.subscribe_outcomes]
  | job h =>
      obtain ⟨job, jobs, hrunning, hjobs, hcases⟩ := nextJob_cases h
      have hfirst : job ∈ s.heap.jobs := hjobs ▸ List.mem_cons_self
      -- a release that the job does not run is still to be run
      have hpop : ∀ k p d, Reaction.call (.release k p) d ∈ s.heap.reactions →
          Reaction.call (.release k p) d = job.reaction ∨
            Reaction.call (.release k p) d ∈ Heap.reactions { s.heap with jobs } := by
        intro k p d hr
        rw [Heap.reactions_of_jobs hjobs] at hr
        exact List.mem_cons.mp hr
      rcases hcases with ⟨c, d, o, rfl, rfl, rfl⟩ | ⟨d, o, rfl, rfl, rfl⟩ |
        ⟨k, result, d, o, rfl, rfl, rfl⟩ | ⟨d, o, rfl, rfl, rfl⟩ | ⟨p, d, rfl, rfl, rfl⟩
      · refine hs.quiet nofun rfl rfl (fun k p d hr => ?_) fun _ _ h => h
        exact (hpop k p d hr).resolve_left nofun
      · refine hs.quiet nofun rfl rfl (fun k p d hr => ?_) fun _ _ h =>
          Heap.settle_outcomes_of_some h
        exact Heap.settle_reactions.mem_iff.mpr ((hpop k p d hr).resolve_left nofun)
      · obtain ⟨p, ⟨hp, c, rfl, rfl⟩, ho⟩ := hw.causal.linked.react _ _ hfirst
        subst hp
        exact hs.released hjobs ho
      · refine hs.quiet nofun rfl rfl (fun k p d hr => ?_) fun _ _ h =>
          Heap.settle_outcomes_of_some h
        exact Heap.settle_reactions.mem_iff.mpr ((hpop k p d hr).resolve_left nofun)
      · refine hs.quiet nofun rfl rfl (fun k p d hr => ?_) fun q o hq => ?_
        · apply Heap.subscribe_reactions.mem_iff.mpr
          exact List.mem_cons_of_mem _ ((hpop k p d hr).resolve_left nofun)
        · rw [Heap.subscribe_outcomes]
          exact hq
  | finish hvisible h =>
      obtain ⟨derived, hrunning, rfl⟩ := finish_cases h
      refine hs.quiet nofun rfl rfl (fun k p d hr => ?_) fun _ _ h => resolve_outcomes h
      exact resolve_reactions hr
  | foreign f outcome =>
      refine hs.quiet nofun rfl rfl (fun k p d hr => ?_) fun _ _ h => Heap.settle_outcomes_of_some h
      exact Heap.settle_reactions.mem_iff.mpr hr

/-! ## The jobs that are left -/

def WalletEvent.isJob : WalletEvent α → Bool
  | .begun _ | .job => true
  | _ => false

/-- A run costs its own job, the adoption of its promise and the outcome that is passed on. -/
def jobCost : Reaction PromiseId Handler → Nat
  | .call .. => 3
  | .pass _ => 1

/-- The jobs that may still follow before the wallet or a caller does something. -/
def WalletGateway.jobsLeft (s : WalletGateway α) : Nat :=
  s.heap.load jobCost + if s.running.isSome then 2 else 0

theorem load_resolve {h : WalletHeap α} {c : Nat}
    {completion : Completion PromiseId (WalletValue α)} :
    (h.resolve .typeError (.result c) completion).load jobCost ≤ h.load jobCost + 2 := by
  cases completion with
  | value v => exact Nat.le_add_right_of_le (Nat.le_of_eq Heap.load_settle)
  | thrown reason => exact Nat.le_add_right_of_le (Nat.le_of_eq Heap.load_settle)
  | promise p =>
      simp only [Heap.resolve]
      split
      · exact Nat.le_add_right_of_le (Nat.le_of_eq Heap.load_settle)
      · exact Nat.le_of_eq Heap.load_enqueue

theorem load_enqueueRun : s.enqueueRun.heap.load jobCost = s.heap.load jobCost + 6 := by
  simp only [enqueueRun, Heap.load_subscribe, jobCost]

/-- Every job uses up what a queued run has brought. -/
theorem jobsLeft_step {e : WalletEvent α} (hw : Wired history s) (h : Step s e s') :
    (if e.isJob then 1 else 0) + s'.jobsLeft + 9 * s.queued ≤ s.jobsLeft + 9 * s'.queued := by
  cases h with
  | call key =>
      rcases s.walletRequest_cases key with ⟨k, existing, -, -, heq⟩ | ⟨-, heq⟩ | ⟨k, -, -, heq⟩
      · rw [heq]
        simp only [WalletEvent.isJob, Bool.false_eq_true, if_false, Nat.zero_add, Nat.le_refl]
      · rw [heq]
        change 0 + (s.enqueueRun.heap.load jobCost + _) + 9 * s.queued ≤
          s.heap.load jobCost + (if s.running.isSome then 2 else 0) + 9 * (s.queued + 1)
        rw [load_enqueueRun]
        change 0 + (_ + 6 + if s.running.isSome then 2 else 0) + 9 * s.queued ≤ _
        omega
      · rw [heq]
        change 0 + (Heap.load jobCost (s.enqueueRun.heap.subscribe _ _) + _) + 9 * s.queued ≤
          s.heap.load jobCost + (if s.running.isSome then 2 else 0) + 9 * (s.queued + 1)
        rw [Heap.load_subscribe, load_enqueueRun]
        change 0 + (_ + 6 + 3 + if s.running.isSome then 2 else 0) + 9 * s.queued ≤ _
        omega
  | job h =>
      obtain ⟨job, jobs, hrunning, hjobs, hcases⟩ := nextJob_cases h
      have hload : s.heap.load jobCost = _ := Heap.load_of_jobs hjobs
      rcases hcases with ⟨c, d, o, rfl, rfl, rfl⟩ | ⟨d, o, rfl, rfl, rfl⟩ |
        ⟨k, result, d, o, rfl, rfl, rfl⟩ | ⟨d, o, rfl, rfl, rfl⟩ | ⟨p, d, rfl, rfl, rfl⟩ <;>
        simp only [jobsLeft, WalletEvent.isJob, hload, hrunning, release_running, release_queued,
          Heap.load_settle, Heap.load_subscribe, Job.reaction, Job.adopts, jobCost, Option.isSome,
          Bool.false_eq_true, if_true, if_false] <;>
        omega
  | @finish _ c completion hvisible h =>
      obtain ⟨derived, hrunning, rfl⟩ := finish_cases h
      cases hw.running _ _ hrunning
      have hload := @load_resolve _ s.heap c completion
      simp only [jobsLeft, WalletEvent.isJob, hrunning, Option.isSome, Bool.false_eq_true, if_true,
        if_false]
      exact Nat.add_le_add_right (Nat.le_trans (by omega) hload) _
  | foreign f outcome =>
      simp only [jobsLeft, WalletEvent.isJob, Heap.load_settle, Bool.false_eq_true, if_false,
        Nat.zero_add, Nat.le_refl]

/-! ## Every run of the gateway -/

/-- No job is left, and no run is on the stack. -/
def WalletGateway.Idle (s : WalletGateway α) : Prop := s.running = none ∧ s.heap.jobs = []

/-- What the callers of `walletRequest` rely on. -/
structure Serialized (history : WalletHistory α) (s : WalletGateway α) : Prop where
  /-- A run begins once, when all that were queued before it have begun and settled. -/
  inOrder : ∀ c s', Step s (.begun c) s' → .begun c ∉ history ∧ c < s.queued ∧
    ∀ b < c, .begun b ∈ history ∧ ∃ o, RunSettled history s.heap b o
  /-- A call without a key queues a run of its own. -/
  unkeyed : ∀ key, requestKey key = none →
    (∃ s', s.walletRequest key = (.result s.queued, s') ∧ s'.queued = s.queued + 1) ∧
      ∀ other, .called other (.result s.queued) ∉ history
  /-- A call rides along while a request of its key is pending. -/
  joined : ∀ key other k c, requestKey key = some k → requestKey other = some k →
    .called other (.result c) ∈ history → s.heap.outcomes (.result c) = none →
      s.walletRequest key = (.result c, s)
  /-- A call queues a run of its own once its key has been released. -/
  released : ∀ key k, requestKey key = some k → s.inFlight k = none →
    (∃ s', s.walletRequest key = (.result s.queued, s') ∧ s'.queued = s.queued + 1) ∧
      ∀ other, .called other (.result s.queued) ∉ history
  /-- The callers of a run receive what it has settled with. -/
  received : ∀ c o, s.heap.outcomes (.result c) = some o → RunSettled history s.heap c o
  /-- A run begins, and its callers hear of it, if those begun before it settle. -/
  answered : s.Idle → ∀ c < s.queued,
    (∀ b ≤ c, .begun b ∈ history → ∃ o, RunSettled history s.heap b o) →
      .begun c ∈ history ∧ ∃ o, s.heap.outcomes (.result c) = some o
  /-- A key is released once its request has settled. -/
  freed : s.Idle → ∀ k p, s.inFlight k = some p → s.heap.outcomes p = none
  /-- The gateway comes to rest. -/
  drained : history.countP WalletEvent.isJob ≤ 9 * s.queued

theorem Keyed.fresh (hs : Keyed history s) (other : Option JsString) :
    .called other (.result s.queued) ∉ history := by
  intro h
  obtain ⟨c, hc, heq⟩ := hs.known other _ h
  cases heq
  exact Nat.lt_irrefl _ hc

/-- With no job left, a pending result is that of a run that has come back with a promise that
is pending, or the tail before its run is. -/
theorem InOrder.answered (ho : InOrder history s) (hw : Wired history s) (hn : s.NothingLost)
    (hidle : s.Idle) (c : Nat) (hc : c < s.queued)
    (hsettled : ∀ b ≤ c, .begun b ∈ history → ∃ o, RunSettled history s.heap b o) :
    ∃ o, s.heap.outcomes (.result c) = some o := by
  have hactive : s.active = none := by rw [active, hidle.1, Option.map_none]
  induction c using Nat.strongRecOn with
  | ind c ih =>
      have htail : ∃ o, s.heap.outcomes (tailBefore c) = some o := by
        cases c with
        | zero => exact hw.causal.initial
        | succ b =>
            obtain ⟨o, ho⟩ := ih b (Nat.lt_succ_self b) (Nat.lt_of_succ_lt hc)
              fun b' hb' => hsettled b' (Nat.le_succ_of_le hb')
            rcases (hn b (Nat.lt_of_succ_lt hc)).2 with h | ⟨r, hr, hd⟩ | h
            · exact h
            · obtain ⟨p, hlink, hnone⟩ := hw.causal.linked.owed hidle.2 hr
              -- the tail waits for the result of its own run
              cases r with
              | pass derived =>
                  obtain ⟨c', rfl, -⟩ := hlink
                  exact nomatch hd
              | call handler derived =>
                  cases handler with
                  | run c' => exact nomatch hlink.1.symm.trans hd
                  | settled =>
                      obtain ⟨c', rfl, rfl⟩ := hlink
                      cases hd
                      exact nomatch hnone.symm.trans ho
                  | release k result =>
                      obtain ⟨-, c', -, rfl⟩ := hlink
                      exact nomatch hd
            · exact nomatch hactive.symm.trans h
      obtain ⟨o, ho'⟩ := htail
      rcases (hn c hc).1 with h | ⟨r, hr, hd⟩ | h
      · exact h
      · obtain ⟨p, hlink, hnone⟩ := hw.causal.linked.owed hidle.2 hr
        cases r with
        | pass derived =>
            obtain ⟨c', rfl, hmem⟩ := hlink
            cases hd
            -- the run has come back with the promise that it waits for
            obtain ⟨o', completion, hmem', ho'⟩ :=
              hsettled c (Nat.le_refl c) (ho.finished c _ hmem)
            cases ho.once c _ _ hmem hmem'
            exact nomatch hnone.symm.trans ho'
        | call handler derived =>
            cases handler with
            | run c' =>
                obtain ⟨rfl, rfl⟩ := hlink
                cases hd
                exact nomatch hnone.symm.trans ho'
            | settled =>
                obtain ⟨c', rfl, -⟩ := hlink
                exact nomatch hd
            | release k result =>
                obtain ⟨-, c', -, rfl⟩ := hlink
                exact nomatch hd
      · exact nomatch hactive.symm.trans h

theorem Keyed.freed (hs : Keyed history s) (hw : Wired history s) (hidle : s.Idle) (k : JsString)
    (p : PromiseId) (h : s.inFlight k = some p) : s.heap.outcomes p = none := by
  obtain ⟨c, -, -, hr⟩ := hs.release k p h
  obtain ⟨q, ⟨hq, -⟩, hnone⟩ := hw.causal.linked.owed hidle.2 hr
  exact hq ▸ hnone

/-- What holds in every run. -/
structure Sound (history : WalletHistory α) (s : WalletGateway α) : Prop where
  wired : Wired history s
  nothingLost : s.NothingLost
  inOrder : InOrder history s
  keyed : Keyed history s
  drained : history.countP WalletEvent.isJob + s.jobsLeft ≤ 9 * s.queued

theorem sound_initial : Sound [] (initial α) :=
  ⟨wired_initial, fun c hc => absurd hc (Nat.not_lt_zero c), inOrder_initial, keyed_initial,
    Nat.le_refl 0⟩

theorem Sound.step {e : WalletEvent α} (hs : Sound history s) (h : Step s e s') :
    Sound (e :: history) s' := by
  refine ⟨hs.wired.step h, hs.nothingLost.step h, hs.inOrder.step hs.wired h,
    hs.keyed.step hs.wired h, ?_⟩
  have hdrained := hs.drained
  have hstep := jobsLeft_step hs.wired h
  rw [List.countP_cons]
  omega

theorem Sound.begun (hs : Sound history s) {c : Nat} (h : Step s (.begun c) s') :
    .begun c ∉ history ∧ c < s.queued ∧
      ∀ b < c, .begun b ∈ history ∧ ∃ o, RunSettled history s.heap b o := by
  cases h with
  | job h =>
      obtain ⟨job, jobs, hrunning, hjobs, hcases⟩ := nextJob_cases h
      have hfirst : job ∈ s.heap.jobs := hjobs ▸ List.mem_cons_self
      rcases hcases with ⟨c', d, o, rfl, heq, -⟩ | ⟨d, o, -, heq, -⟩ | ⟨k, result, d, o, -, heq, -⟩ |
        ⟨d, o, -, heq, -⟩ | ⟨p, d, -, heq, -⟩
      · cases heq
        obtain ⟨p, ⟨rfl, rfl⟩, ho⟩ := hs.wired.causal.linked.react _ _ hfirst
        have hrun : c ∈ s.heap.runs := by
          unfold WalletHeap.runs
          rw [Heap.reactions_of_jobs hjobs]
          exact List.mem_filterMap.mpr ⟨_, List.mem_cons_self, rfl⟩
        obtain ⟨hnot, hc, hbegun⟩ := hs.inOrder.next hs.wired.causal hrun ho
        exact ⟨hnot, hc, hs.inOrder.settled hs.wired.causal hbegun ho⟩
      · exact nomatch heq
      · exact nomatch heq
      · exact nomatch heq
      · exact nomatch heq

theorem Sound.serialized (hs : Sound history s) : Serialized history s := by
  refine ⟨fun c s' h => hs.begun h, fun key hkey => ⟨?_, hs.keyed.fresh⟩, ?_,
    fun key k hkey hnone => ⟨?_, hs.keyed.fresh⟩, hs.wired.causal.result,
    fun hidle c hc hsettled => ?_, hs.keyed.freed hs.wired,
    Nat.le_trans (Nat.le_add_right ..) hs.drained⟩
  · refine ⟨s.enqueueRun, ?_, rfl⟩
    unfold walletRequest
    rw [hkey]
  · intro key other k c hkey hother hmem hnone
    have hinFlight := hs.keyed.pending other k c hmem hother hnone
    unfold walletRequest
    rw [hkey]
    dsimp only
    rw [hinFlight]
  · unfold walletRequest
    rw [hkey]
    dsimp only
    rw [hnone]
    exact ⟨_, rfl, rfl⟩
  · obtain ⟨o, ho⟩ := hs.inOrder.answered hs.wired hs.nothingLost hidle c hc hsettled
    obtain ⟨completion, hmem, -⟩ := hs.wired.causal.result c o ho
    exact ⟨hs.inOrder.finished c completion hmem, o, ho⟩

end Manager

section
open Manager WalletGateway

/-- Whatever the wallet and the callers do, the requests are served one at a time. -/
theorem wallet_requests_serialized {α : Type} {history : WalletHistory α} {s : WalletGateway α}
    (run : Run Step (initial α) history s) : Serialized history s :=
  (run.invariant (I := Sound) sound_initial fun _ hs h => hs.step h).serialized

/-- The account is read, a signature is asked for, and the account is read again while the first
read is pending: it rides along. That read fails, and its key is released: the next read is
queued behind the signature. -/
def sharedRead : WalletHistory Nat :=
  let read := some (Sdk.text "get-account")
  [ .begun 2, .job, .finished 1 (.value (.other 7)), .begun 1, .called read (.result 2), .job, .job,
    .finished 0 (.thrown (.other 1)), .begun 0, .called read (.result 0), .called none (.result 1),
    .called read (.result 0) ]

theorem shared_read_serialized :
    ∃ s, Run Step (initial Nat) sharedRead s ∧ Serialized sharedRead s := by
  have run : ∃ s, Run Step (initial Nat) sharedRead s :=
    ⟨_, (Run.refl : Run Step (initial Nat) [] _)
      |>.step (.call _ (some (Sdk.text "get-account"))) |>.step (.call _ none)
      |>.step (.call _ (some (Sdk.text "get-account"))) |>.step (.job rfl)
      |>.step (.finish (show Visible _ (.thrown (.other 1)) from trivial) rfl)
      |>.step (.job rfl) |>.step (.job rfl)
      |>.step (.call _ (some (Sdk.text "get-account"))) |>.step (.job rfl)
      |>.step (.finish (show Visible _ (.value (.other 7)) from trivial) rfl)
      |>.step (.job rfl) |>.step (.job rfl)⟩
  obtain ⟨s, run⟩ := run
  exact ⟨s, run, wallet_requests_serialized run⟩

end

end ArchNameService
