import Mathlib.Data.List.Basic
import Mathlib.Algebra.BigOperators.Group.List.Basic
import Mathlib.Algebra.Ring.Nat
import Mathlib.Logic.Function.Basic

/-!
# Promises and the jobs of an event loop

The promises that have settled, the reactions that wait for the others, and the
queue of jobs. A reaction calls a handler and settles the promise that its `then`
returned, or passes an outcome on to a promise that was resolved with another one.
A reaction is never lost and never doubled: settling moves it from the waiting
list to the jobs.
-/

namespace Promises

/-- How a promise has settled. -/
inductive Settled (α : Type) where
  | fulfilled (value : α)
  | rejected (reason : α)

/-- What waits for a promise. The promise that `pass` would itself derive is seen by nobody. -/
inductive Reaction (ι κ : Type) where
  | call (handler : κ) (derived : ι)
  | pass (derived : ι)

inductive Job (ι κ α : Type) where
  | react (reaction : Reaction ι κ) (outcome : Settled α)
  | adopt (source derived : ι)

/-- What a handler comes back with. -/
inductive Completion (ι α : Type) where
  | value (v : α)
  | promise (p : ι)
  | thrown (reason : α)

structure Heap (ι κ α : Type) where
  outcomes : ι → Option (Settled α)
  waiting : List (ι × Reaction ι κ)
  jobs : List (Job ι κ α)

variable {ι κ α : Type}

def Reaction.derived : Reaction ι κ → ι
  | .call _ derived => derived
  | .pass derived => derived

/-- The reaction that a job runs, or will attach. -/
def Job.reaction : Job ι κ α → Reaction ι κ
  | .react reaction _ => reaction
  | .adopt _ derived => .pass derived

def Job.adopts : Job ι κ α → Bool
  | .react .. => false
  | .adopt .. => true

namespace Heap

/-- `p.then` with the reaction. -/
def subscribe (h : Heap ι κ α) (p : ι) (reaction : Reaction ι κ) : Heap ι κ α :=
  match h.outcomes p with
  | some outcome => { h with jobs := h.jobs ++ [.react reaction outcome] }
  | none => { h with waiting := h.waiting ++ [(p, reaction)] }

variable [DecidableEq ι]

/-- A promise settles once, and queues its reactions in their order. -/
def settle (h : Heap ι κ α) (p : ι) (outcome : Settled α) : Heap ι κ α :=
  match h.outcomes p with
  | some _ => h
  | none =>
      { outcomes := Function.update h.outcomes p (some outcome)
        waiting := h.waiting.filter fun w => !decide (w.1 = p)
        jobs := h.jobs ++
          (h.waiting.filter fun w => decide (w.1 = p)).map fun w => .react w.2 outcome }

/-- A promise is resolved with what a handler came back with, `cycle` where that is itself. -/
def resolve (cycle : α) (h : Heap ι κ α) (derived : ι) : Completion ι α → Heap ι κ α
  | .value v => h.settle derived (.fulfilled v)
  | .thrown reason => h.settle derived (.rejected reason)
  | .promise p =>
      if p = derived then h.settle derived (.rejected cycle)
      else { h with jobs := h.jobs ++ [.adopt p derived] }

/-- All reactions that are yet to run. -/
def reactions (h : Heap ι κ α) : List (Reaction ι κ) :=
  h.jobs.map Job.reaction ++ h.waiting.map Prod.snd

/-- Something is still to settle the promise. -/
def Owed (h : Heap ι κ α) (p : ι) : Prop := ∃ r ∈ h.reactions, r.derived = p

variable {h : Heap ι κ α} {p q : ι} {outcome : Settled α} {reaction : Reaction ι κ}

/-! ## What settles -/

theorem settle_outcomes_of_ne (hne : q ≠ p) : (h.settle p outcome).outcomes q = h.outcomes q := by
  unfold settle
  split
  · rfl
  · exact Function.update_of_ne hne ..

theorem settle_outcomes_self (hp : h.outcomes p = none) :
    (h.settle p outcome).outcomes p = some outcome := by
  simp only [settle, hp, Function.update_self]

/-- A settled promise keeps its outcome. -/
theorem settle_outcomes_of_some {o : Settled α} (hq : h.outcomes q = some o) :
    (h.settle p outcome).outcomes q = some o := by
  unfold settle
  split
  · exact hq
  · rename_i hp
    rw [← hq]
    apply Function.update_of_ne
    rintro rfl
    exact nomatch hp.symm.trans hq

theorem settle_isSome_self : ∃ o, (h.settle p outcome).outcomes p = some o := by
  cases hp : h.outcomes p with
  | some o => exact ⟨o, settle_outcomes_of_some hp⟩
  | none => exact ⟨outcome, settle_outcomes_self hp⟩

/-- What has settled had settled before, or was pending and is the promise just settled. -/
theorem settle_outcomes_cases {o : Settled α} (hq : (h.settle p outcome).outcomes q = some o) :
    h.outcomes q = some o ∨ q = p ∧ o = outcome := by
  by_cases hqp : q = p
  · subst hqp
    cases hold : h.outcomes q with
    | some o' =>
        rw [settle_outcomes_of_some hold] at hq
        exact .inl hq
    | none =>
        rw [settle_outcomes_self hold, Option.some.injEq] at hq
        exact .inr ⟨rfl, hq.symm⟩
  · rw [settle_outcomes_of_ne hqp] at hq
    exact .inl hq

omit [DecidableEq ι] in
@[simp] theorem subscribe_outcomes : (h.subscribe p reaction).outcomes = h.outcomes := by
  unfold subscribe
  split <;> rfl

/-! ## No reaction is lost or doubled -/

theorem settle_reactions : (h.settle p outcome).reactions.Perm h.reactions := by
  unfold settle
  split
  · exact .refl _
  · simp only [reactions, List.map_append, List.map_map, List.append_assoc]
    apply List.Perm.append_left
    -- the jobs that are queued and the reactions that still wait are those that waited before
    have hwaiting := (List.filter_append_perm (fun w => decide (w.1 = p)) h.waiting).map Prod.snd
    rw [List.map_append] at hwaiting
    exact hwaiting

omit [DecidableEq ι] in
theorem subscribe_reactions :
    (h.subscribe p reaction).reactions.Perm (reaction :: h.reactions) := by
  unfold subscribe
  split
  · simp only [reactions, List.map_append, List.map_cons, List.map_nil, List.append_assoc,
      List.singleton_append, Job.reaction]
    exact List.perm_middle
  · simp only [reactions, List.map_append, List.map_cons, List.map_nil]
    rw [← List.append_assoc]
    exact List.perm_append_singleton ..

omit [DecidableEq ι] in
theorem enqueue_reactions {job : Job ι κ α} :
    { h with jobs := h.jobs ++ [job] }.reactions.Perm (job.reaction :: h.reactions) := by
  simp only [reactions, List.map_append, List.map_cons, List.map_nil, List.append_assoc,
    List.singleton_append]
  exact List.perm_middle

omit [DecidableEq ι] in
/-- The first job is taken off the queue. -/
theorem reactions_of_jobs {job : Job ι κ α} {jobs : List (Job ι κ α)} (hjobs : h.jobs = job :: jobs) :
    h.reactions = job.reaction :: { h with jobs }.reactions := by
  simp only [reactions, hjobs, List.map_cons, List.cons_append]

/-! ## Where reactions come from -/

/-- Reactions wait for pending promises that they may be attached to, and run with the outcome
of such a promise. -/
structure Linked (Link : Reaction ι κ → ι → Prop) (h : Heap ι κ α) : Prop where
  waiting : ∀ p r, (p, r) ∈ h.waiting → Link r p ∧ h.outcomes p = none
  react : ∀ r o, Job.react r o ∈ h.jobs → ∃ p, Link r p ∧ h.outcomes p = some o
  adopt : ∀ p d, Job.adopt p d ∈ h.jobs → Link (.pass d) p

variable {Link Link' : Reaction ι κ → ι → Prop}

omit [DecidableEq ι] in
theorem Linked.mono (hh : h.Linked Link) (hlink : ∀ r p, Link r p → Link' r p) : h.Linked Link' := by
  refine ⟨fun p r hr => ?_, fun r o hr => ?_, fun p d hd => hlink _ _ (hh.adopt p d hd)⟩
  · exact ⟨hlink r p (hh.waiting p r hr).1, (hh.waiting p r hr).2⟩
  · obtain ⟨p, hp, ho⟩ := hh.react r o hr
    exact ⟨p, hlink r p hp, ho⟩

theorem Linked.settle (hh : h.Linked Link) (p : ι) (outcome : Settled α) :
    (h.settle p outcome).Linked Link := by
  cases hp : h.outcomes p with
  | some o =>
      simp only [Heap.settle, hp]
      exact hh
  | none =>
      have hkeep : ∀ q o, h.outcomes q = some o → (h.settle p outcome).outcomes q = some o :=
        fun q o hq => settle_outcomes_of_some hq
      have hself : (h.settle p outcome).outcomes p = some outcome := settle_outcomes_self hp
      have hne : ∀ q, q ≠ p → (h.settle p outcome).outcomes q = h.outcomes q :=
        fun q hq => settle_outcomes_of_ne hq
      refine ⟨fun q r hr => ?_, fun r o hr => ?_, fun q d hd => ?_⟩
      · simp only [Heap.settle, hp, List.mem_filter, Bool.not_eq_true', decide_eq_false_iff_not] at hr
        rw [hne q hr.2]
        exact hh.waiting q r hr.1
      · simp only [Heap.settle, hp, List.mem_append, List.mem_map, List.mem_filter,
          decide_eq_true_eq] at hr
        rcases hr with hr | ⟨⟨q, r'⟩, ⟨hmem, hq⟩, heq⟩
        · obtain ⟨q, hlink, ho⟩ := hh.react r o hr
          exact ⟨q, hlink, hkeep q o ho⟩
        · dsimp only at hq heq
          cases heq
          subst hq
          exact ⟨q, (hh.waiting q r hmem).1, hself⟩
      · simp only [Heap.settle, hp, List.mem_append, List.mem_map, reduceCtorEq, and_false,
          exists_false, or_false] at hd
        exact hh.adopt q d hd

omit [DecidableEq ι] in
theorem Linked.subscribe (hh : h.Linked Link) (hlink : Link reaction p) :
    (h.subscribe p reaction).Linked Link := by
  unfold Heap.subscribe
  cases hp : h.outcomes p with
  | some o =>
      refine ⟨hh.waiting, fun r o' hr => ?_, fun q d hd => ?_⟩
      · rcases List.mem_append.mp hr with hr | hr
        · exact hh.react r o' hr
        · cases List.mem_singleton.mp hr
          exact ⟨p, hlink, hp⟩
      · rcases List.mem_append.mp hd with hd | hd
        · exact hh.adopt q d hd
        · exact nomatch List.mem_singleton.mp hd
  | none =>
      refine ⟨fun q r hr => ?_, hh.react, hh.adopt⟩
      rcases List.mem_append.mp hr with hr | hr
      · exact hh.waiting q r hr
      · cases List.mem_singleton.mp hr
        exact ⟨hlink, hp⟩

omit [DecidableEq ι] in
theorem Linked.enqueue (hh : h.Linked Link) {d : ι} (hlink : Link (.pass d) p) :
    Linked Link { h with jobs := h.jobs ++ [.adopt p d] } := by
  refine ⟨hh.waiting, fun r o hr => ?_, fun q e he => ?_⟩
  · rcases List.mem_append.mp hr with hr | hr
    · exact hh.react r o hr
    · exact nomatch List.mem_singleton.mp hr
  · rcases List.mem_append.mp he with he | he
    · exact hh.adopt q e he
    · cases List.mem_singleton.mp he
      exact hlink

omit [DecidableEq ι] in
theorem Linked.pop (hh : h.Linked Link) {job : Job ι κ α} {jobs : List (Job ι κ α)}
    (hjobs : h.jobs = job :: jobs) : Linked Link { h with jobs } := by
  refine ⟨hh.waiting, fun r o hr => hh.react r o ?_, fun p d hd => hh.adopt p d ?_⟩
  · rw [hjobs]
    exact List.mem_cons_of_mem _ hr
  · rw [hjobs]
    exact List.mem_cons_of_mem _ hd

omit [DecidableEq ι] in
/-- With no job left, what is owed waits for a promise that is pending. -/
theorem Linked.owed (hh : h.Linked Link) (hjobs : h.jobs = []) {r : Reaction ι κ}
    (hr : r ∈ h.reactions) : ∃ q, Link r q ∧ h.outcomes q = none := by
  simp only [reactions, hjobs, List.map_nil, List.nil_append, List.mem_map] at hr
  obtain ⟨⟨q, r'⟩, hmem, rfl⟩ := hr
  exact ⟨q, hh.waiting q r' hmem⟩

/-! ## What is accounted for -/

/-- The promise has settled, or is owed by a reaction or by the handler that runs. -/
def Accounted (h : Heap ι κ α) (active : Option ι) (p : ι) : Prop :=
  (∃ outcome, h.outcomes p = some outcome) ∨ h.Owed p ∨ active = some p

variable {active : Option ι}

omit [DecidableEq ι] in
theorem Owed.of_perm {h' : Heap ι κ α} (hperm : h'.reactions.Perm h.reactions) (hp : h.Owed p) :
    h'.Owed p := by
  obtain ⟨r, hr, hd⟩ := hp
  exact ⟨r, hperm.mem_iff.mpr hr, hd⟩

omit [DecidableEq ι] in
theorem Owed.of_perm_cons {h' : Heap ι κ α} (hperm : h'.reactions.Perm (reaction :: h.reactions))
    (hp : h.Owed p) : h'.Owed p := by
  obtain ⟨r, hr, hd⟩ := hp
  exact ⟨r, hperm.mem_iff.mpr (List.mem_cons_of_mem _ hr), hd⟩

theorem Accounted.settle (hp : h.Accounted active p) (q : ι) (outcome : Settled α) :
    (h.settle q outcome).Accounted active p := by
  rcases hp with ⟨o, ho⟩ | hp | hp
  · exact .inl ⟨o, settle_outcomes_of_some ho⟩
  · exact .inr (.inl (hp.of_perm settle_reactions))
  · exact .inr (.inr hp)

/-- The handler that runs has settled its promise. -/
theorem Accounted.settled {d : ι} (hp : h.Accounted (some d) p) (outcome : Settled α) :
    (h.settle d outcome).Accounted none p := by
  rcases hp.settle d outcome with hp | hp | hp
  · exact .inl hp
  · exact .inr (.inl hp)
  · cases hp
    exact .inl settle_isSome_self

omit [DecidableEq ι] in
theorem Accounted.subscribe (hp : h.Accounted active p) (q : ι) (reaction : Reaction ι κ) :
    (h.subscribe q reaction).Accounted active p := by
  rcases hp with ⟨o, ho⟩ | hp | hp
  · exact .inl ⟨o, by rw [subscribe_outcomes, ho]⟩
  · exact .inr (.inl (hp.of_perm_cons subscribe_reactions))
  · exact .inr (.inr hp)

omit [DecidableEq ι] in
theorem accounted_subscribe (q : ι) (reaction : Reaction ι κ) :
    (h.subscribe q reaction).Accounted active reaction.derived :=
  .inr (.inl ⟨reaction, subscribe_reactions.mem_iff.mpr List.mem_cons_self, rfl⟩)

omit [DecidableEq ι] in
/-- The handler that runs leaves its promise to a reaction. -/
theorem Accounted.deferred {d : ι} (hp : h.Accounted (some d) p) {h' : Heap ι κ α}
    (houtcomes : h'.outcomes = h.outcomes) (hreaction : reaction.derived = d)
    (hperm : h'.reactions.Perm (reaction :: h.reactions)) : h'.Accounted none p := by
  rcases hp with ⟨o, ho⟩ | hp | hp
  · exact .inl ⟨o, houtcomes ▸ ho⟩
  · exact .inr (.inl (hp.of_perm_cons hperm))
  · cases hp
    exact .inr (.inl ⟨reaction, hperm.mem_iff.mpr List.mem_cons_self, hreaction⟩)

theorem Accounted.resolve {d : ι} (hp : h.Accounted (some d) p) (cycle : α)
    (completion : Completion ι α) : (h.resolve cycle d completion).Accounted none p := by
  cases completion with
  | value v => exact hp.settled _
  | thrown reason => exact hp.settled _
  | promise q =>
      simp only [Heap.resolve]
      split
      · exact hp.settled _
      · exact hp.deferred rfl rfl enqueue_reactions

omit [DecidableEq ι] in
theorem Accounted.pop (hp : h.Accounted none p) {job : Job ι κ α} {jobs : List (Job ι κ α)}
    (hjobs : h.jobs = job :: jobs) :
    Heap.Accounted { h with jobs } (some job.reaction.derived) p := by
  rcases hp with hp | ⟨r, hr, hd⟩ | hp
  · exact .inl hp
  · rw [reactions_of_jobs hjobs] at hr
    rcases List.mem_cons.mp hr with rfl | hr
    · exact .inr (.inr (congrArg some hd))
    · exact .inr (.inl ⟨r, hr, hd⟩)
  · exact nomatch hp

/-! ## How many jobs are left -/

/-- What the reactions that are yet to run cost, and the adoptions. -/
def load (cost : Reaction ι κ → Nat) (h : Heap ι κ α) : Nat :=
  (h.reactions.map cost).sum + h.jobs.countP Job.adopts

variable {cost : Reaction ι κ → Nat}

theorem load_settle : (h.settle p outcome).load cost = h.load cost := by
  have hadopts : (h.settle p outcome).jobs.countP Job.adopts = h.jobs.countP Job.adopts := by
    unfold settle
    split
    · rfl
    · rw [List.countP_append, List.countP_map, Nat.add_eq_left, List.countP_eq_zero]
      intro w _
      exact Bool.false_ne_true
  rw [load, load, hadopts, (settle_reactions.map cost).sum_eq]

omit [DecidableEq ι] in
theorem load_subscribe : (h.subscribe p reaction).load cost = h.load cost + cost reaction := by
  have hadopts : (h.subscribe p reaction).jobs.countP Job.adopts = h.jobs.countP Job.adopts := by
    unfold subscribe
    split
    · rw [List.countP_append, Nat.add_eq_left, List.countP_eq_zero]
      intro w hw
      rw [List.mem_singleton.mp hw]
      exact Bool.false_ne_true
    · rfl
  rw [load, load, hadopts, (subscribe_reactions.map cost).sum_eq, List.map_cons, List.sum_cons]
  omega

omit [DecidableEq ι] in
theorem load_enqueue {d : ι} :
    Heap.load cost { h with jobs := h.jobs ++ [.adopt p d] } = h.load cost + cost (.pass d) + 1 := by
  rw [load, load, (enqueue_reactions.map cost).sum_eq, List.map_cons, List.sum_cons,
    List.countP_append]
  change cost (.pass d) + _ + (_ + 1) = _
  omega

omit [DecidableEq ι] in
theorem load_of_jobs {job : Job ι κ α} {jobs : List (Job ι κ α)} (hjobs : h.jobs = job :: jobs) :
    h.load cost = Heap.load cost { h with jobs } + cost job.reaction + if job.adopts then 1 else 0 := by
  rw [load, load, reactions_of_jobs hjobs, List.map_cons, List.sum_cons, hjobs, List.countP_cons]
  dsimp only
  omega

end Heap

end Promises
