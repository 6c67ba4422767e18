import ArchNameService.Lib.History
import ArchNameService.Lib.Promises
import ArchNameService.Sdk.Derive

/-!
# The wallet gateway

`wallet-gateway.ts`: the queue of requests to the wallet and the map of keyed requests
in flight. The runs are numbered in the order in which they are queued. What the
wallet does with its own promises, and when callers call, is left open.
-/

namespace ArchNameService

namespace Manager
open JsString
open Promises

/-- The promises by the call that made them; `foreign` ones are the wallet's. -/
inductive PromiseId where
  | initial
  | result (c : Nat)
  | tail (c : Nat)
  | released (c : Nat)
  | foreign (f : Nat)
  deriving DecidableEq

/-- The closures that `walletRequest` hands to `then`. -/
inductive Handler where
  | run (c : Nat)
  | settled
  | release (key : JsString) (result : PromiseId)

inductive WalletValue (α : Type) where
  | undefined
  | typeError
  | other (a : α)

abbrev WalletHeap (α : Type) := Heap PromiseId Handler (WalletValue α)

structure WalletGateway (α : Type) where
  heap : WalletHeap α
  queue : PromiseId
  inFlight : JsString → Option PromiseId
  /-- The runs queued so far. -/
  queued : Nat
  /-- The run whose code is on the stack, with the promise that it is to settle. -/
  running : Option (Nat × PromiseId)

/-- What happens, in the order of the event loop. -/
inductive WalletEvent (α : Type) where
  | called (key : Option JsString) (promise : PromiseId)
  | begun (c : Nat)
  | finished (c : Nat) (completion : Completion PromiseId (WalletValue α))
  | job
  | foreignSettled (f : Nat) (outcome : Promises.Settled (WalletValue α))

/-- `if (key)`: neither `null` nor the empty string is a key. -/
def requestKey (key : Option JsString) : Option JsString :=
  key.filter fun key => !key.isEmpty

/-- The tail of the queue before the run. -/
def tailBefore : Nat → PromiseId
  | 0 => .initial
  | c + 1 => .tail c

namespace WalletGateway
variable {α : Type} (s : WalletGateway α)

def initial (α : Type) : WalletGateway α :=
  { heap :=
      { outcomes := Function.update (fun _ => none) .initial (some (.fulfilled .undefined))
        waiting := []
        jobs := [] }
    queue := .initial, inFlight := fun _ => none, queued := 0, running := none }

/-- `queue.then(run, run)`, and the new tail of the queue. -/
def enqueueRun : WalletGateway α :=
  let c := s.queued
  { s with
    heap := (s.heap.subscribe s.queue (.call (.run c) (.result c))).subscribe (.result c)
      (.call .settled (.tail c))
    queue := .tail c
    queued := c + 1 }

def walletRequest (key : Option JsString) : PromiseId × WalletGateway α :=
  match requestKey key with
  | none => (.result s.queued, s.enqueueRun)
  | some key =>
      match s.inFlight key with
      | some existing => (existing, s)
      | none =>
          let result := PromiseId.result s.queued
          let t := s.enqueueRun
          (result,
            { t with
              inFlight := Function.update t.inFlight key (some result)
              heap := t.heap.subscribe result (.call (.release key result) (.released s.queued)) })

/-- `if (inFlight.get(key) === result) inFlight.delete(key)`. -/
def release (key : JsString) (result : PromiseId) : WalletGateway α :=
  if s.inFlight key = some result then
    { s with inFlight := Function.update s.inFlight key none }
  else s

@[simp] theorem release_queued (key : JsString) (result : PromiseId) :
    (s.release key result).queued = s.queued := by
  unfold release
  split <;> rfl

@[simp] theorem release_running (key : JsString) (result : PromiseId) :
    (s.release key result).running = s.running := by
  unfold release
  split <;> rfl

@[simp] theorem release_queue (key : JsString) (result : PromiseId) :
    (s.release key result).queue = s.queue := by
  unfold release
  split <;> rfl

/-- The first job of the queue, where no run is on the stack. -/
def nextJob : Option (WalletEvent α × WalletGateway α) :=
  match s.running, s.heap.jobs with
  | none, job :: jobs =>
      let s := { s with heap := { s.heap with jobs } }
      match job with
      | .react (.call (.run c) derived) _ => some (.begun c, { s with running := some (c, derived) })
      | .react (.call .settled derived) _ =>
          some (.job, { s with heap := s.heap.settle derived (.fulfilled .undefined) })
      | .react (.call (.release key result) derived) _ =>
          some (.job,
            { s.release key result with heap := s.heap.settle derived (.fulfilled .undefined) })
      | .react (.pass derived) outcome =>
          some (.job, { s with heap := s.heap.settle derived outcome })
      | .adopt source derived =>
          some (.job, { s with heap := s.heap.subscribe source (.pass derived) })
  | _, _ => none

/-- The run on the stack returns or throws. -/
def finish (completion : Completion PromiseId (WalletValue α)) : Option (Nat × WalletGateway α) :=
  match s.running with
  | none => none
  | some (c, derived) =>
      some (c, { s with heap := s.heap.resolve .typeError derived completion, running := none })

/-- The wallet and the callers have their own promises, and those that `walletRequest` returned. -/
def Visible : Completion PromiseId (WalletValue α) → Prop
  | .promise (.foreign _) | .value _ | .thrown _ => True
  | .promise (.result c) => c < s.queued
  | .promise _ => False

/-- A call, also from within a run; a job, or a run coming back; or a promise of the wallet. -/
inductive Step : WalletGateway α → WalletEvent α → WalletGateway α → Prop
  | call (s : WalletGateway α) (key : Option JsString) :
      Step s (.called key (s.walletRequest key).1) (s.walletRequest key).2
  | job {s s' : WalletGateway α} {e : WalletEvent α} : s.nextJob = some (e, s') → Step s e s'
  | finish {s s' : WalletGateway α} {c : Nat} {completion : Completion PromiseId (WalletValue α)} :
      s.Visible completion → s.finish completion = some (c, s') → Step s (.finished c completion) s'
  | foreign (s : WalletGateway α) (f : Nat) (outcome : Promises.Settled (WalletValue α)) :
      Step s (.foreignSettled f outcome) { s with heap := s.heap.settle (.foreign f) outcome }

end WalletGateway

end Manager

end ArchNameService
