import Mathlib.Data.Rat.Floor
import ArchNameService.Lib.Hex
import ArchNameService.Lib.Outcome
import ArchNameService.Lib.Polling
import ArchNameService.Sdk.Builders

/-!
# Waiting for a transaction

`confirm.ts` and `runner.ts`: the wait for a transaction that was sent, and the run
of one instruction around it. What a probe or a lookup throws is known by its text.
Times, the clock's as well, are finite and exact numbers of milliseconds: rounding and
infinite waits are left out.
-/

namespace ArchNameService

namespace Sdk
open JsString

/-! ## The wait -/

def defaultConfirmTimeoutMs : ℚ := 90000

structure ProcessedTransaction where
  status : JsString
  error : Option JsString

/-- What a wait is asked, and what it is told: the answers to the polls, in order, and
`Date.now()` at the start and at the end of each poll. -/
structure Wait where
  txid : JsString
  isComplete : Option (Nat → Except JsString Bool)
  getProcessedTransaction : Nat → Except JsString (Option ProcessedTransaction)
  timeoutMs : Option ℚ
  intervalMs : Option ℚ
  start : ℚ
  now : Nat → ℚ

inductive ConfirmOutcome where
  | complete
  | timeout (lastLookupError : Option JsString)
  deriving DecidableEq

/-- How a wait ends: it returns, or it throws the failure of the transaction. -/
inductive WaitResult where
  | returns (outcome : ConfirmOutcome)
  | fails (message : JsString)
  deriving DecidableEq

structure WaitState where
  lastLookupError : Option JsString
  processed : Bool

namespace Wait
variable (w : Wait)

def timeout : ℚ := w.timeoutMs.getD defaultConfirmTimeoutMs
def interval : ℚ := w.intervalMs.getD 1000
def deadline : ℚ := w.start + w.timeout

/-- `/processed|confirmed|finalized/i`. -/
def isSettled (status : JsString) : Bool :=
  [text "processed", text "confirmed", text "finalized"].any fun word =>
    includes word (status.map lowerAscii)

def failureMessage (t : ProcessedTransaction) : JsString :=
  t.error.getD (text "transaction " ++ w.txid ++ text " failed")

/-- The end of a poll: either the time is up, or the wait goes on. -/
def endPoll (n : Nat) (s : WaitState) : WaitResult ⊕ WaitState :=
  if w.deadline < w.now n + w.interval then
    .inl (.returns (.timeout (if s.processed then none else s.lastLookupError)))
  else .inr s

/-- The status of the transaction, once the caller's own signal has not fired. -/
def pollStatus (n : Nat) (s : WaitState) : WaitResult ⊕ WaitState :=
  match w.getProcessedTransaction n with
  | .error message => w.endPoll n { s with lastLookupError := some message }
  | .ok none => w.endPoll n s
  | .ok (some t) =>
      if t.status = text "Failed" then .inl (.fails (w.failureMessage t))
      else if isSettled t.status then
        if w.isComplete.isNone then .inl (.returns .complete)
        else w.endPoll n { s with processed := true }
      else w.endPoll n s

def poll (n : Nat) (s : WaitState) : WaitResult ⊕ WaitState :=
  match w.isComplete with
  | none => w.pollStatus n s
  | some isComplete =>
      match isComplete n with
      | .ok true => .inl (.returns .complete)
      | .ok false => w.pollStatus n s
      | .error message => w.pollStatus n { s with lastLookupError := some message }

/-- The result, and the number of polls. -/
def waitForTransaction (fuel : Nat) : Option (WaitResult × Nat) :=
  Polling.run w.poll fuel 0 { lastLookupError := none, processed := false }

end Wait

/-! ## The run of an instruction -/

/-- A compiled message; its contents are those of the package that compiles it. -/
class ArchSdk where
  SanitizedMessage : Type
  createSanitizedMessage : List BuiltInstruction → ArchAddress → List UInt8 →
    Except JsString SanitizedMessage
  hash : SanitizedMessage → List UInt8

/-- A transaction with its bytes as numbers. -/
structure RuntimeTransaction [ArchSdk] where
  version : Nat
  signatures : List (List UInt8)
  message : ArchSdk.SanitizedMessage

/-- What a run of one instruction is given. The time starts when the node has accepted the
transaction; `ε` is what the transport, the signer and the callback throw. -/
structure SendParams [ArchSdk] (ε : Type) where
  instruction : BuiltInstruction
  feePayer : ArchAddress
  getBestBlockHash : Except ε (List UInt8)
  signer : JsString → Except ε JsString
  sendTransaction : RuntimeTransaction → Except ε JsString
  getProcessedTransaction : JsString → Nat → Except JsString (Option ProcessedTransaction)
  confirm : Option Bool
  confirmTimeoutMs : Option ℚ
  confirmIntervalMs : Option ℚ
  isComplete : Option (Nat → Except JsString Bool)
  onSubmitted : Option (JsString → Except ε Unit)
  start : ℚ
  now : Nat → ℚ

/-- What a run throws. Each kind is known by where it is thrown. -/
inductive SendError (ε : Type) where
  | outside (e : ε)
  | notCompiled (message : JsString)
  | failed (message : JsString)
  | pending (txid : JsString) (lastLookupError : Option JsString)
  | nameTaken
  deriving DecidableEq

/-- The message of a `TransactionPendingError`. -/
def pendingMessage (txid : JsString) (lastLookupError : Option JsString) : JsString :=
  text "Transaction " ++ txid ++ text " was submitted but the network has not confirmed it yet" ++
    match lastLookupError with
    | some message => text "; last status lookup failed: " ++ message
    | none => []

def isDuplicateRegistrationErrorMessage [Platform] (message : JsString) : Bool :=
  let lower := toLowerCase message
  includes (text "accountalreadyinitialized") lower || includes (text "already initialized") lower ||
    includes (text "already registered") lower || includes (text "name taken") lower ||
    includes (text "nametaken") lower

section Send
variable [ArchSdk] {ε : Type} (p : SendParams ε)

def buildTransaction (getBestBlockHash : Except ε (List UInt8)) (instructions : List BuiltInstruction)
    (feePayer : ArchAddress) : Except (SendError ε) (RuntimeTransaction × JsString) := do
  let recentBlockhash ← getBestBlockHash.mapError .outside
  let message ← (ArchSdk.createSanitizedMessage instructions feePayer recentBlockhash).mapError
    fun message => .notCompiled (text "Failed to compile ANS transaction: " ++ message)
  let messageHashHex := decode (ArchSdk.hash message)
  pure ({ version := 0, signatures := [], message }, messageHashHex)

/-- The wait for the transaction of a run. -/
def SendParams.wait (txid : JsString) : Wait :=
  { txid
    isComplete := p.isComplete
    getProcessedTransaction := p.getProcessedTransaction txid
    timeoutMs := p.confirmTimeoutMs
    intervalMs := p.confirmIntervalMs
    start := p.start
    now := p.now }

/-- The callback is told of the transaction. -/
def notifySubmitted (txid : JsString) : Except (SendError ε) Unit :=
  match p.onSubmitted with
  | none => pure ()
  | some onSubmitted => (onSubmitted txid).mapError .outside

variable [Platform]

/-- The end of a wait: what the `try` block returns or throws, and what becomes of it. -/
def settle (txid : JsString) : WaitResult → Except (SendError ε) JsString
  | .returns .complete => .ok txid
  | .returns (.timeout lastLookupError) =>
      if isDuplicateRegistrationErrorMessage (pendingMessage txid lastLookupError) then
        .error .nameTaken
      else .error (.pending txid lastLookupError)
  | .fails message =>
      if isDuplicateRegistrationErrorMessage message then .error .nameTaken
      else .error (.failed message)

/-- What follows once the node has accepted the transaction. -/
def confirmSubmitted (fuel : Nat) (txid : JsString) : Except (SendError ε) (Option JsString) := do
  notifySubmitted p txid
  if p.confirm = some false then pure (some txid)
  else
    match (p.wait txid).waitForTransaction fuel with
    | none => pure none
    | some (result, _) => some <$> settle txid result

/-- The sending half: the transaction is built and signed, and the node accepts it. -/
def submitTransaction : Except (SendError ε) JsString := do
  let (transaction, messageHashHex) ←
    buildTransaction p.getBestBlockHash [p.instruction] p.feePayer
  let signatureHex ← (p.signer messageHashHex).mapError .outside
  let signed := { transaction with signatures := [hexToBytes signatureHex] }
  (p.sendTransaction signed).mapError .outside

/-- The run of one instruction; `none` is a wait that has not ended. -/
def signAndSendInstruction (fuel : Nat) : Except (SendError ε) (Option JsString) := do
  let txid ← submitTransaction p
  confirmSubmitted p fuel txid

end Send

end Sdk

end ArchNameService
