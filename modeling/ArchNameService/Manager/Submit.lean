import ArchNameService.Runtime.Ledger
import ArchNameService.Sdk.Confirm

/-!
# Submitting a mutation from the manager

One user action of the web client (`ans.ts`, with `arch-identity.ts`,
`signer-registry.ts` and `runner.ts`): its approvals, its signature checks and its
retry. What the wallet, the storage of the browser and the network answer is read at
a time, and each answer takes one step of time. A wait for a transaction (`confirm.ts`)
is one answer, of any result that such a wait may have.
-/

namespace ArchNameService

namespace Manager
open JsString (isHexDigit stripHexPrefix bytesOfHexPairs hexToBytes)

/-! ## What the action asks and records -/

structure BuiltInstruction where
  programId : ArchAddress
  accounts : List AccountInfo
  data : List UInt8

structure WalletPort where
  providerId : JsString
  archAddress : JsString

structure ConnectedAccount where
  archAddress : JsString
  kind : Option JsString

/-- "When the wallet said R, S is who signed." -/
structure SignerObservation where
  reportedArchAddress : JsString
  signerArchAddress : JsString

inductive SignatureCheck where
  | match
  | mismatch
  | unverifiable
  deriving DecidableEq

inductive SubmitPhase where
  | accountSetup
  | mutation
  deriving DecidableEq

inductive PinSource where
  | reported
  | observed

structure SubmitProgress where
  phase : SubmitPhase
  confirming : Bool
  approvalIndex : Nat
  approvalTotal : Nat
  attempt : Nat

/-- How an answer from outside fails. Only a pending transaction is told apart. -/
inductive Failure where
  | pending (txid : JsString)
  | other

inductive SubmitError where
  | failure (f : Failure)
  | walletStatus
  | unreadableAddress (archAddress : JsString)
  | accountChanged (previous current : JsString)
  | unsupportedKind
  | signerMismatch (payer : JsString) (signer : Option JsString)
      (probes : List (JsString × SignatureCheck)) (approvalsCompleted : Nat)
  | signatureLength
  | compile
  | accountNotVisible (txid : JsString)
  | step (phase : SubmitPhase) (progress : Option SubmitProgress)
  | notConverged

/-- A signed transaction on its way to the network: for which account it was made,
in which approval, and the bytes of the signature. -/
structure Sent where
  phase : SubmitPhase
  actor : JsString
  feePayer : ArchAddress
  approval : Nat
  messageHash : JsString
  signature : JsString
  signatureBytes : List UInt8

inductive Event where
  | attempt (number : Nat) (actor : JsString)
  | progress (p : SubmitProgress)
  | checked (approval : Nat) (key messageHash signature : JsString) (result : SignatureCheck)
  | built (actor : JsString) (instruction : BuiltInstruction)
  | sent (t : Sent)
  | remembered (reported signer : JsString)

/-- Everything outside: two libraries, and what is answered when. -/
structure Environment where
  bs58Decode : JsString → Option (List UInt8)
  adjustSignature : List UInt8 → Except Failure (List UInt8)
  messageHash : BuiltInstruction → ArchAddress → List UInt8 → Option JsString
  activePort : Nat → Option WalletPort
  walletAccount : Nat → Option ConnectedAccount
  signMessageHash : Nat → JsString → Except Failure JsString
  checkSignature : Nat → JsString → JsString → JsString → SignatureCheck
  observation : Nat → Option SignerObservation
  seenAccounts : Nat → List JsString
  readAccountInfo : Nat → ArchAddress → Except Failure Bool
  bestBlockHash : Nat → Except Failure (List UInt8)
  faucetMessageHash : Nat → ArchAddress → Except Failure JsString
  sendTransaction : Nat → Sent → Except Failure JsString
  waitForTransaction : Nat → JsString → Bool → Sdk.WaitResult
  build : Nat → JsString → Except Failure BuiltInstruction

/-- The trace, newest first, and the variables of the running attempt. -/
structure Flow where
  time : Nat
  trace : List Event
  phase : SubmitPhase
  approvalIndex : Nat
  verifierProven : Bool
  progress : Option SubmitProgress

abbrev Submission := ExceptT SubmitError (StateM Flow)

def answer {α : Type} (respond : Nat → α) : Submission α := do
  let flow ← get
  set { flow with time := flow.time + 1 }
  pure (respond flow.time)

def okOrFail {α : Type} : Except Failure α → Submission α
  | .ok a => pure a
  | .error f => throw (.failure f)

def answerOrFail {α : Type} (respond : Nat → Except Failure α) : Submission α := do
  let result ← answer respond
  okOrFail result

def record (e : Event) : Submission Unit := modify fun flow => { flow with trace := e :: flow.trace }

section
variable (env : Environment)

/-! ## Identities and known signers -/

def canonicalArchKey (value : JsString) : Option ArchAddress :=
  let trimmed := stripHexPrefix value.trim
  if trimmed = [] then none
  else
    let decoded : Option (List UInt8) :=
      if (trimmed.length = 64 ∨ trimmed.length = 66) ∧ trimmed.all isHexDigit then
        some (bytesOfHexPairs trimmed)
      else env.bs58Decode trimmed
    decoded.bind fun bytes =>
      Bytes.ofList? 32
        (if bytes.length = 33 ∧ (bytes.head? = some 2 ∨ bytes.head? = some 3) then bytes.drop 1
        else bytes)

/-- Two readable keys are compared as keys, anything else as trimmed text. -/
def archIdentitiesEqual (a b : JsString) : Bool :=
  match canonicalArchKey env a, canonicalArchKey env b with
  | some left, some right => left == right
  | _, _ => a.trim == b.trim

def preferredSigner (observation : Option SignerObservation) (reported : JsString) :
    JsString × PinSource :=
  match observation with
  | some o =>
      if archIdentitiesEqual env o.reportedArchAddress reported &&
          !archIdentitiesEqual env o.signerArchAddress reported then
        (o.signerArchAddress, .observed)
      else (reported, .reported)
  | none => (reported, .reported)

/-- Whether a candidate is tried after those already listed. -/
def isCandidate (exclude : JsString) (out : List JsString) (candidate : JsString) : Bool :=
  candidate != [] && (canonicalArchKey env candidate).isSome &&
    !archIdentitiesEqual env candidate exclude &&
    !out.any fun existing => archIdentitiesEqual env existing candidate

def signerCandidates (observation : Option SignerObservation) (seen : List JsString)
    (exclude : JsString) (extra : List JsString) : List JsString :=
  let ordered := extra ++ (observation.map SignerObservation.signerArchAddress).toList ++ seen
  ordered.foldl (fun out candidate =>
    if isCandidate env exclude out candidate then out ++ [candidate] else out) []

/-! ## Wallet accounts -/

def archExtension : JsString :=
  [97, 114, 99, 104, 45, 101, 120, 116, 101, 110, 115, 105, 111, 110]

def watch : JsString := [119, 97, 116, 99, 104]

/-- The port of another wallet than the extension. -/
def kitPort : Submission (Option WalletPort) := do
  let port ← answer env.activePort
  pure (port.filter fun p => p.providerId != archExtension)

/-- A switch aborts the action only once something was signed; an empty address is
no expectation. -/
def rejectSwitch (expected : Option JsString) (current : JsString) (signed : Bool) :
    Submission Unit := do
  match expected with
  | some previous =>
      if previous != [] && !archIdentitiesEqual env previous current && signed then
        throw (.accountChanged previous current)
  | none => pure ()

def requireConnectedArchAccount (expected : Option JsString) (signed : Bool) :
    Submission JsString := do
  match ← kitPort env with
  | some port =>
      rejectSwitch env expected port.archAddress signed
      pure port.archAddress
  | none =>
      match ← answer env.walletAccount with
      | none => throw .walletStatus
      | some connected =>
          rejectSwitch env expected connected.archAddress signed
          if connected.kind = some watch then throw .unsupportedKind
          pure connected.archAddress

def requireArchKey (archAddress : JsString) : Submission ArchAddress :=
  match canonicalArchKey env archAddress with
  | some key => pure key
  | none => throw (.unreadableAddress archAddress)

def archAccountExists (archAddress : JsString) : Submission Bool := do
  let pubkey ← requireArchKey env archAddress
  answerOrFail (env.readAccountInfo · pubkey)

/-! ## Signing -/

/-- One end-to-end run of the flow with a fixed acting account. -/
structure Attempt where
  actor : JsString
  reported : JsString
  pinSource : PinSource
  number : Nat

def checkArchSignature (key messageHash signature : JsString) : Submission SignatureCheck := do
  let result ← answer (env.checkSignature · key messageHash signature)
  let flow ← get
  record (.checked flow.approvalIndex key messageHash signature result)
  pure result

/-- Tries the candidates until one matches. -/
def probeCandidates (messageHash signature : JsString) :
    List JsString → Submission (Option JsString × List (JsString × SignatureCheck))
  | [] => pure (none, [])
  | candidate :: later => do
      let result ← checkArchSignature env candidate messageHash signature
      if result = .match then pure (some candidate, [(candidate, result)])
      else do
        let (signer, probes) ← probeCandidates messageHash signature later
        pure (signer, (candidate, result) :: probes)

def identifySigner (payer reported messageHash signature : JsString) :
    Submission (Option JsString × List (JsString × SignatureCheck)) := do
  let observation ← answer env.observation
  let seen ← answer env.seenAccounts
  probeCandidates env messageHash signature (signerCandidates env observation seen payer [reported])

/-- The wallet is asked for one signature. -/
def requestSignature (a : Attempt) (approvalTotal : Nat) (messageHash : JsString) :
    Submission JsString := do
  let flow ← get
  let _ ← requireConnectedArchAccount env (some a.reported) (0 < flow.approvalIndex)
  let progress : SubmitProgress :=
    { phase := flow.phase, confirming := false, approvalIndex := flow.approvalIndex + 1,
      approvalTotal, attempt := a.number }
  modify fun flow =>
    { flow with approvalIndex := flow.approvalIndex + 1, progress := some progress }
  record (.progress progress)
  answerOrFail (env.signMessageHash · messageHash)

/-- A signature that is not the payer's is refused only when some key has verified in
this attempt. -/
def refuseMismatch (a : Attempt) (messageHash signature : JsString) : Submission JsString := do
  let (signer, probes) ← identifySigner env a.actor a.reported messageHash signature
  modify fun flow => { flow with verifierProven := flow.verifierProven || signer.isSome }
  let flow ← get
  if flow.verifierProven then
    throw (.signerMismatch a.actor signer probes (flow.approvalIndex - 1))
  else pure signature

/-- One approval. -/
def signWithActor (a : Attempt) (approvalTotal : Nat) (messageHash : JsString) :
    Submission JsString := do
  let signature ← requestSignature env a approvalTotal messageHash
  match ← checkArchSignature env a.actor messageHash signature with
  | .match =>
      modify fun flow => { flow with verifierProven := true }
      pure signature
  | .unverifiable => pure signature
  | .mismatch => refuseMismatch env a messageHash signature

/-! ## Sending -/

/-- The transaction is on its way before the network answers. -/
def sendTransaction (a : Attempt) (phase : SubmitPhase) (feePayer : ArchAddress)
    (messageHash signature : JsString) (signatureBytes : List UInt8) : Submission JsString := do
  let flow ← get
  let transaction : Sent :=
    { phase, actor := a.actor, feePayer, approval := flow.approvalIndex, messageHash, signature,
      signatureBytes }
  record (.sent transaction)
  answerOrFail (env.sendTransaction · transaction)

/-- The faucet makes the transaction, and the new account signs it. -/
def createArchAccountWithFaucet (a : Attempt) (approvalTotal : Nat) : Submission Unit := do
  let pubkey ← requireArchKey env a.actor
  let messageHash ← answerOrFail (env.faucetMessageHash · pubkey)
  let signature ← signWithActor env a approvalTotal messageHash
  let signatureBytes ← okOrFail (env.adjustSignature (hexToBytes signature))
  let txid ← sendTransaction env a .accountSetup pubkey messageHash signature signatureBytes
  match ← answer (env.waitForTransaction · txid true) with
  | .returns .complete => pure ()
  | .returns (.timeout _) => throw (.accountNotVisible txid)
  | .fails _ => throw (.failure .other)

/-- `makeAnsSigner`: the signature must have 64 bytes, also when it is adjusted. -/
def adjustedSignature (signature : JsString) : Submission (List UInt8) := do
  let schnorrSig := hexToBytes signature
  if schnorrSig.length ≠ 64 then throw .signatureLength
  let adjusted ← okOrFail (env.adjustSignature schnorrSig)
  if adjusted.length ≠ 64 then throw .signatureLength
  pure adjusted

def buildTransaction (instruction : BuiltInstruction) (feePayer : ArchAddress) :
    Submission JsString := do
  let recentBlockhash ← answerOrFail env.bestBlockHash
  match env.messageHash instruction feePayer recentBlockhash with
  | some messageHash => pure messageHash
  | none => throw .compile

def onSubmitted : Submission Unit := do
  let flow ← get
  match flow.progress with
  | none => pure ()
  | some progress =>
      modify fun flow => { flow with progress := some { progress with confirming := true } }
      record (.progress { progress with confirming := true })

/-- What the end of a run throws; a pending transaction keeps its id. -/
def failureOf : Sdk.SendError Failure → Failure
  | .outside f => f
  | .pending txid _ => .pending txid
  | _ => .other

variable [Sdk.Platform]

def signAndSendInstruction (a : Attempt) (approvalTotal : Nat) (instruction : BuiltInstruction)
    (feePayer : ArchAddress) (confirmEffect : Bool) : Submission JsString := do
  let messageHash ← buildTransaction env instruction feePayer
  let signature ← signWithActor env a approvalTotal messageHash
  let signatureBytes ← adjustedSignature env signature
  let txid ← sendTransaction env a .mutation feePayer messageHash signature signatureBytes
  onSubmitted
  let result ← answer (env.waitForTransaction · txid confirmEffect)
  okOrFail ((Sdk.settle txid result).mapError failureOf)

/-! ## The action -/

/-- A transaction that is not confirmed yet is an outcome; a signature or an account
that is not the payer's keeps its error. -/
def settleError : SubmitError → Submission (JsString × Bool)
  | .failure (.pending txid) => pure (txid, false)
  | .accountChanged previous current => throw (.accountChanged previous current)
  | .signerMismatch payer signer probes approvals =>
      throw (.signerMismatch payer signer probes approvals)
  | .unsupportedKind => throw .unsupportedKind
  | _ => do
      let flow ← get
      throw (.step flow.phase flow.progress)

def setUpAccount (a : Attempt) (approvalTotal : Nat) : Submission Unit := do
  createArchAccountWithFaucet env a approvalTotal
  modify fun flow => { flow with phase := .mutation }

def submitMutation (a : Attempt) (approvalTotal : Nat) (confirmEffect : Bool) :
    Submission (JsString × Bool) := do
  let instruction ← answerOrFail (env.build · a.actor)
  record (.built a.actor instruction)
  let feePayer ← requireArchKey env a.actor
  let txid ← signAndSendInstruction env a approvalTotal instruction feePayer confirmEffect
  pure (txid, true)

def submitSteps (a : Attempt) (approvalTotal : Nat) (confirmEffect : Bool) :
    Submission (JsString × Bool) := do
  if approvalTotal = 2 then setUpAccount env a approvalTotal else pure ()
  submitMutation env a approvalTotal confirmEffect

def runSubmitAttempt (a : Attempt) (confirmEffect : Bool) : Submission (JsString × Bool) := do
  record (.attempt a.number a.actor)
  let accountExists ← archAccountExists env a.actor
  let approvalTotal := if accountExists then 1 else 2
  modify fun flow =>
    { flow with
      phase := if accountExists then .mutation else .accountSetup
      approvalIndex := 0
      verifierProven := false
      progress := none }
  tryCatch (submitSteps env a approvalTotal confirmEffect) settleError

structure SubmitOutcome where
  txid : JsString
  actorArchAddress : JsString
  adopted : Bool
  confirmed : Bool

/-- The signer that a first attempt has identified. -/
def identifiedSigner (attempt : Nat) : SubmitError → Option JsString
  | .signerMismatch _ signer _ _ => if attempt = 1 then signer else none
  | _ => none

/-- Each attempt that ends with an identified signer leads to the next one. -/
def runAttempts (reported : JsString) (confirmEffect : Bool) :
    List Nat → JsString → PinSource → Submission SubmitOutcome
  | [], _, _ => throw .notConverged
  | number :: later, actor, pinSource => do
      let attempt : Attempt := { actor, reported, pinSource, number }
      tryCatch
        (do
          let (txid, confirmed) ← runSubmitAttempt env attempt confirmEffect
          record (.remembered reported actor)
          pure
            { txid, actorArchAddress := actor
              adopted := !archIdentitiesEqual env actor reported, confirmed })
        fun error =>
          match identifiedSigner number error with
          | none => throw error
          | some signer => do
              record (.remembered reported signer)
              runAttempts reported confirmEffect later signer .observed

/-- Signs and submits one mutation, in one attempt with a port of another wallet and
in two at most with the extension. -/
def submitWithWindowArch (confirmEffect : Bool) : Submission SubmitOutcome := do
  match ← kitPort env with
  | some port =>
      let attempt : Attempt :=
        { actor := port.archAddress, reported := port.archAddress, pinSource := .reported,
          number := 1 }
      let (txid, confirmed) ← runSubmitAttempt env attempt confirmEffect
      pure { txid, actorArchAddress := port.archAddress, adopted := false, confirmed }
  | none =>
      let reported ← requireConnectedArchAccount env none false
      let observation ← answer env.observation
      let (actor, pinSource) := preferredSigner env observation reported
      runAttempts env reported confirmEffect [1, 2] actor pinSource

def Flow.start : Flow :=
  { time := 0, trace := [], phase := .mutation, approvalIndex := 0, verifierProven := false,
    progress := none }

/-- One whole action, and all that happened in it. -/
def userAction (confirmEffect : Bool) : Except SubmitError SubmitOutcome × List Event :=
  let (result, flow) := (submitWithWindowArch env confirmEffect).run.run Flow.start
  (result, flow.trace)

end

end Manager

end ArchNameService
