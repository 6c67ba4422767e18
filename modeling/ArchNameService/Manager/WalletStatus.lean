import ArchNameService.Sdk.Derive

/-!
# The state of the wallet

`wallet-state.ts`, `wallet-initialization.ts`, `wallet-status.ts` and `wallet-watch.ts`:
what an answer of the wallet extension says about it, and which of these statuses may
replace which on the page. The texts that the page shows are left out.
-/

namespace ArchNameService

namespace Manager.Wallet
open JsString
open Sdk (text)

/-! ## Failures -/

/-- What a call of the wallet rejects with, down its chain of causes. -/
inductive WalletFailure where
  | thrown (code message : JsString)
  | caused (code message : JsString) (cause : WalletFailure)
  deriving DecidableEq

inductive WalletBlockerKind where
  | locked
  | notConnected
  | needsReconnect
  | unsupportedKind
  | staleExtension
  | signerMismatch
  deriving DecidableEq

def WalletFailure.message : WalletFailure → JsString
  | .thrown _ message | .caused _ message _ => message

/-- A match of one of the words, in either case. -/
def mentions (words : List String) (message : JsString) : Bool :=
  words.any fun word => includes (text word) (message.map lowerAscii)

def staleExtensionPatterns : List String :=
  [ "extension context invalidated",
    "attempting to use a disconnected port object",
    "could not establish connection receiving end does not exist",
    "could not establish connection. receiving end does not exist",
    "message port closed before a response was received" ]

/-- The blocker by the code, and else by the message. -/
def blockerOf (code message : JsString) : Option WalletBlockerKind :=
  if code = text "UNSUPPORTED_WALLET_KIND" then some .unsupportedKind
  else if code = text "SIGNER_MISMATCH" then some .signerMismatch
  else if code = text "WALLET_ACCOUNT_CHANGED" then some .needsReconnect
  else if code = text "WALLET_LOCKED" then some .locked
  else if code = text "SITE_NOT_CONNECTED" then some .notConnected
  else if mentions staleExtensionPatterns message then some .staleExtension
  else if mentions ["wallet locked", "wallet is locked", "keystore is locked"] message then
    some .locked
  else if mentions ["site not connected", "not connected to this site"] message then
    some .notConnected
  else if mentions ["error checking transaction sigs", "bip322 signature verification failed",
      "signature did not match"] message then
    some .signerMismatch
  else if mentions ["connected site account is no longer available", "wallet account changed"]
      message then
    some .needsReconnect
  else if mentions ["linked external", "watch-only wallets cannot sign"] message then
    some .unsupportedKind
  else none

/-- A failed step of a flow is what caused it. -/
def classifyWalletBlocker : WalletFailure → Option WalletBlockerKind
  | .thrown code message =>
      if code = text "ANS_STEP_FAILED" then blockerOf [] [] else blockerOf code message
  | .caused code message cause =>
      if code = text "ANS_STEP_FAILED" then classifyWalletBlocker cause else blockerOf code message

/-! ## Statuses -/

structure ConnectedAccount where
  address : JsString
  publicKey : JsString
  archAddress : JsString
  kind : Option JsString
  providerId : Option JsString
  providerLabel : Option JsString
  deriving DecidableEq

inductive WalletPromptIntent where
  | unlock
  | connect
  deriving DecidableEq

inductive WalletPromptFailure where
  | dismissed
  | timeout
  | error
  deriving DecidableEq

inductive WalletStatus where
  | detecting
  | noExtension
  | notInitialized
  | locked
  | notConnected
  | awaitingWallet (intent : WalletPromptIntent) (canReprompt : Bool)
  | promptUnanswered (intent : WalletPromptIntent) (reason : WalletPromptFailure)
      (detail : Option JsString)
  | staleExtension
  | unavailable (detail : JsString)
  | unsupportedAccount (account : ConnectedAccount)
  | connected (account : ConnectedAccount)
  deriving DecidableEq

/-- An account as the provider gives it. -/
structure ProviderAccount where
  address : Option JsString
  publicKey : Option JsString
  archAddress : Option JsString
  kind : Option JsString
  providerId : Option JsString
  providerLabel : Option JsString

/-- What `getAccount()` or `connect()` settles with. -/
abbrev WalletAnswer := Except WalletFailure (Option ProviderAccount)

def isSignableAccount (account : ConnectedAccount) : Bool := account.kind ≠ some (text "watch")

def normalizeAccount (next : Option ProviderAccount) : Option ConnectedAccount := do
  let next ← next
  let archAddress ← next.archAddress.filter (· ≠ [])
  some
    { address := next.address.getD []
      publicKey := next.publicKey.getD []
      archAddress
      kind := next.kind
      providerId := next.providerId
      providerLabel := next.providerLabel }

def accountStatus (account : ConnectedAccount) : WalletStatus :=
  if isSignableAccount account then .connected account else .unsupportedAccount account

/-- The account behind a status. -/
def statusAccount : WalletStatus → Option ConnectedAccount
  | .connected account | .unsupportedAccount account => some account
  | _ => none

def canSubmit : WalletStatus → Bool
  | .connected _ => true
  | _ => false

/-- An answer that is no failure. -/
def answeredStatus (next : Option ProviderAccount) : WalletStatus :=
  ((normalizeAccount next).map accountStatus).getD .notConnected

def classifyWalletPromptFailure (error : WalletFailure) : Option WalletPromptFailure :=
  if mentions ["user rejected", "user denied", "user declined", "request rejected"] error.message then
    some .dismissed
  else if mentions ["request timed out", "request expired"] error.message then some .timeout
  else none

def statusFromError (error : WalletFailure) : WalletStatus :=
  match classifyWalletBlocker error with
  | some .locked => .locked
  | some .notConnected | some .needsReconnect => .notConnected
  | some .staleExtension => .staleExtension
  | blocker =>
      if blocker = none ∧ mentions ["wallet not initialized", "no wallet created",
          "no wallet has been created"] error.message then
        .notInitialized
      else .unavailable (if error.message = [] then text "Unknown wallet error" else error.message)

/-- A rejected prompt says that it was not answered, and not in which state the wallet is. -/
def promptFailureStatus (error : WalletFailure) (intent : WalletPromptIntent) : WalletStatus :=
  match classifyWalletPromptFailure error with
  | some reason => .promptUnanswered intent reason none
  | none =>
      match statusFromError error with
      | .locked | .notConnected => .promptUnanswered intent .dismissed none
      | .unavailable detail => .promptUnanswered intent .error (some detail)
      | status => status

/-! ## The latch -/

/-- Whether `connect()` has said that there is no keystore, after what the status proves. -/
def noteInitializationEvidence (knownNotInitialized : Bool) : WalletStatus → Bool
  | .notInitialized => true
  | .connected _ | .unsupportedAccount _ | .notConnected => false
  | _ => knownNotInitialized

def resolveAmbiguousLock (knownNotInitialized : Bool) : WalletStatus → WalletStatus
  | .locked => if knownNotInitialized then .notInitialized else .locked
  | status => status

/-- The answer to a read, with the latch after it. -/
def readStatus (knownNotInitialized : Bool) : WalletAnswer → WalletStatus × Bool
  | .ok next =>
      let status := answeredStatus next
      (status, noteInitializationEvidence knownNotInitialized status)
  | .error error =>
      let status := statusFromError error
      let knownNotInitialized := noteInitializationEvidence knownNotInitialized status
      (resolveAmbiguousLock knownNotInitialized status, knownNotInitialized)

/-- The answer to a prompt, with the latch after it. -/
def promptStatus (knownNotInitialized : Bool) (intent : WalletPromptIntent) :
    WalletAnswer → WalletStatus × Bool
  | .ok next =>
      let status := answeredStatus next
      (status, noteInitializationEvidence knownNotInitialized status)
  | .error error =>
      let status := promptFailureStatus error intent
      (status, noteInitializationEvidence knownNotInitialized status)

/-! ## Readings over what is shown -/

def narratesPrompt : WalletStatus → Bool
  | .awaitingWallet .. | .promptUnanswered .. => true
  | _ => false

/-- Whether a read in the background may replace what is on screen. -/
def shouldAdoptProbe (current probed : WalletStatus) : Bool :=
  if (statusAccount probed).isSome then true
  else if !narratesPrompt current then true
  else probed = .noExtension || probed = .notInitialized || probed = .staleExtension

/-- Two accounts are told apart by address and kind. -/
def sameWalletStatus : WalletStatus → WalletStatus → Bool
  | .connected a, .connected b | .unsupportedAccount a, .unsupportedAccount b =>
      a.archAddress = b.archAddress && a.kind = b.kind
  | a, b => a = b

end Manager.Wallet

end ArchNameService
