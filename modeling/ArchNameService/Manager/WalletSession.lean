import ArchNameService.Lib.History
import ArchNameService.Manager.WalletStatus

/-!
# The wallet session of the page

`useArchWallet.ts`: the status on the page, the reads that refresh it and the prompts that
`connect` opens. When reads are made, and in which order the wallet answers them and the
prompts, is left open; what needs no answer of the wallet happens at once.
-/

namespace ArchNameService

namespace Manager.Wallet
open JsString (startsWith)
open Sdk (text)

/-! ## Sessions of the kit -/

structure KitWallet where
  address : JsString
  pubkey : JsString
  archAddress : JsString
  isConnected : Bool

def walletProviderLabels : List (JsString × JsString) :=
  [ (text "arch-extension", text "Arch Wallet"),
    (text "arch", text "Arch Wallet"),
    (text "xverse", text "Xverse"),
    (text "unisat", text "UniSat"),
    (text "leather", text "Leather"),
    (text "phantom", text "Phantom"),
    (text "turnkey-passkey", text "Arch Hub"),
    (text "turnkey-email", text "Arch Hub"),
    (text "turnkey-hub", text "Arch Hub") ]

def providerLabelFor (providerId : JsString) : JsString :=
  if providerId = [] then text "Wallet"
  else (walletProviderLabels.lookup providerId).getD providerId

/-- A session of the kit with a wallet other than the Arch extension. -/
def kitLaserEyesAccount (kitWallet : Option KitWallet) (providerId : Option JsString) :
    Option ConnectedAccount := do
  let kitWallet ← kitWallet.filter (·.isConnected)
  let providerId ← providerId.filter (· ≠ [])
  if providerId = text "arch-extension" ∨ startsWith (text "turnkey-") providerId = true then none
  else
    some
      { address := kitWallet.address
        publicKey := kitWallet.pubkey
        archAddress := kitWallet.archAddress
        kind := none
        providerId := some providerId
        providerLabel := some (providerLabelFor providerId) }

/-! ## Sessions of the page -/

/-- Who awaits a read: the page, `connect` after a prompt without an account, or another caller. -/
inductive Reader where
  | refresh
  | check (id : Nat) (next : WalletStatus)
  | other
  deriving DecidableEq

structure WalletPrompt where
  id : Nat
  intent : WalletPromptIntent
  deriving DecidableEq

structure WalletSession where
  /-- The provider, once it is injected, and whether it has `getAccount`. -/
  provider : Option Bool
  archStatus : WalletStatus
  knownNotInitialized : Bool
  latestPromptId : Nat
  /-- The prompts that the wallet has not answered. -/
  prompts : List WalletPrompt
  /-- The reads that the wallet has not answered. -/
  readers : List Reader
  connecting : Bool
  kitAccount : Option ConnectedAccount

inductive SessionEvent where
  /-- The extension injects its provider, with or without `getAccount`. -/
  | injected (readable : Bool)
  /-- The wait for a provider is over. -/
  | undetected
  | refreshed
  | probed
  | clicked (intent : WalletPromptIntent)
  /-- The prompt has been open for some seconds. -/
  | reprompted (id : Nat)
  | heard (reader : Reader) (answer : WalletAnswer)
  | answered (prompt : WalletPrompt) (answer : WalletAnswer)
  | kitChanged (kitWallet : Option KitWallet) (providerId : Option JsString)

/-- What reaches the status of the page: a read, or the end of the newest prompt with the
read that followed it. -/
inductive Told where
  | read (status : WalletStatus)
  | prompt (next : WalletStatus) (probed : Option WalletStatus)

/-- A read after a prompt comes first where it names an account. -/
def outcome (next : WalletStatus) (probed : Option WalletStatus) : WalletStatus :=
  (probed.filter fun probed => (statusAccount probed).isSome).getD next

structure SessionLabel where
  event : SessionEvent
  told : Option Told

namespace WalletSession
variable (s : WalletSession)

def initial : WalletSession :=
  { provider := none, archStatus := .detecting, knownNotInitialized := false, latestPromptId := 0
    prompts := [], readers := [], connecting := false, kitAccount := none }

/-- What the page shows: a session of the kit comes first. -/
def status : WalletStatus :=
  match s.kitAccount with
  | some account => .connected account
  | none => s.archStatus

/-- The account that may sign. -/
def account : Option ConnectedAccount :=
  match s.status with
  | .connected account => some account
  | _ => none

def isCurrentWalletPrompt (id : Nat) : Bool := id = s.latestPromptId

/-- The end of `refresh`. -/
def adopt (probed : WalletStatus) : WalletSession :=
  if shouldAdoptProbe s.archStatus probed && !sameWalletStatus s.archStatus probed then
    { s with archStatus := probed }
  else s

/-- The end of `connect` for the newest prompt. -/
def conclude (next : WalletStatus) (probed : Option WalletStatus) : WalletSession :=
  { s with archStatus := outcome next probed, connecting := false }

/-- The status that a probe has without asking the wallet. -/
def unasked : Option WalletStatus :=
  match s.provider with
  | none => some .noExtension
  | some false => some .notConnected
  | some true => none

def refresh : Option Told × WalletSession :=
  match s.unasked with
  | some status => (some (.read status), s.adopt status)
  | none => (none, { s with readers := .refresh :: s.readers })

/-- A prompt is over: it was connected, or a read follows. -/
def ended (id : Nat) (next : WalletStatus) : Option Told × WalletSession :=
  if !s.isCurrentWalletPrompt id then (none, s)
  else if canSubmit next then (some (.prompt next none), s.conclude next none)
  else
    match s.unasked with
    | some status => (some (.prompt next (some status)), s.conclude next (some status))
    | none => (none, { s with readers := .check id next :: s.readers })

def connect (intent : WalletPromptIntent) : Option Told × WalletSession :=
  let id := s.latestPromptId + 1
  let s :=
    { s with
      latestPromptId := id
      archStatus := .awaitingWallet intent false
      connecting := true }
  match s.provider with
  | none => s.ended id .noExtension
  | some _ => (none, { s with prompts := ⟨id, intent⟩ :: s.prompts })

/-- The reader of a probe goes on. -/
def deliver (status : WalletStatus) : Reader → Option Told × WalletSession
  | .refresh => (some (.read status), s.adopt status)
  | .check id next =>
      if s.isCurrentWalletPrompt id then
        (some (.prompt next (some status)), s.conclude next (some status))
      else (none, s)
  | .other => (none, s)

def offerReprompt (id : Nat) : WalletSession :=
  match s.archStatus with
  | .awaitingWallet intent false =>
      if s.isCurrentWalletPrompt id then { s with archStatus := .awaitingWallet intent true } else s
  | _ => s

/-- What an event tells the page and makes of it, where it can happen. -/
def handle : SessionEvent → Option (Option Told × WalletSession)
  | .injected readable =>
      if s.provider.isSome then none else some (none, { s with provider := some readable })
  | .undetected =>
      if s.provider.isSome then none
      else some (some (.read .noExtension), { s with archStatus := .noExtension })
  | .refreshed => some s.refresh
  | .probed =>
      some (none, if s.unasked.isSome then s else { s with readers := .other :: s.readers })
  | .clicked intent => some (s.connect intent)
  | .reprompted id => some (none, s.offerReprompt id)
  | .heard reader answer =>
      if s.readers.contains reader then
        let result := readStatus s.knownNotInitialized answer
        let s := { s with knownNotInitialized := result.2, readers := s.readers.erase reader }
        some (s.deliver result.1 reader)
      else none
  | .answered prompt answer =>
      if s.prompts.contains prompt then
        let result := promptStatus s.knownNotInitialized prompt.intent answer
        let s := { s with knownNotInitialized := result.2, prompts := s.prompts.erase prompt }
        some (s.ended prompt.id result.1)
      else none
  | .kitChanged kitWallet providerId =>
      some (none, { s with kitAccount := kitLaserEyesAccount kitWallet providerId })

def Step (s : WalletSession) (l : SessionLabel) (s' : WalletSession) : Prop :=
  s.handle l.event = some (l.told, s')

end WalletSession

end Manager.Wallet

end ArchNameService
