import ArchNameService.Lib.Recency
import ArchNameService.Lib.Values
import ArchNameService.Manager.Submit
import ArchNameService.Sdk.Derive

/-! What the browser remembers of the signers of a wallet (`signer-registry.ts`). -/

namespace ArchNameService

namespace Manager
open JsString
open Sdk (text)

/-- The texts of `localStorage`. -/
abbrev Storage := JsString → Option JsString

def seenKey : JsString := text "ans:wallet-accounts"
def observationKey : JsString := text "ans:wallet-signer"
def maxSeen : Nat := 8

/-- The browser may refuse a write, and then nothing is written. -/
def writeStorage (taken : Bool) (key value : JsString) (storage : Storage) : Storage :=
  if taken then fun k => if k = key then some value else storage k else storage

def clearStorage (taken : Bool) (key : JsString) (storage : Storage) : Storage :=
  if taken then fun k => if k = key then none else storage k else storage

/-- An observation with its time. -/
structure StoredObservation (ν : Type) extends SignerObservation where
  observedAt : ν

section
variable {ν : Type} [JsNumber ν]

/-- The value of a key of what was parsed; the last one counts. -/
def jsonMember (key : JsString) : Json ν → Option (Json ν)
  | .object members => members.reverse.lookup key
  | _ => none

def nonEmptyString : Json ν → Option JsString
  | .string s => if s = [] then none else some s
  | _ => none

variable (ν) in
/-- Arch accounts this wallet has reported here, most recent first. -/
def seenAccounts (storage : Storage) : List JsString :=
  match storage seenKey with
  | none => []
  | some raw =>
      if raw = [] then []
      else
        match (Json.parse raw : Option (Json ν)) with
        | some (.array items) => items.filterMap nonEmptyString
        | _ => []

def signerObservation (storage : Storage) : Option (StoredObservation ν) :=
  match storage observationKey with
  | none => none
  | some raw =>
      if raw = [] then none
      else do
        let parsed ← (Json.parse raw : Option (Json ν))
        match jsonMember (text "reportedArchAddress") parsed,
            jsonMember (text "signerArchAddress") parsed with
        | some (.string reportedArchAddress), some (.string signerArchAddress) =>
            let observedAt := match jsonMember (text "at") parsed with
              | some (.number n) => n
              | _ => JsNumber.ofNat 0
            some { reportedArchAddress, signerArchAddress, observedAt }
        | _, _ => none

variable (env : Environment)

/-- An address that stands for a key. -/
def isKnownAccount (address : JsString) : Bool :=
  address != [] && (canonicalArchKey env address).isSome

variable (ν) in
def rememberSeenAccount (taken : Bool) (address : Option JsString) (storage : Storage) : Storage :=
  match address with
  | none => storage
  | some address =>
      if isKnownAccount env address then
        let existing := (seenAccounts ν storage).filter fun a => !archIdentitiesEqual env a address
        let seen : Json ν := .array (((address :: existing).take maxSeen).map .string)
        writeStorage taken seenKey (Json.write seen) storage
      else storage

/-- The time is that of the call. -/
def rememberSignerObservation (takenSeen taken : Bool)
    (reportedArchAddress signerArchAddress : JsString) (now : ν) (storage : Storage) : Storage :=
  let storage := rememberSeenAccount ν env takenSeen (some signerArchAddress) storage
  let observation : Json ν := .object [(text "reportedArchAddress", .string reportedArchAddress),
    (text "signerArchAddress", .string signerArchAddress), (text "at", .number now)]
  writeStorage taken observationKey (Json.write observation) storage

def forgetSignerObservation (taken : Bool) (storage : Storage) : Storage :=
  clearStorage taken observationKey storage

/-- The signer that a stored observation names, and the accounts that were seen. -/
def storedCandidates (storage : Storage) (exclude : JsString) (extra : List (Option JsString)) :
    List JsString :=
  let observed := (signerObservation (ν := ν) storage).map (·.signerArchAddress)
  let ordered := extra ++ observed :: (seenAccounts ν storage).map some
  ordered.foldl (fun out candidate =>
    match candidate with
    | none => out
    | some candidate =>
        if isCandidate env exclude out candidate then out ++ [candidate] else out) []

end

/-! ## Calls -/

/-- What the page calls, with what the browser does with the writes of the call. -/
inductive RegistryCall (ν : Type) where
  | seen (address : Option JsString) (taken : Bool)
  | observed (reportedArchAddress signerArchAddress : JsString) (now : ν) (takenSeen taken : Bool)
  | forgotten (taken : Bool)

section
variable {ν : Type} [JsNumber ν] (env : Environment)

def RegistryCall.run : RegistryCall ν → Storage → Storage
  | .seen address taken => rememberSeenAccount ν env taken address
  | .observed reported signer now takenSeen taken =>
      rememberSignerObservation env takenSeen taken reported signer now
  | .forgotten taken => forgetSignerObservation taken

/-- The storage after the calls, newest first. -/
def storageAfter : List (RegistryCall ν) → Storage
  | [] => fun _ => none
  | call :: earlier => call.run env (storageAfter earlier)

end

end Manager

end ArchNameService
