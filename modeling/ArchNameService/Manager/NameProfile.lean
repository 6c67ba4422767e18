import Mathlib.Logic.Function.Basic
import ArchNameService.Lib.History
import ArchNameService.Sdk.Client

/-!
# The profile cache of the manager

`name-profile.ts`: the cache of loaded profiles, the map of fetches in flight, and
what each turn of the event loop does to them. A fetch is started by a load, comes
back from the network, is stored by the `then` of its promise, released by the
`finally`, and then returned to the loads that wait for it. A fetch is one reading of
the ledger; the cache of accounts in the transport beneath it is left out.
-/

namespace ArchNameService

namespace Manager
open JsString
open Sdk (text)

/-- The revision and the text of a text record, as the page shows them. -/
def textFromRecord : Option Sdk.RecordAccount → Option (UInt64 × JsString)
  | none => none
  | some record =>
      match record.value with
      | .text _ value => some (record.revision, value)
      | _ => none

/-- `PROFILE_TTL_MS`. -/
def profileTtlMs : Int := 15000

/-- A loaded profile, or the error that is shown instead; with the fetch that it comes from. -/
structure CacheEntry (ρ : Type) where
  expiresAt : Int
  result : ρ
  fetch : Nat

/-- A fetch that throws has no entry. -/
inductive FetchPhase (ρ : Type) where
  | running
  | settled (entry : Option (CacheEntry ρ))
  | stored (entry : CacheEntry ρ)
  | released (entry : Option (CacheEntry ρ))

structure Fetch (ρ : Type) where
  key : JsString
  phase : FetchPhase ρ

/-- What a call of `loadNameProfile` will return. -/
inductive Awaited (ρ : Type) where
  | hit (entry : CacheEntry ρ)
  | fetch (f : Nat)

structure ProfileCache (ρ : Type) where
  now : Int
  cache : JsString → Option (CacheEntry ρ)
  inflight : JsString → Option Nat
  fetches : Nat → Option (Fetch ρ)
  nextFetch : Nat
  loads : Nat → Option (Awaited ρ)
  nextLoad : Nat

/-- What happens, in the order of the event loop. A load tells which fetch it starts. -/
inductive CacheEvent (ρ : Type) where
  | load (l : Nat) (canonicalName : JsString) (ownerArchAddress : Option JsString)
      (started : Option Nat)
  | complete (f : Nat) (result : Option ρ)
  | store (f : Nat)
  | release (f : Nat)
  | returned (l : Nat) (entry : CacheEntry ρ)
  | clock (now : Int)
  | invalidate (canonicalName : Option JsString)

def cacheKey (canonicalName : JsString) (ownerArchAddress : Option JsString) : JsString :=
  canonicalName ++ text "|" ++ ownerArchAddress.getD []

/-- The keys that an invalidation drops: all of them where there is no name. -/
def invalidates (canonicalName : Option JsString) (key : JsString) : Bool :=
  match canonicalName with
  | none | some [] => true
  | some canonicalName => startsWith (canonicalName ++ text "|") key

namespace ProfileCache
variable {ρ : Type} (s : ProfileCache ρ)

def initial (ρ : Type) (now : Int) : ProfileCache ρ :=
  { now, cache := fun _ => none, inflight := fun _ => none, fetches := fun _ => none, nextFetch := 0
    loads := fun _ => none, nextLoad := 0 }

def await (awaited : Awaited ρ) : ProfileCache ρ :=
  { s with loads := Function.update s.loads s.nextLoad (some awaited), nextLoad := s.nextLoad + 1 }

def setPhase (f : Nat) (fetch : Fetch ρ) (phase : FetchPhase ρ) : ProfileCache ρ :=
  { s with fetches := Function.update s.fetches f (some { fetch with phase }) }

variable {s} in
@[simp] theorem setPhase_self {f : Nat} {fetch : Fetch ρ} {phase : FetchPhase ρ} :
    (s.setPhase f fetch phase).fetches f = some { fetch with phase } := Function.update_self ..

variable {s} in
theorem setPhase_of_ne {f g : Nat} {fetch : Fetch ρ} {phase : FetchPhase ρ} (h : g ≠ f) :
    (s.setPhase f fetch phase).fetches g = s.fetches g := Function.update_of_ne h ..

/-- The call, up to its first `await`, and the fetch that it starts. -/
def loadNameProfile (canonicalName : JsString) (ownerArchAddress : Option JsString) :
    Option Nat × ProfileCache ρ :=
  let key := cacheKey canonicalName ownerArchAddress
  match (s.cache key).filter fun hit => s.now < hit.expiresAt with
  | some hit => (none, s.await (.hit hit))
  | none =>
      match s.inflight key with
      | some pending => (none, s.await (.fetch pending))
      | none =>
          let f := s.nextFetch
          (some f,
            { s with
              fetches := Function.update s.fetches f (some { key, phase := .running })
              inflight := Function.update s.inflight key (some f)
              nextFetch := f + 1 }.await (.fetch f))

def complete (f : Nat) (result : Option ρ) : Option (ProfileCache ρ) :=
  match s.fetches f with
  | some { key, phase := .running } =>
      let entry := result.map fun result => { expiresAt := s.now + profileTtlMs, result, fetch := f }
      some (s.setPhase f { key, phase := .running } (.settled entry))
  | _ => none

/-- `cache.set(key, entry)`. -/
def store (f : Nat) : Option (ProfileCache ρ) :=
  match s.fetches f with
  | some { key, phase := .settled (some entry) } =>
      some { s.setPhase f { key, phase := .settled (some entry) } (.stored entry) with
        cache := Function.update s.cache key (some entry) }
  | _ => none

/-- `inflight.delete(key)`, also where the fetch has thrown. -/
def release (f : Nat) : Option (ProfileCache ρ) :=
  match s.fetches f with
  | some { key, phase := .stored entry } =>
      some { s.setPhase f { key, phase := .stored entry } (.released (some entry)) with
        inflight := Function.update s.inflight key none }
  | some { key, phase := .settled none } =>
      some { s.setPhase f { key, phase := .settled none } (.released none) with
        inflight := Function.update s.inflight key none }
  | _ => none

/-- The entry that a load returns, once it is there. -/
def result (l : Nat) : Option (CacheEntry ρ) :=
  match s.loads l with
  | some (.hit entry) => some entry
  | some (.fetch f) =>
      match s.fetches f with
      | some { phase := .released entry, .. } => entry
      | _ => none
  | none => none

def invalidateNameProfile (canonicalName : Option JsString) : ProfileCache ρ :=
  { s with cache := fun key => if invalidates canonicalName key then none else s.cache key }

/-- One turn of the event loop. -/
inductive Step : ProfileCache ρ → CacheEvent ρ → ProfileCache ρ → Prop
  | load (s : ProfileCache ρ) (canonicalName : JsString) (ownerArchAddress : Option JsString) :
      Step s (.load s.nextLoad canonicalName ownerArchAddress
        (s.loadNameProfile canonicalName ownerArchAddress).1)
        (s.loadNameProfile canonicalName ownerArchAddress).2
  | complete {s s' : ProfileCache ρ} {f : Nat} {result : Option ρ} :
      s.complete f result = some s' → Step s (.complete f result) s'
  | store {s s' : ProfileCache ρ} {f : Nat} : s.store f = some s' → Step s (.store f) s'
  | release {s s' : ProfileCache ρ} {f : Nat} : s.release f = some s' → Step s (.release f) s'
  | returned {s : ProfileCache ρ} {l : Nat} {entry : CacheEntry ρ} :
      s.result l = some entry → Step s (.returned l entry) s
  | clock {s : ProfileCache ρ} {now : Int} : s.now ≤ now → Step s (.clock now) { s with now }
  | invalidate (s : ProfileCache ρ) (canonicalName : Option JsString) :
      Step s (.invalidate canonicalName) (s.invalidateNameProfile canonicalName)

end ProfileCache

end Manager

end ArchNameService
