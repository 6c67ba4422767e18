import ArchNameService.Manager.NameProfile

/-!
# Fresh profiles after an invalidation

Where no fetch of the invalidated keys is in flight, a load that is made later
returns a profile that was fetched later. Where one is, a later load may join it.
What a fetch itself may still be told of the past by the transport's own cache of
accounts is not part of this.
-/

namespace ArchNameService

namespace Manager
open JsString
open Sdk (text)

variable {ρ : Type}

/-- The entry of a fetch, once it has come back. -/
def FetchPhase.entry : FetchPhase ρ → Option (CacheEntry ρ)
  | .running => none
  | .settled entry => entry
  | .stored entry => some entry
  | .released entry => entry

/-- A load in the history has started the fetch. -/
def StartedIn (f : Nat) (history : List (CacheEvent ρ)) : Prop :=
  ∃ l canonicalName ownerArchAddress,
    CacheEvent.load l canonicalName ownerArchAddress (some f) ∈ history

/-- A load of an invalidated key in the history. -/
def LoadedIn (canonicalName : Option JsString) (l : Nat) (history : List (CacheEvent ρ)) : Prop :=
  ∃ loadedName ownerArchAddress started,
    CacheEvent.load l loadedName ownerArchAddress started ∈ history ∧
      invalidates canonicalName (cacheKey loadedName ownerArchAddress) = true

/-- Every load that is made after an invalidation of its key returns, if it returns, what was
fetched after that invalidation. -/
def Fresh (history : List (CacheEvent ρ)) : Prop :=
  ∀ later earlier canonicalName, history = later ++ .invalidate canonicalName :: earlier →
    ∀ l entry, LoadedIn canonicalName l later → CacheEvent.returned l entry ∈ later →
      StartedIn entry.fetch later

theorem StartedIn.cons {f : Nat} {history : List (CacheEvent ρ)} (h : StartedIn f history)
    (e : CacheEvent ρ) : StartedIn f (e :: history) := by
  obtain ⟨l, name, owner, hmem⟩ := h
  exact ⟨l, name, owner, List.mem_cons_of_mem e hmem⟩

/-- Only a load adds to what was loaded. -/
theorem LoadedIn.of_cons {canonicalName : Option JsString} {l : Nat} {history : List (CacheEvent ρ)}
    {e : CacheEvent ρ} (he : ∀ l name owner started, e ≠ .load l name owner started)
    (h : LoadedIn canonicalName l (e :: history)) : LoadedIn canonicalName l history := by
  obtain ⟨name, owner, started, hmem, hkey⟩ := h
  rcases List.mem_cons.mp hmem with rfl | hmem
  · exact absurd rfl (he _ _ _ _)
  · exact ⟨name, owner, started, hmem, hkey⟩

namespace ProfileCache

/-- No fetch of the keys that are dropped is in flight. -/
def Idle (s : ProfileCache ρ) (canonicalName : Option JsString) : Prop :=
  ∀ key, invalidates canonicalName key = true → s.inflight key = none

/-- A step that does not invalidate what is being fetched. -/
def QuietStep (s : ProfileCache ρ) (e : CacheEvent ρ) (s' : ProfileCache ρ) : Prop :=
  Step s e s' ∧ ∀ canonicalName, e = .invalidate canonicalName → s.Idle canonicalName

/-- A fetch is in flight under its key until it is released, and its entry is its own. -/
structure Wellformed (s : ProfileCache ρ) : Prop where
  inflight : ∀ f fetch, s.fetches f = some fetch → (∀ entry, fetch.phase ≠ .released entry) →
    s.inflight fetch.key = some f
  entry : ∀ f fetch entry, s.fetches f = some fetch → fetch.phase.entry = some entry →
    entry.fetch = f
  loads : ∀ l awaited, s.loads l = some awaited → l < s.nextLoad

/-! ## What a step does -/

theorem complete_cases {s s' : ProfileCache ρ} {f : Nat} {result : Option ρ}
    (h : s.complete f result = some s') : ∃ fetch phase, s.fetches f = some fetch ∧
      fetch.phase = .running ∧ s' = s.setPhase f fetch phase ∧
      (∀ entry, phase ≠ .released entry) ∧ ∀ entry, phase.entry = some entry → entry.fetch = f := by
  unfold complete at h
  split at h
  · rename_i key hfetch
    cases h
    refine ⟨_, _, hfetch, rfl, rfl, nofun, ?_⟩
    intro entry hentry
    obtain ⟨result, -, rfl⟩ := Option.map_eq_some_iff.mp hentry
    rfl
  · exact nomatch h

theorem store_cases {s s' : ProfileCache ρ} {f : Nat} (h : s.store f = some s') :
    ∃ fetch entry, s.fetches f = some fetch ∧ fetch.phase = .settled (some entry) ∧
      s' = { s.setPhase f fetch (.stored entry) with
        cache := Function.update s.cache fetch.key (some entry) } := by
  unfold store at h
  split at h
  · rename_i key entry hfetch
    cases h
    exact ⟨_, entry, hfetch, rfl, rfl⟩
  · exact nomatch h

theorem release_cases {s s' : ProfileCache ρ} {f : Nat} (h : s.release f = some s') :
    ∃ fetch, s.fetches f = some fetch ∧ (∀ entry, fetch.phase ≠ .released entry) ∧
      s' = { s.setPhase f fetch (.released fetch.phase.entry) with
        inflight := Function.update s.inflight fetch.key none } := by
  unfold release at h
  split at h
  · rename_i key entry hfetch
    cases h
    exact ⟨_, hfetch, nofun, rfl⟩
  · rename_i key hfetch
    cases h
    exact ⟨_, hfetch, nofun, rfl⟩
  · exact nomatch h

/-- A load awaits the entry of the cache, the fetch in flight, or the fetch that it starts. -/
theorem load_cases (s : ProfileCache ρ) (canonicalName : JsString)
    (ownerArchAddress : Option JsString) :
    (∃ hit, s.cache (cacheKey canonicalName ownerArchAddress) = some hit ∧
      s.loadNameProfile canonicalName ownerArchAddress = (none, s.await (.hit hit))) ∨
    (∃ f, s.inflight (cacheKey canonicalName ownerArchAddress) = some f ∧
      s.loadNameProfile canonicalName ownerArchAddress = (none, s.await (.fetch f))) ∨
    (s.inflight (cacheKey canonicalName ownerArchAddress) = none ∧
      s.loadNameProfile canonicalName ownerArchAddress = (some s.nextFetch,
        { s with
          fetches := Function.update s.fetches s.nextFetch
            (some { key := cacheKey canonicalName ownerArchAddress, phase := .running })
          inflight := Function.update s.inflight (cacheKey canonicalName ownerArchAddress)
            (some s.nextFetch)
          nextFetch := s.nextFetch + 1 }.await (.fetch s.nextFetch))) := by
  unfold loadNameProfile
  dsimp only
  cases hhit : (s.cache (cacheKey canonicalName ownerArchAddress)).filter
      fun hit => s.now < hit.expiresAt with
  | some hit => exact .inl ⟨hit, (Option.filter_eq_some_iff.mp hhit).1, rfl⟩
  | none =>
      cases hinflight : s.inflight (cacheKey canonicalName ownerArchAddress) with
      | some f => exact .inr (.inl ⟨f, rfl, rfl⟩)
      | none => exact .inr (.inr ⟨rfl, rfl⟩)

/-! ## Fetches in flight -/

theorem wellformed_initial (now : Int) : (initial ρ now).Wellformed := ⟨nofun, nofun, nofun⟩

/-- A phase is set that keeps the fetch in flight. -/
theorem Wellformed.setPhase {s : ProfileCache ρ} (hs : s.Wellformed) {f : Nat} {fetch : Fetch ρ}
    {phase : FetchPhase ρ} (hfetch : s.fetches f = some fetch)
    (hlive : ∀ entry, fetch.phase ≠ .released entry)
    (hentry : ∀ entry, phase.entry = some entry → entry.fetch = f) :
    (s.setPhase f fetch phase).Wellformed := by
  refine ⟨?_, ?_, hs.loads⟩
  · intro g other hother hphase
    by_cases hg : g = f
    · subst hg
      rw [setPhase_self, Option.some.injEq] at hother
      subst hother
      exact hs.inflight g fetch hfetch hlive
    · rw [setPhase_of_ne hg] at hother
      exact hs.inflight g other hother hphase
  · intro g other entry hother hphase
    by_cases hg : g = f
    · subst hg
      rw [setPhase_self, Option.some.injEq] at hother
      subst hother
      exact hentry entry hphase
    · rw [setPhase_of_ne hg] at hother
      exact hs.entry g other entry hother hphase

theorem Wellformed.await {s : ProfileCache ρ} (hs : s.Wellformed) (awaited : Awaited ρ) :
    (s.await awaited).Wellformed := by
  refine ⟨hs.inflight, hs.entry, fun l other hl => ?_⟩
  change l < s.nextLoad + 1
  by_cases hnext : l = s.nextLoad
  · exact hnext ▸ Nat.lt_succ_self _
  · have hold : s.loads l = some other := by
      rw [← hl]
      exact (Function.update_of_ne hnext ..).symm
    exact Nat.lt_succ_of_lt (hs.loads l other hold)

theorem Wellformed.step {s s' : ProfileCache ρ} {e : CacheEvent ρ} (hs : s.Wellformed)
    (h : Step s e s') : s'.Wellformed := by
  cases h with
  | load canonicalName ownerArchAddress =>
      rcases s.load_cases canonicalName ownerArchAddress with ⟨_, -, hload⟩ | ⟨_, -, hload⟩ |
        ⟨hnone, hload⟩
      · rw [hload]
        exact hs.await _
      · rw [hload]
        exact hs.await _
      · rw [hload]
        apply Wellformed.await
        refine ⟨fun f fetch hfetch hlive => ?_, fun f fetch entry hfetch hentry => ?_, hs.loads⟩
        · dsimp only at hfetch ⊢
          by_cases hf : f = s.nextFetch
          · subst hf
            rw [Function.update_self, Option.some.injEq] at hfetch
            subst hfetch
            exact Function.update_self ..
          · rw [Function.update_of_ne hf] at hfetch
            have hinflight := hs.inflight f fetch hfetch hlive
            have hkey : fetch.key ≠ cacheKey canonicalName ownerArchAddress := by
              intro hkey
              rw [hkey, hnone] at hinflight
              exact nomatch hinflight
            rw [Function.update_of_ne hkey]
            exact hinflight
        · dsimp only at hfetch
          by_cases hf : f = s.nextFetch
          · subst hf
            rw [Function.update_self, Option.some.injEq] at hfetch
            subst hfetch
            exact nomatch hentry
          · rw [Function.update_of_ne hf] at hfetch
            exact hs.entry f fetch entry hfetch hentry
  | complete h =>
      obtain ⟨fetch, phase, hfetch, hrunning, rfl, hlive, hentry⟩ := complete_cases h
      exact hs.setPhase hfetch (by rw [hrunning]; nofun) hentry
  | @store _ f h =>
      obtain ⟨fetch, entry, hfetch, hsettled, rfl⟩ := store_cases h
      have hown : entry.fetch = f := hs.entry _ fetch entry hfetch (by rw [hsettled]; rfl)
      have hset : (s.setPhase f fetch (.stored entry)).Wellformed :=
        hs.setPhase hfetch (by rw [hsettled]; nofun) (by rintro _ ⟨⟩; exact hown)
      exact ⟨hset.inflight, hset.entry, hset.loads⟩
  | @release _ f h =>
      obtain ⟨fetch, hfetch, hlive, rfl⟩ := release_cases h
      have hset : (s.setPhase f fetch (.released fetch.phase.entry)).Wellformed :=
        hs.setPhase hfetch hlive fun entry hentry => hs.entry f fetch entry hfetch hentry
      refine ⟨fun g other hother hphase => ?_, hset.entry, hset.loads⟩
      have hinflight := hset.inflight g other hother hphase
      -- the key of the released fetch has no other fetch in flight
      have hkey : other.key ≠ fetch.key := by
        intro hkey
        have hsame : s.inflight fetch.key = some g := hkey ▸ hinflight
        rw [hs.inflight f fetch hfetch hlive, Option.some.injEq] at hsame
        subst hsame
        rw [setPhase_self, Option.some.injEq] at hother
        subst hother
        exact hphase _ rfl
      change Function.update s.inflight fetch.key none other.key = some g
      rw [Function.update_of_ne hkey]
      exact hinflight
  | returned h => exact hs
  | clock h => exact ⟨hs.inflight, hs.entry, hs.loads⟩
  | invalidate canonicalName => exact ⟨hs.inflight, hs.entry, hs.loads⟩

theorem wellformed_of_run {now : Int} {history : List (CacheEvent ρ)} {s : ProfileCache ρ}
    (run : Run Step (initial ρ now) history s) : s.Wellformed :=
  run.invariant (I := fun _ s => s.Wellformed) (wellformed_initial now) fun _ hs h => hs.step h

/-! ## After an invalidation -/

/-- What the state can still return for the dropped keys was fetched in the history since. -/
structure FreshSince (canonicalName : Option JsString) (history : List (CacheEvent ρ))
    (s : ProfileCache ρ) : Prop where
  cache : ∀ key entry, invalidates canonicalName key = true → s.cache key = some entry →
    StartedIn entry.fetch history
  inflight : ∀ key f, invalidates canonicalName key = true → s.inflight key = some f →
    StartedIn f history
  hit : ∀ l entry, LoadedIn canonicalName l history → s.loads l = some (.hit entry) →
    StartedIn entry.fetch history
  fetch : ∀ l f, LoadedIn canonicalName l history → s.loads l = some (.fetch f) →
    StartedIn f history
  loaded : ∀ l, LoadedIn canonicalName l history → l < s.nextLoad
  known : ∀ l entry, CacheEvent.returned l entry ∈ history → l < s.nextLoad
  returned : ∀ l entry, LoadedIn canonicalName l history → CacheEvent.returned l entry ∈ history →
    StartedIn entry.fetch history

/-- The result of a load was fetched in the history since. -/
theorem FreshSince.result {canonicalName : Option JsString} {history : List (CacheEvent ρ)}
    {s : ProfileCache ρ} (h : s.FreshSince canonicalName history) (hs : s.Wellformed) {l : Nat}
    {entry : CacheEntry ρ} (hl : LoadedIn canonicalName l history) (hresult : s.result l = some entry) :
    StartedIn entry.fetch history := by
  unfold ProfileCache.result at hresult
  split at hresult
  · rename_i hit hawaited
    cases hresult
    exact h.hit l _ hl hawaited
  · rename_i f hawaited
    split at hresult
    · rename_i key released hfetch
      subst hresult
      rw [hs.entry f _ entry hfetch rfl]
      exact h.fetch l f hl hawaited
    · exact nomatch hresult
  · exact nomatch hresult

theorem result_known {s : ProfileCache ρ} (hs : s.Wellformed) {l : Nat} {entry : CacheEntry ρ}
    (hresult : s.result l = some entry) : l < s.nextLoad := by
  unfold ProfileCache.result at hresult
  split at hresult
  · rename_i hit hawaited
    exact hs.loads l _ hawaited
  · rename_i f hawaited
    exact hs.loads l _ hawaited
  · exact nomatch hresult

/-- A step that loads nothing and puts nothing old under the dropped keys. -/
theorem FreshSince.quiet {canonicalName : Option JsString} {history : List (CacheEvent ρ)}
    {s s' : ProfileCache ρ} {e : CacheEvent ρ} (h : s.FreshSince canonicalName history)
    (he : ∀ l name owner started, e ≠ .load l name owner started)
    (hcache : ∀ key entry, invalidates canonicalName key = true → s'.cache key = some entry →
      StartedIn entry.fetch history)
    (hinflight : ∀ key f, s'.inflight key = some f → s.inflight key = some f)
    (hloads : s'.loads = s.loads) (hnext : s'.nextLoad = s.nextLoad)
    (hreturned : ∀ l entry, e = .returned l entry → l < s.nextLoad ∧
      (LoadedIn canonicalName l history → StartedIn entry.fetch history)) : s'.FreshSince canonicalName (e :: history) := by
  refine ⟨fun key entry hkey hentry => (hcache key entry hkey hentry).cons e,
    fun key f hkey hf => (h.inflight key f hkey (hinflight key f hf)).cons e,
    fun l entry hl hentry => ?_, fun l f hl hf => ?_, fun l hl => ?_, fun l entry hentry => ?_,
    fun l entry hl hentry => ?_⟩
  · rw [hloads] at hentry
    exact (h.hit l entry (hl.of_cons he) hentry).cons e
  · rw [hloads] at hf
    exact (h.fetch l f (hl.of_cons he) hf).cons e
  · rw [hnext]
    exact h.loaded l (hl.of_cons he)
  · rw [hnext]
    rcases List.mem_cons.mp hentry with heq | hentry
    · exact (hreturned l entry heq.symm).1
    · exact h.known l entry hentry
  · rcases List.mem_cons.mp hentry with heq | hentry
    · exact ((hreturned l entry heq.symm).2 (hl.of_cons he)).cons e
    · exact (h.returned l entry (hl.of_cons he) hentry).cons e

/-- What a load awaits, as a fetch. -/
def awaitedFetch : Awaited ρ → Nat
  | .hit entry => entry.fetch
  | .fetch f => f

/-- A load, which awaits something fresh if its key was dropped. -/
theorem FreshSince.load {canonicalName : Option JsString} {history : List (CacheEvent ρ)}
    {s s' : ProfileCache ρ} {name : JsString} {owner : Option JsString} {started : Option Nat}
    {awaited : Awaited ρ} (h : s.FreshSince canonicalName history)
    (hcache : s'.cache = s.cache) (hloads : s'.loads = s.loads) (hnext : s'.nextLoad = s.nextLoad)
    (hinflight : ∀ key f, invalidates canonicalName key = true → s'.inflight key = some f →
      StartedIn f (.load s.nextLoad name owner started :: history))
    (hawaited : invalidates canonicalName (cacheKey name owner) = true →
      StartedIn (awaitedFetch awaited) (.load s.nextLoad name owner started :: history)) :
    (s'.await awaited).FreshSince canonicalName
      (.load s.nextLoad name owner started :: history) := by
  have hcases : ∀ l, LoadedIn canonicalName l (.load s.nextLoad name owner started :: history) →
      l = s.nextLoad ∧ invalidates canonicalName (cacheKey name owner) = true ∨
        LoadedIn canonicalName l history ∧ l ≠ s.nextLoad := by
    rintro l ⟨name', owner', started', hmem, hkey⟩
    rcases List.mem_cons.mp hmem with heq | hmem
    · cases heq
      exact .inl ⟨rfl, hkey⟩
    · have hl : LoadedIn canonicalName l history := ⟨name', owner', started', hmem, hkey⟩
      exact .inr ⟨hl, Nat.ne_of_lt (h.loaded l hl)⟩
  have hself : (s'.await awaited).loads s.nextLoad = some awaited := by
    rw [← hnext]
    exact Function.update_self ..
  have hother : ∀ l, l ≠ s.nextLoad → (s'.await awaited).loads l = s.loads l := by
    intro l hl
    rw [← hloads]
    exact Function.update_of_ne (hnext ▸ hl) ..
  refine ⟨fun key entry hkey hentry => ?_, hinflight, fun l entry hl hentry => ?_,
    fun l f hl hf => ?_, fun l hl => ?_, fun l entry hentry => ?_, fun l entry hl hentry => ?_⟩
  · have hold : s.cache key = some entry := hcache ▸ hentry
    exact (h.cache key entry hkey hold).cons _
  · rcases hcases l hl with ⟨rfl, hkey⟩ | ⟨hl, hne⟩
    · rw [hself, Option.some.injEq] at hentry
      subst hentry
      exact hawaited hkey
    · rw [hother l hne] at hentry
      exact (h.hit l entry hl hentry).cons _
  · rcases hcases l hl with ⟨rfl, hkey⟩ | ⟨hl, hne⟩
    · rw [hself, Option.some.injEq] at hf
      subst hf
      exact hawaited hkey
    · rw [hother l hne] at hf
      exact (h.fetch l f hl hf).cons _
  · change l < s'.nextLoad + 1
    rw [hnext]
    rcases hcases l hl with ⟨rfl, -⟩ | ⟨hl, -⟩
    · exact Nat.lt_succ_self _
    · exact Nat.lt_succ_of_lt (h.loaded l hl)
  · change l < s'.nextLoad + 1
    rw [hnext]
    rcases List.mem_cons.mp hentry with heq | hentry
    · exact nomatch heq
    · exact Nat.lt_succ_of_lt (h.known l entry hentry)
  · rcases List.mem_cons.mp hentry with heq | hentry
    · exact nomatch heq
    · rcases hcases l hl with ⟨rfl, -⟩ | ⟨hl, -⟩
      · exact absurd (h.known _ entry hentry) (Nat.lt_irrefl _)
      · exact (h.returned l entry hl hentry).cons _

theorem FreshSince.step {canonicalName : Option JsString} {history : List (CacheEvent ρ)}
    {s s' : ProfileCache ρ} {e : CacheEvent ρ} (h : s.FreshSince canonicalName history)
    (hs : s.Wellformed) (hstep : Step s e s') : s'.FreshSince canonicalName (e :: history) := by
  cases hstep with
  | load name owner =>
      rcases s.load_cases name owner with ⟨hit, hhit, hload⟩ | ⟨f, hf, hload⟩ | ⟨hnone, hload⟩
      · rw [hload]
        exact h.load rfl rfl rfl (fun key f hkey hf => (h.inflight key f hkey hf).cons _)
          fun hkey => (h.cache _ hit hkey hhit).cons _
      · rw [hload]
        exact h.load rfl rfl rfl (fun key f hkey hf => (h.inflight key f hkey hf).cons _)
          fun hkey => (h.inflight _ f hkey hf).cons _
      · have hstarted : StartedIn s.nextFetch
            (.load s.nextLoad name owner (some s.nextFetch) :: history) :=
          ⟨s.nextLoad, name, owner, List.mem_cons_self ..⟩
        rw [hload]
        refine h.load rfl rfl rfl (fun key f hkey hf => ?_) fun _ => hstarted
        change Function.update s.inflight (cacheKey name owner) (some s.nextFetch) key = some f at hf
        by_cases hsame : key = cacheKey name owner
        · subst hsame
          rw [Function.update_self, Option.some.injEq] at hf
          subst hf
          exact hstarted
        · rw [Function.update_of_ne hsame] at hf
          exact (h.inflight key f hkey hf).cons _
  | complete hstep =>
      obtain ⟨fetch, phase, -, -, rfl, -⟩ := complete_cases hstep
      exact h.quiet nofun h.cache (fun _ _ h => h) rfl rfl nofun
  | @store _ f hstep =>
      obtain ⟨fetch, entry, hfetch, hsettled, rfl⟩ := store_cases hstep
      refine h.quiet nofun (fun key other hkey hother => ?_) (fun _ _ h => h) rfl rfl nofun
      change Function.update s.cache fetch.key (some entry) key = some other at hother
      by_cases hsame : key = fetch.key
      · subst hsame
        rw [Function.update_self, Option.some.injEq] at hother
        subst hother
        have hinflight := hs.inflight f fetch hfetch (by rw [hsettled]; nofun)
        rw [hs.entry f fetch entry hfetch (by rw [hsettled]; rfl)]
        exact h.inflight fetch.key f hkey hinflight
      · rw [Function.update_of_ne hsame] at hother
        exact h.cache key other hkey hother
  | release hstep =>
      obtain ⟨fetch, -, -, rfl⟩ := release_cases hstep
      refine h.quiet nofun h.cache (fun key g hg => ?_) rfl rfl nofun
      change Function.update s.inflight fetch.key none key = some g at hg
      by_cases hsame : key = fetch.key
      · subst hsame
        rw [Function.update_self] at hg
        exact nomatch hg
      · rw [Function.update_of_ne hsame] at hg
        exact hg
  | returned hresult =>
      refine h.quiet nofun h.cache (fun _ _ h => h) rfl rfl fun l entry heq => ?_
      cases heq
      exact ⟨result_known hs hresult, fun hl => h.result hs hl hresult⟩
  | clock _ => exact h.quiet nofun h.cache (fun _ _ h => h) rfl rfl nofun
  | invalidate other =>
      refine h.quiet nofun (fun key entry hkey hentry => ?_) (fun _ _ h => h) rfl rfl nofun
      simp only [invalidateNameProfile] at hentry
      split at hentry
      · exact nomatch hentry
      · exact h.cache key entry hkey hentry

theorem freshSince_invalidate {s : ProfileCache ρ} {canonicalName : Option JsString}
    (hidle : s.Idle canonicalName) :
    (s.invalidateNameProfile canonicalName).FreshSince canonicalName [] := by
  have hloaded : ∀ l, ¬ LoadedIn canonicalName l ([] : List (CacheEvent ρ)) := by
    rintro l ⟨_, _, _, hmem, -⟩
    exact nomatch hmem
  refine ⟨fun key entry hkey hentry => ?_, fun key f hkey hf => ?_, fun l _ hl => absurd hl (hloaded l),
    fun l _ hl => absurd hl (hloaded l), fun l hl => absurd hl (hloaded l), nofun,
    fun l _ hl => absurd hl (hloaded l)⟩
  · simp only [invalidateNameProfile, hkey, if_true] at hentry
    exact nomatch hentry
  · have hnone := hidle key hkey
    exact nomatch hnone.symm.trans hf

end ProfileCache

/-- In every run that invalidates only what is not being fetched, a load returns nothing that was
fetched before an invalidation of its key. -/
theorem invalidation_effective {now : Int} {history : List (CacheEvent ρ)} {s : ProfileCache ρ}
    (run : Run ProfileCache.QuietStep (.initial ρ now) history s) : Fresh history := by
  rintro later earlier canonicalName rfl l entry hl hreturned
  obtain ⟨t, t', hearlier, ⟨hstep, hidle⟩, hlater⟩ := run.before
  have hwellformed := ProfileCache.wellformed_of_run (hearlier.mono fun h => h.1)
  cases hstep
  have hfresh := hlater.invariant
    (I := fun history s => s.Wellformed ∧ s.FreshSince canonicalName history)
    ⟨⟨hwellformed.inflight, hwellformed.entry, hwellformed.loads⟩,
      ProfileCache.freshSince_invalidate (hidle canonicalName rfl)⟩
    fun _ hs h => ⟨hs.1.step h.1, hs.2.step hs.1 h.1⟩
  exact hfresh.2.returned l entry hl hreturned

namespace Alice
open ProfileCache

def name : JsString := text "alice.arch"
def before : JsString := text "before"
def after : JsString := text "after"

/-- The second load is made while the first is still fetched, and joins it. -/
def joined : List (CacheEvent JsString) :=
  [.returned 1 { expiresAt := 15000, result := before, fetch := 0 }, .release 0, .store 0,
    .complete 0 (some before), .load 1 name none none, .invalidate (some name),
    .load 0 name none (some 0)]

/-- The second load is made once the first has returned. -/
def reloaded : List (CacheEvent JsString) :=
  [.returned 1 { expiresAt := 15000, result := after, fetch := 1 }, .release 1, .store 1,
    .complete 1 (some after), .load 1 name none (some 1), .invalidate (some name),
    .returned 0 { expiresAt := 15000, result := before, fetch := 0 }, .release 0, .store 0,
    .complete 0 (some before), .load 0 name none (some 0)]

theorem joined_run : ∃ s, Run Step (.initial JsString 0) joined s :=
  ⟨_, .step (.step (.step (.step (.step (.step (.step .refl (.load _ name none))
    (.invalidate _ (some name))) (.load _ name none)) (.complete rfl)) (.store rfl)) (.release rfl))
    (.returned rfl)⟩

/-- The first fetch has been released when the profile is invalidated. -/
theorem released_idle {k key : JsString} {f : Nat} :
    Function.update (Function.update (fun _ => none) k (some f)) k none key = none := by
  by_cases hkey : key = k
  · rw [hkey, Function.update_self]
  · rw [Function.update_of_ne hkey, Function.update_of_ne hkey]

theorem reloaded_run : ∃ s, Run QuietStep (.initial JsString 0) reloaded s :=
  ⟨_, .step (.step (.step (.step (.step (.step (.step (.step (.step (.step (.step .refl
    ⟨.load _ name none, nofun⟩) ⟨.complete rfl, nofun⟩) ⟨.store rfl, nofun⟩) ⟨.release rfl, nofun⟩)
    ⟨.returned rfl, nofun⟩) ⟨.invalidate _ (some name), fun _ _ _ _ => released_idle⟩)
    ⟨.load _ name none, nofun⟩) ⟨.complete rfl, nofun⟩) ⟨.store rfl, nofun⟩) ⟨.release rfl, nofun⟩)
    ⟨.returned rfl, nofun⟩⟩

end Alice

/-- Alice's profile is being fetched when it is invalidated, and the load after that shows it. -/
theorem joined_stale : (∃ s, Run ProfileCache.Step (.initial JsString 0) Alice.joined s) ∧
    ¬ Fresh Alice.joined := by
  refine ⟨Alice.joined_run, fun h => ?_⟩
  obtain ⟨l, name, owner, hmem⟩ := h
    [.returned 1 { expiresAt := 15000, result := Alice.before, fetch := 0 }, .release 0, .store 0,
      .complete 0 (some Alice.before), .load 1 Alice.name none none]
    [.load 0 Alice.name none (some 0)] (some Alice.name) rfl 1
    { expiresAt := 15000, result := Alice.before, fetch := 0 }
    ⟨Alice.name, none, none, by simp, by decide⟩ (List.mem_cons_self ..)
  simp at hmem

theorem reloaded_fresh : Fresh Alice.reloaded := by
  obtain ⟨_, run⟩ := Alice.reloaded_run
  exact invalidation_effective run

end Manager

end ArchNameService
