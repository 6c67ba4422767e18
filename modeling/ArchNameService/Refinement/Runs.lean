import ArchNameService.Refinement.Idl
import ArchNameService.Model.Traces

/-!
# Runs of the program

A run is any sequence of calls of the program, accepted or refused, and of what
the rest of the chain does in between. It is matched, action by action, by a run
of the registry.
-/

namespace ArchNameService
open Deployment

/-- A top-level instruction to the program. -/
structure Call where
  accounts : List AccountInfo
  data : List UInt8
  deriving DecidableEq

/-- The registry instruction that a call carries, with the account that signs it. -/
def Call.action? (c : Call) : Option Action :=
  match Idl.payload? c.data with
  | some _ => none
  | none => (NameInstruction.deserialize c.data).bind fun instruction =>
      (signer? c.accounts).map fun signer => ⟨signer, instruction⟩

inductive Event where
  | accepted (c : Call)
  | refused (c : Call)
  | deposit
  | outside

namespace Event

def action? : Event → Option Action
  | .accepted c => c.action?
  | _ => none

/-- A call of the program, accepted or refused. -/
def isCall : Event → Prop
  | .accepted _ | .refused _ => True
  | .deposit | .outside => False

/-- An instruction of the registry, or a step that does not reach the program's accounts. -/
def ofRegistry : Event → Prop
  | .accepted c => c.action?.isSome
  | .refused _ | .deposit => True
  | .outside => False

end Event

theorem signer?_mem {accounts : List AccountInfo} {signer : ArchAddress} (h : signer? accounts = some signer) :
    ∃ info ∈ accounts, info.isSigner = true ∧ info.key = signer := by
  cases accounts with
  | nil => exact nomatch h
  | cons info rest =>
      simp only [signer?, Option.ite_none_right_eq_some, Option.some.injEq] at h
      exact ⟨info, List.mem_cons_self, h.1, h.2⟩

theorem Call.signer_of_action {c : Call} {a : Action} (h : c.action? = some a) :
    ∃ info ∈ c.accounts, info.isSigner = true ∧ info.key = a.signer := by
  unfold Call.action? at h
  split at h
  · exact nomatch h
  · simp only [Option.bind_eq_some_iff, Option.map_eq_some_iff] at h
    obtain ⟨instruction, -, signer, hsigner, rfl⟩ := h
    exact signer?_mem hsigner

variable [Deployment]

/-- No derived account in play signs the call. -/
def Event.SignedOutside (S : Scope) : Event → Prop
  | .accepted c => ∀ info ∈ c.accounts, info.isSigner = true → ¬ S.Derived info.key
  | _ => True

/-- What other programs can do: the derived accounts in play stay as they are, and
lose no lamports. -/
structure Outside (S : Scope) (L L' : Ledger) : Prop where
  owner : ∀ s ∈ S, L'.owner s.address = L.owner s.address
  data : ∀ s ∈ S, L'.data s.address = L.data s.address
  lamports : ∀ s ∈ S, L.lamports s.address ≤ L'.lamports s.address

/-- A call works on the accounts in play, and is rolled back when it fails. A
deposit leaves all accounts of the program as they are; any other step outside
the program may also create such accounts. -/
inductive Ledger.Step (S : Scope) : Ledger → Event → Ledger → Prop
  | accepted {L L' : Ledger} {c : Call} (h : processInstruction L c.accounts c.data = .ok L')
      (hsites : ∀ a, c.action? = some a → a.sites.Forall (· ∈ S)) : Step S L (.accepted c) L'
  | refused {L : Ledger} {c : Call} {e : Abort ProgramError}
      (h : processInstruction L c.accounts c.data = .error e) : Step S L (.refused c) L
  | deposit {L L' : Ledger} (h : Outside S L L') (hcontent : ∀ k, L'.content k = L.content k) :
      Step S L .deposit L'
  | outside {L L' : Ledger} (h : Outside S L L') : Step S L .outside L'

/-- The program has no accounts yet. -/
def Genesis (L : Ledger) : Prop := ∀ k, L.owner k ≠ programId

/-- Nobody has used the derived accounts in play. -/
def Untouched (S : Scope) (L : Ledger) : Prop :=
  ∀ s ∈ S, L.owner s.address = systemProgram ∧ L.data s.address = []

/-- The actions of a history. -/
abbrev actions (history : List Event) : List Action := history.filterMap Event.action?

variable {S : Scope} {decoys : Prop} {L L' L₀ L₁ L₂ : Ledger} {R R₁ : Registry}
  {accounts : List AccountInfo} {c : Call} {history later : List Event}

/-! ## One call -/

theorem dispatch_refines {instruction : NameInstruction} (agrees : Agrees S L R.content)
    (hdecoys : Enclosed S L ∨ decoys) (hsites : InScope S accounts instruction)
    (h : dispatch L accounts instruction = .ok L') :
    ∃ signer, signer? accounts = some signer ∧ Refines S decoys R ⟨signer, instruction⟩ L L' := by
  cases instruction with
  | initializeRegistry => exact initializeRegistry_refines agrees hsites h
  | register => exact register_refines agrees hsites h
  | transfer => exact transfer_refines agrees hsites h
  | setRecord => exact setRecord_refines agrees hsites h
  | deleteRecord => exact deleteRecord_refines agrees hsites h
  | setPrimary => exact setPrimary_refines agrees hsites h
  | clearPrimary => exact clearPrimary_refines agrees hdecoys h
  | listName => exact listName_refines agrees hsites h
  | cancelListing => exact cancelListing_refines agrees hsites h
  | buyName => exact buyName_refines agrees hsites h
  | makeOffer => exact makeOffer_refines agrees hsites h
  | cancelOffer => exact cancelOffer_refines agrees hsites h
  | acceptOffer => exact acceptOffer_refines agrees hsites h
  | renew | reclaimExpired | updateConfig => exact (Outcome.throw_ok.mp h).elim

theorem processInstruction_refines (agrees : Agrees S L R.content)
    (hdecoys : Enclosed S L ∨ decoys)
    (hsites : ∀ a, c.action? = some a → a.sites.Forall (· ∈ S))
    (h : processInstruction L c.accounts c.data = .ok L') :
    (∃ a, c.action? = some a ∧ Refines S decoys R a L L') ∨
      c.action? = none ∧ Idl.Effect S c.accounts L L' := by
  simp only [processInstruction] at h
  cases hpayload : Idl.payload? c.data with
  | some payload =>
      rw [hpayload] at h
      exact .inr ⟨by simp only [Call.action?, hpayload], Idl.process_effect agrees h⟩
  | none =>
      rw [hpayload] at h
      simp only [Outcome.bind_ok, Outcome.orElseError_ok] at h
      obtain ⟨instruction, hdeserialize, hdispatch⟩ := h
      have haction : ∀ signer, signer? c.accounts = some signer →
          c.action? = some ⟨signer, instruction⟩ := by
        intro signer hsigner
        simp only [Call.action?, hpayload, hdeserialize, hsigner, Option.bind_some, Option.map_some]
      obtain ⟨signer, hsigner, hrefines⟩ := dispatch_refines agrees hdecoys
        (fun signer hsigner => hsites _ (haction signer hsigner)) hdispatch
      exact .inl ⟨_, haction signer hsigner, hrefines⟩

omit [Deployment] in
/-- A serialized registry instruction is not taken for an IDL instruction. -/
theorem Idl.payload?_serialize (instruction : NameInstruction) :
    Idl.payload? (Borsh.serialize instruction) = none := by
  obtain ⟨kind, rest, hserialize⟩ : ∃ (kind : NameInstruction.Kind) (rest : List UInt8),
      Borsh.serialize instruction = UInt8.ofNat kind.index :: rest := by
    cases instruction <;> exact ⟨_, _, rfl⟩
  have htag : UInt8.ofNat kind.index ≠ 0x40 := by cases kind <;> decide
  rw [Idl.payload?, hserialize, if_pos]
  refine .inr fun h => htag ?_
  rw [List.take_succ_cons] at h
  exact (List.cons.inj h).1

omit [Deployment] in
theorem NameInstruction.deserialize_serialize (instruction : NameInstruction) :
    NameInstruction.deserialize (Borsh.serialize instruction) = some instruction := by
  have hfront := Borsh.deserialize_append instruction []
  rw [List.append_nil] at hfront
  rw [NameInstruction.deserialize, hfront]
  rfl

theorem processInstruction_serialize (L : Ledger) (accounts : List AccountInfo)
    (instruction : NameInstruction) :
    processInstruction L accounts (Borsh.serialize instruction) = dispatch L accounts instruction := by
  simp only [processInstruction, Idl.payload?_serialize, NameInstruction.deserialize_serialize]
  rfl

/-- A call that carries a registry instruction is dispatched on it. -/
theorem dispatch_of_action {a : Action} (haction : c.action? = some a)
    (h : processInstruction L c.accounts c.data = .ok L') :
    signer? c.accounts = some a.signer ∧ dispatch L c.accounts a.instruction = .ok L' := by
  unfold Call.action? at haction
  unfold processInstruction at h
  cases hpayload : Idl.payload? c.data with
  | some payload =>
      rw [hpayload] at haction
      exact nomatch haction
  | none =>
      rw [hpayload] at haction h
      simp only [Option.bind_eq_some_iff, Option.map_eq_some_iff] at haction
      obtain ⟨instruction, hdeserialize, signer, hsigner, rfl⟩ := haction
      simp only [Outcome.bind_ok, Outcome.orElseError_ok, hdeserialize, Option.some.injEq,
        exists_eq_left'] at h
      exact ⟨hsigner, h⟩

/-! ## Runs -/

/-- What a run from agreement preserves. -/
structure Corresponds (S : Scope) (L₁ : Ledger) (R₁ : Registry) (later : List Event) (L₂ : Ledger)
    (R₂ : Registry) : Prop where
  agrees : Agrees S L₂ R₂.content
  enclosed : Enclosed S L₁ → (∀ e ∈ later, e.ofRegistry) → Enclosed S L₂
  clean : Clean S L₁ → Clean S L₂
  total : (∀ e ∈ later, e.isCall) → L₂.total = L₁.total
  funded : (∀ e ∈ later, e.SignedOutside S) → Funded S L₁ R₁.content R₁.escrow →
    Funded S L₂ R₂.content R₂.escrow

theorem Idl.Effect.content (effect : Idl.Effect S accounts L L') {s : Site} (hs : s ∈ S) :
    L'.content s.address = L.content s.address := by
  simp only [Ledger.content, effect.owner s hs, effect.data s hs]

theorem Outside.content (outside : Outside S L L') {s : Site} (hs : s ∈ S) :
    L'.content s.address = L.content s.address := by
  simp only [Ledger.content, outside.owner s hs, outside.data s hs]

/-- One step of a run, matched by an action of the registry or by none. -/
theorem Ledger.Step.corresponds {e : Event} {R : Registry}
    (corresponds : Corresponds S L₁ R₁ later L R) (step : Ledger.Step S L e L')
    (hdecoys : (Enclosed S L₁ ∧ (∀ e ∈ later, e.ofRegistry)) ∨ decoys) :
    (∃ a R', e.action? = some a ∧ R.Step decoys a R' ∧
        Corresponds S L₁ R₁ (e :: later) L' R') ∨
      e.action? = none ∧ Corresponds S L₁ R₁ (e :: later) L' R := by
  have hlater : ∀ {p : Event → Prop}, (∀ d ∈ e :: later, p d) → ∀ d ∈ later, p d :=
    fun h d hd => h d (List.mem_cons_of_mem e hd)
  cases step with
  | accepted h hsites =>
      have henclosed : Enclosed S L ∨ decoys :=
        hdecoys.imp_left fun h => corresponds.enclosed h.1 h.2
      obtain ⟨a, haction, R', hstep, lands⟩ | ⟨haction, effect⟩ :=
        processInstruction_refines corresponds.agrees henclosed hsites h
      · refine .inl ⟨a, R', haction, hstep, ?_⟩
        exact
          { agrees := lands.agrees
            enclosed := fun h hregistry => lands.enclosed (corresponds.enclosed h (hlater hregistry))
            clean := fun h => (corresponds.clean h).yields (lands.yields (corresponds.clean h))
            total := fun hcalls => lands.total.trans (corresponds.total (hlater hcalls))
            funded := fun hsigned funded => by
              obtain ⟨info, hmem, hsigner, hkey⟩ := Call.signer_of_action haction
              refine lands.funded ?_ (corresponds.funded (hlater hsigned) funded)
              rw [← hkey]
              exact hsigned _ List.mem_cons_self info hmem hsigner }
      · refine .inr ⟨haction, ?_⟩
        exact
          { agrees := fun s hs => by rw [effect.content hs, corresponds.agrees s hs]
            enclosed := fun _ hregistry => by
              have hsome := hregistry _ List.mem_cons_self
              simp only [Event.ofRegistry, haction, Option.isSome_none] at hsome
              exact nomatch hsome
            clean := fun h s hs => by
              rw [effect.owner s hs, effect.data s hs]
              exact corresponds.clean h s hs
            total := fun hcalls => effect.total.trans (corresponds.total (hlater hcalls))
            funded := fun hsigned funded s hs hne => by
              obtain ⟨p, ⟨info, hmem, hsigner, rfl⟩, hspares⟩ := effect.spares
              have hp := hsigned _ List.mem_cons_self info hmem hsigner
              exact Nat.le_trans (corresponds.funded (hlater hsigned) funded s hs hne)
                (UInt64.le_iff_toNat_le.mp (hspares s hs fun h => hp ⟨s, hs, h⟩)) }
  | refused =>
      refine .inr ⟨rfl, ?_⟩
      exact
        { agrees := corresponds.agrees
          enclosed := fun h hregistry => corresponds.enclosed h (hlater hregistry)
          clean := corresponds.clean
          total := fun hcalls => corresponds.total (hlater hcalls)
          funded := fun hsigned => corresponds.funded (hlater hsigned) }
  | deposit outside hcontent =>
      refine .inr ⟨rfl, ?_⟩
      exact
        { agrees := corresponds.agrees.of_content hcontent
          enclosed := fun h hregistry => (corresponds.enclosed h (hlater hregistry)).of_content hcontent
          clean := fun h s hs => by
            rw [outside.owner s hs, outside.data s hs]
            exact corresponds.clean h s hs
          total := fun hcalls => (hcalls _ List.mem_cons_self).elim
          funded := fun hsigned funded s hs hne =>
            Nat.le_trans (corresponds.funded (hlater hsigned) funded s hs hne)
              (UInt64.le_iff_toNat_le.mp (outside.lamports s hs)) }
  | outside outside =>
      refine .inr ⟨rfl, ?_⟩
      exact
        { agrees := fun s hs => by rw [outside.content hs, corresponds.agrees s hs]
          enclosed := fun _ hregistry => (hregistry _ List.mem_cons_self).elim
          clean := fun h s hs => by
            rw [outside.owner s hs, outside.data s hs]
            exact corresponds.clean h s hs
          total := fun hcalls => (hcalls _ List.mem_cons_self).elim
          funded := fun hsigned funded s hs hne =>
            Nat.le_trans (corresponds.funded (hlater hsigned) funded s hs hne)
              (UInt64.le_iff_toNat_le.mp (outside.lamports s hs)) }

theorem Agrees.corresponds (agrees : Agrees S L R.content) : Corresponds S L R [] L R :=
  { agrees
    enclosed := fun h _ => h
    clean := id
    total := fun _ => rfl
    funded := fun _ => id }

/-- A run of the program is a run of the registry. -/
theorem Agrees.run (agrees : Agrees S L₁ R₁.content) (run : Run (Ledger.Step S) L₁ later L₂) :
    ∃ R₂, Run (Registry.Step True) R₁ (actions later) R₂ ∧ Corresponds S L₁ R₁ later L₂ R₂ :=
  run.simulate agrees.corresponds fun corresponds step =>
    step.corresponds corresponds (.inr trivial)

/-- A run of registry instructions alone is a run of the registry without decoys. -/
theorem Agrees.registryRun (agrees : Agrees S L₁ R₁.content) (enclosed : Enclosed S L₁)
    (run : Run (Ledger.Step S) L₁ later L₂) (hregistry : ∀ e ∈ later, e.ofRegistry) :
    ∃ R₂, Run (Registry.Step False) R₁ (actions later) R₂ ∧ Corresponds S L₁ R₁ later L₂ R₂ := by
  have hsimulated : ∃ R₂, Run (Registry.Step False) R₁ (actions later) R₂ ∧
      Corresponds S L₁ R₁ later L₂ R₂ ∧ ∀ e ∈ later, e.ofRegistry := by
    refine (run.restrict hregistry).simulate
      (R := fun later L R => Corresponds S L₁ R₁ later L R ∧ ∀ e ∈ later, e.ofRegistry)
      ⟨agrees.corresponds, fun e he => nomatch he⟩ ?_
    intro later L e L' R ⟨corresponds, hlater⟩ ⟨step, he⟩
    have hall : ∀ d ∈ e :: later, d.ofRegistry := List.forall_mem_cons.mpr ⟨he, hlater⟩
    have henclosed : (Enclosed S L₁ ∧ ∀ e ∈ later, e.ofRegistry) ∨ False := .inl ⟨enclosed, hlater⟩
    obtain ⟨a, R', haction, hstep, h⟩ | ⟨haction, h⟩ := step.corresponds corresponds henclosed
    · exact .inl ⟨a, R', haction, hstep, h, hall⟩
    · exact .inr ⟨haction, h, hall⟩
  obtain ⟨R₂, hrun, corresponds, -⟩ := hsimulated
  exact ⟨R₂, hrun, corresponds⟩

/-- An accepted registry instruction is a step that the registry allows. -/
theorem Agrees.step_of_accepted {a : Action} (agrees : Agrees S L R.content)
    (step : Ledger.Step S L (.accepted c) L') (haction : c.action? = some a) :
    ∃ R', R.Step True a R' ∧ Agrees S L' R'.content := by
  obtain ⟨b, R', hb, hstep, corresponds⟩ | ⟨hnone, -⟩ :=
    step.corresponds agrees.corresponds (.inr trivial)
  · cases haction.symm.trans hb
    exact ⟨R', hstep, corresponds.agrees⟩
  · exact nomatch haction.symm.trans hnone

/-- An accepted registry instruction is dispatched, and works with accounts in play. -/
theorem Ledger.Step.dispatched {a : Action} (step : Ledger.Step S L (.accepted c) L')
    (haction : c.action? = some a) :
    a.sites.Forall (· ∈ S) ∧ InScope S c.accounts a.instruction ∧
      signer? c.accounts = some a.signer ∧ dispatch L c.accounts a.instruction = .ok L' := by
  cases step with
  | accepted hcall hsites =>
      obtain ⟨hsigner, hdispatch⟩ := dispatch_of_action haction hcall
      refine ⟨hsites a haction, fun signer h => ?_, hsigner, hdispatch⟩
      cases hsigner.symm.trans h
      exact hsites a haction

/-! ## From genesis -/

theorem Genesis.agrees (genesis : Genesis L) : Agrees S L Registry.empty.content := by
  intro s _
  rw [Registry.content_empty, Ledger.content, if_neg (genesis s.address)]

theorem Genesis.enclosed (genesis : Genesis L) : Enclosed S L := by
  intro k hk
  rw [Ledger.content, if_neg (genesis k)] at hk
  exact absurd rfl hk

theorem Genesis.funded : Funded S L Registry.empty.content Registry.empty.escrow := by
  intro s _ hne
  exact absurd (Registry.content_empty s) hne

theorem Untouched.clean (untouched : Untouched S L) : Clean S L := fun s hs => .inr (untouched s hs)

/-- Every ledger that a run reaches agrees with a registry that its actions reach. -/
theorem Genesis.reached (genesis : Genesis L₀) (run : Run (Ledger.Step S) L₀ history L) :
    ∃ R, Registry.Reached True (actions history) R ∧
      Corresponds S L₀ Registry.empty history L R :=
  genesis.agrees.run run

/-- A run from genesis, continued. -/
theorem Genesis.resumed (genesis : Genesis L₀) (run : Run (Ledger.Step S) L₀ history L)
    (rest : Run (Ledger.Step S) L later L') :
    ∃ R R', Registry.Reached True (actions history) R ∧ Agrees S L R.content ∧
      Run (Registry.Step True) R (actions later) R' ∧ Agrees S L' R'.content := by
  obtain ⟨R, hreached, corresponds⟩ := genesis.reached run
  obtain ⟨R', hrest, corresponds'⟩ := corresponds.agrees.run rest
  exact ⟨R, R', hreached, corresponds.agrees, hrest, corresponds'.agrees⟩

theorem sites_of_run (run : Run (Ledger.Step S) L₁ later L₂) :
    ∀ a ∈ actions later, a.sites.Forall (· ∈ S) := by
  induction run with
  | refl => exact fun a ha => nomatch ha
  | @step later L L' e run step ih =>
      intro a ha
      obtain ⟨d, hd, haction⟩ := List.mem_filterMap.mp ha
      rcases List.mem_cons.mp hd with rfl | hd
      · cases step with
        | accepted _ hsites => exact hsites a haction
        | refused | deposit | outside => exact nomatch haction
      · exact ih a (List.mem_filterMap.mpr ⟨d, hd, haction⟩)

end ArchNameService
