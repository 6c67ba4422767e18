import ArchNameService.Guarantees.Ownership

/-!
# Registration is unique and permanent

A label is registered once. From then on its name account is found, decoded and
taken, and nothing rewrites what registration fixed; the configuration is
written once.
-/

namespace ArchNameService
open Borsh (Str)
open Deployment

def Action.registersLabel (label : Str) (a : Action) : Bool :=
  match a.instruction with
  | .register l _ => l = label
  | _ => false

theorem Action.registers_of_registersLabel [Crypto] {label : Str} {a : Action}
    (h : a.registersLabel label = true) : a.registers (labelHash label.bytes) = true := by
  obtain ⟨signer, instruction⟩ := a
  cases instruction with
  | register l duration =>
      have hl : l = label := of_decide_eq_true h
      subst hl
      exact decide_eq_true rfl
  | _ => exact nomatch h

section
variable [Deployment] {S : Scope} {L L' L₀ : Ledger} {history later : List Event}

/-- The name account of a label, as everyone finds it. -/
structure Registered (L : Ledger) (label : Str) (name : NameAccount) : Prop where
  owned : L.owner (deriveNameAddress programId testnetNamespace.bytes name.nameHash) = programId
  decoded : decodeState (L.data (deriveNameAddress programId testnetNamespace.bytes name.nameHash)) =
    some name
  header : name.header.validate nameAccountDiscriminator = .ok ()
  canonical : name.canonicalLabel = label
  valid : validateLabel label.bytes = .ok ()
  hash : nameHash (label.bytes ++ archSuffix) = .ok name.nameHash
  permanent : name.expiresAtSlot = Transition.permanentExpiry
  taken : Availability.ensureProgramOwnedNameAvailable
    (L.data (deriveNameAddress programId testnetNamespace.bytes name.nameHash)) = .error .nameTaken

theorem Agrees.registered {R : Registry} (agrees : Agrees S L R.content) {h : Bytes 32}
    (hsite : .name h ∈ S) {n : Registration} (hname : R.name h = some n)
    (hhash : labelHash n.label.str.bytes = h) : Registered L n.label.str (n.account h) := by
  have hholds : Holds L (Site.name h).address (n.account h) := agrees.holds_name hsite hname
  exact
    { owned := hholds.1
      decoded := decodeState_eq_some.mpr hholds.2
      header := AccountHeader.validate_ok_iff.mpr rfl
      canonical := rfl
      valid := n.label.valid
      hash := nameHash_label.mpr ⟨n.label.valid, hhash⟩
      permanent := rfl
      taken := by
        change Availability.ensureProgramOwnedNameAvailable (L.data (Site.name h).address) = _
        rw [hholds.2]
        exact Availability.encoded_name_taken rfl }

/-- A registered label, and the name it has from then on. -/
theorem Registry.registered_of_mem {decoys : Prop} {R : Registry} {actions : List Action} {h : Bytes 32}
    (run : Reached decoys actions R) (hregisters : ∃ a ∈ actions, a.registers h = true) :
    ∃ n, R.name h = some n ∧ Tenure h actions n := by
  obtain ⟨a, ha, hregisters⟩ := hregisters
  have trace := name_trace run h
  cases hname : R.name h with
  | none =>
      rw [hname] at trace
      exact absurd hregisters (by rw [(trace a ha).2]; exact Bool.false_ne_true)
  | some n => exact ⟨n, rfl, tenure run hname⟩

theorem Registry.countP_registers_le {decoys : Prop} {R : Registry} {actions : List Action}
    (run : Reached decoys actions R) (h : Bytes 32) : actions.countP (Action.registers h) ≤ 1 := by
  have trace := name_trace run h
  cases hname : R.name h with
  | none =>
      rw [hname] at trace
      have hnone : actions.countP (Action.registers h) = 0 :=
        List.countP_eq_zero.mpr fun a ha => by simp [(trace a ha).2]
      omega
  | some n => exact Nat.le_of_eq (tenure run hname).registered

/-- The epoch of a name never falls. -/
theorem Registry.epoch_le {decoys : Prop} {R R' : Registry} {earlier later : List Action} {h : Bytes 32}
    (run : Reached decoys earlier R) (rest : Run (Step decoys) R later R') {n n' : Registration}
    (hname : R.name h = some n) (hname' : R'.name h = some n') : n.recordEpoch ≤ n'.recordEpoch := by
  have hepoch := (tenure run hname).epoch
  have hepoch' := (tenure (run.append rest) hname').epoch
  rw [List.countP_append] at hepoch'
  rw [UInt64.le_iff_toNat_le]
  omega

/-- Each label is registered at most once; its name account then stays, with what
registration fixed; and a stored configuration is never modified. -/
theorem registration_permanent (genesis : Genesis L₀) (run : Run (Ledger.Step S) L₀ history L)
    (rest : Run (Ledger.Step S) L later L') (hconfig : .config ∈ S) :
    (∀ label : Str, (actions (later ++ history)).countP (Action.registersLabel label) ≤ 1) ∧
    (∀ label : Str, (∃ a ∈ actions history, a.registersLabel label = true) →
      ∃ name name', Registered L label name ∧ Registered L' label name' ∧
        name'.nameHash = name.nameHash ∧ name'.registeredAtSlot = name.registeredAtSlot ∧
        name.recordEpoch ≤ name'.recordEpoch) ∧
    (∀ config, L.storedConfig = some config →
      L'.owner Site.config.address = programId ∧
        L'.data Site.config.address = L.data Site.config.address) := by
  obtain ⟨R, R', hreached, agrees, hrest, agrees'⟩ := genesis.resumed run rest
  refine ⟨fun label => ?_, fun label hlabel => ?_, fun config hstored => ?_⟩
  · have hreached' : Registry.Reached True (actions (later ++ history)) R' := by
      rw [actions, List.filterMap_append]
      exact hreached.append hrest
    refine Nat.le_trans (List.countP_mono_left fun a _ h => ?_)
      (Registry.countP_registers_le hreached' (labelHash label.bytes))
    exact Action.registers_of_registersLabel h
  · obtain ⟨a, ha, hregisters⟩ := hlabel
    obtain ⟨signer, instruction⟩ := a
    cases instruction with
    | register l duration =>
        have hl : l = label := of_decide_eq_true hregisters
        subst hl
        obtain ⟨-, hsite⟩ := sites_of_run run _ ha
        obtain ⟨n, hname, tenure⟩ := Registry.registered_of_mem hreached
          ⟨_, ha, decide_eq_true rfl⟩
        obtain ⟨n', hname', hlabel⟩ := Registry.name_kept hrest hname
        obtain ⟨_, hinstruction⟩ := tenure.label _ ha (decide_eq_true rfl)
        have hstr : n.label.str = l := (NameInstruction.register.inj hinstruction).1.symm
        have registered := agrees.registered hsite hname tenure.hash
        have registered' := agrees'.registered hsite hname' (by rw [hlabel]; exact tenure.hash)
        rw [hlabel] at registered'
        rw [hstr] at registered registered'
        exact ⟨_, _, registered, registered', rfl, rfl,
          Registry.epoch_le hreached hrest hname hname'⟩
    | _ => exact nomatch hregisters
  · rw [agrees.storedConfig hconfig] at hstored
    obtain ⟨authority, hopen, rfl⟩ := Option.map_eq_some_iff.mp hstored
    have hholds := agrees.holds_config hconfig hopen
    have hholds' := agrees'.holds_config hconfig (Registry.authority_kept hrest hopen)
    exact ⟨hholds'.1, by rw [hholds.2, hholds'.2]⟩

end

open Testnet in
/-- Ann registers `alice`, and lists it. -/
theorem alice_registered : ∃ L L' name name',
    Registered L ⟨ascii "alice", by decide, by decide⟩ name ∧
      Registered L' ⟨ascii "alice", by decide, by decide⟩ name' ∧ name'.nameHash = name.nameHash := by
  obtain ⟨L, L', _, run, rest, -, -, -, -⟩ := interleaved opening [listing .arch 500] unlisting
    (fun _ => true) (fun _ => true) (fun _ _ => true) (by decide +kernel) (by decide +kernel)
  obtain ⟨-, hregistered, -⟩ :=
    registration_permanent start_genesis run rest (by decide : .config ∈ sites)
  obtain ⟨name, name', registered, registered', hhash, -⟩ :=
    hregistered ⟨ascii "alice", by decide, by decide⟩ (by decide +kernel)
  exact ⟨L, L', name, name', registered, registered', hhash⟩

end ArchNameService
