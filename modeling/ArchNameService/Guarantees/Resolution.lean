import ArchNameService.Guarantees.Permanence

/-!
# What resolution says about the history

A record resolves exactly when the current owner published it in the current
tenure; an address resolves exactly to the name it bound last and has held since.
-/

namespace ArchNameService
open Crypto Deployment History

section
variable [Deployment] {S : Scope} {L L₀ : Ledger} {history : List Event}

/-- The client's view of a record: the stored accounts, resolved. -/
def Ledger.resolveRecord (L : Ledger) (h : Bytes 32) (recordType : RecordType) (key : List UInt8)
    (currentSlot : UInt64) : Option RecordValue := do
  let config ← L.storedConfig
  let name ← L.storedName h
  let record ← L.storedRecord h (.of recordType key)
  (ArchNameService.resolveRecord programId ⟨Site.config.address, config⟩
    (name.canonicalLabel.bytes ++ archSuffix) ⟨(Site.name h).address, name⟩
    ⟨(Site.record h (.of recordType key)).address, record⟩ recordType currentSlot).toOption

/-- The client's view of an address: its pointer and the name it points to, resolved. -/
def Ledger.resolvePrimary (L : Ledger) (o : ArchAddress) (currentSlot : UInt64) :
    Option (List UInt8) := do
  let config ← L.storedConfig
  let reverse ← L.storedReverse o
  let name ← L.storedName reverse.primaryNameHash
  (ArchNameService.resolvePrimary programId ⟨Site.config.address, config⟩
    ⟨(Site.reverse o).address, reverse⟩ ⟨(Site.name reverse.primaryNameHash).address, name⟩
    currentSlot).toOption

/-! ## The reference resolver on the accounts of a registry -/

variable {authority : ArchAddress} {n : Registration} {h : Bytes 32} {slot : UInt64}

theorem validateConfig_ok {u : Unit} :
    validateConfig programId ⟨Site.config.address, initialConfig testnetNetworkId authority⟩ = .ok u := by
  simp only [validateConfig, Outcome.bind_ok, Outcome.reject_ok, AccountHeader.validate_ok_iff,
    not_not]
  exact ⟨(), rfl, rfl⟩

omit [Deployment] in
theorem isActive_account (hslot : slot < Transition.permanentExpiry) :
    isActive (n.account h) slot = true := decide_eq_true hslot

theorem validateName_ok (hhash : labelHash n.label.str.bytes = h)
    (hslot : slot < Transition.permanentExpiry) {u : Unit} :
    validateName programId (initialConfig testnetNetworkId authority)
      (n.label.str.bytes ++ archSuffix) ⟨(Site.name h).address, n.account h⟩ slot = .ok u := by
  simp only [validateName, Outcome.bind_ok, Outcome.reject_ok, AccountHeader.validate_ok_iff,
    not_not, not_or]
  exact ⟨(), rfl, _, canonicalizeName_label n.label.valid, h,
    nameHash_label.mpr ⟨n.label.valid, hhash⟩, (), rfl, (), isActive_account hslot, rfl,
    stripSuffix_append ..⟩

/-- The address a resolver derives for a value is that of its slot. -/
theorem derived_of_value (value : RecordValue) :
    deriveRecordAddressForValue programId testnetNamespace.bytes h value.recordType value.textKey =
      some (Site.record h value.slot).address := by
  cases value <;> rfl

theorem resolveRecord_account (authority : ArchAddress) {p : Publication}
    {recordType : RecordType} {key : List UInt8} (hhash : labelHash n.label.str.bytes = h)
    (haddressed : p.value.slot = .of recordType key) (hslot : slot < Transition.permanentExpiry)
    (value : RecordValue) :
    ArchNameService.resolveRecord programId
        ⟨Site.config.address, initialConfig testnetNetworkId authority⟩
        (n.label.str.bytes ++ archSuffix) ⟨(Site.name h).address, n.account h⟩
        ⟨(Site.record h (.of recordType key)).address, p.account h⟩ recordType slot = .ok value ↔
      p.value.recordType = recordType ∧ p.ownerSnapshot = n.owner ∧ p.recordEpoch = n.recordEpoch ∧
        validateRecordValue (initialConfig testnetNetworkId authority) (n.account h) recordType
          p.value = .ok () ∧ p.value = value := by
  simp only [ArchNameService.resolveRecord, Outcome.bind_ok, Outcome.mapError_ok, Outcome.reject_ok,
    Outcome.orElseError_ok, Outcome.pure_ok, AccountHeader.validate_ok_iff, not_or, not_not]
  constructor
  · rintro ⟨-, -, -, -, -, -, expected, hderive, -, -, -, ⟨-, htype, howner, hepoch⟩, _, hvalid, hvalue⟩
    exact ⟨htype, howner, hepoch, hvalid, hvalue⟩
  · rintro ⟨htype, howner, hepoch, hvalid, hvalue⟩
    refine ⟨(), validateConfig_ok, (), validateName_ok hhash hslot, (), rfl, _, ?_, (), rfl, (),
      ⟨rfl, htype, howner, hepoch⟩, (), hvalid, hvalue⟩
    rw [← haddressed, ← htype]
    exact derived_of_value p.value

theorem resolvePrimary_account {o : ArchAddress} {b : Binding} {name : List UInt8}
    (hslot : slot < Transition.permanentExpiry) :
    ArchNameService.resolvePrimary programId
        ⟨Site.config.address, initialConfig testnetNetworkId authority⟩
        ⟨(Site.reverse o).address, b.account o⟩
        ⟨(Site.name b.primaryNameHash).address, n.account b.primaryNameHash⟩ slot = .ok name ↔
      n.owner = o ∧ n.primaryBindingNonce = b.bindingNonce ∧ n.label.str.bytes ++ archSuffix = name := by
  simp only [ArchNameService.resolvePrimary, Outcome.bind_ok, Outcome.reject_ok,
    AccountHeader.validate_ok_iff, not_or, not_not]
  constructor
  · rintro ⟨-, -, -, -, -, -, -, -, -, -, -, ⟨-, -, howner, hnonce⟩, hname⟩
    rw [show (n.account b.primaryNameHash).canonicalLabel = n.label.str from rfl,
      canonicalizeName_label n.label.valid, Except.ok.injEq] at hname
    exact ⟨howner, hnonce, hname⟩
  · rintro ⟨howner, hnonce, hname⟩
    refine ⟨(), validateConfig_ok, (), rfl, (), rfl, (), rfl, (), rfl, (),
      ⟨isActive_account hslot, rfl, howner, hnonce⟩, ?_⟩
    rw [← hname]
    exact canonicalizeName_label n.label.valid

/-! ## Records -/

/-- The stamp of a record is current exactly when the name has not moved since. -/
theorem Registry.epoch_eq_iff {decoys : Prop} {R : Registry} {actions : List Action}
    (run : Reached decoys actions R) {site : RecordSlot} {p : Publication}
    (hname : R.name h = some n) (hrecord : R.record (h, site) = some p)
    (hmoves : actions.countP (Action.moves h) < 2 ^ 64 - 2) :
    p.recordEpoch = n.recordEpoch ↔
      ∀ a ∈ since (Action.writesRecord h site) actions, a.moves h = false := by
  have published := record_trace run h site
  rw [hrecord] at published
  have hstamp := published.epoch
  have hepoch := (tenure run hname).epoch
  have hsum := countP_since_add_upTo (p := Action.writesRecord h site) (q := Action.moves h) actions
  rw [← countP_upTo_eq, ← UInt64.toNat_inj]
  omega

/-- A record resolves to a value exactly when the last write to it published that
value, signed by the current owner, and the name has not moved since. -/
theorem record_resolves_iff (genesis : Genesis L₀) (run : Run (Ledger.Step S) L₀ history L)
    {recordType : RecordType} {key : List UInt8} (hconfig : .config ∈ S) (hsite : .name h ∈ S)
    (hrecord : .record h (.of recordType key) ∈ S) {name : NameAccount}
    (hname : L.storedName h = some name)
    (hmoves : (actions history).countP (Action.moves h) < 2 ^ 64 - 2)
    (hslot : slot < Transition.permanentExpiry) (value : RecordValue) :
    L.resolveRecord h recordType key slot = some value ↔
      (∃ expected, newest (Action.writesRecord h (.of recordType key)) (actions history) =
        some ⟨name.owner, .setRecord h recordType value expected⟩) ∧
      ∀ a ∈ since (Action.writesRecord h (.of recordType key)) (actions history),
        a.moves h = false := by
  obtain ⟨R, hreached, corresponds⟩ := genesis.reached run
  have agrees := corresponds.agrees
  obtain ⟨n, hn, rfl⟩ := agrees.name_of_stored hsite hname
  have hhash := (Registry.tenure hreached hn).hash
  have trace := Registry.record_trace hreached h (.of recordType key)
  simp only [Ledger.resolveRecord, Option.bind_eq_bind, Option.bind_eq_some_iff,
    Outcome.toOption_eq_some, hname, agrees.storedConfig hconfig, agrees.storedRecord hrecord]
  cases hpublished : R.record (h, .of recordType key) with
  | none =>
      rw [hpublished] at trace
      constructor
      · rintro ⟨_, -, _, -, _, hnone, -⟩
        cases hnone
      · rintro ⟨⟨expected, hwritten⟩, -⟩
        cases trace _ hwritten
  | some p =>
      rw [hpublished] at trace
      obtain ⟨authority, hopen, hvalid⟩ := trace.valid
      obtain ⟨expected, hwritten, -⟩ := trace.written
      have hcurrent := Registry.epoch_eq_iff hreached hn hpublished hmoves
      have hresolve := resolveRecord_account authority hhash trace.addressed hslot value
      simp only [hopen, Option.map_some, Option.some.injEq, exists_eq_left']
      refine hresolve.trans ?_
      rw [← hcurrent]
      constructor
      · rintro ⟨rfl, howner, hepoch, -, rfl⟩
        refine ⟨⟨expected, ?_⟩, hepoch⟩
        rw [hwritten, howner]
        rfl
      · rintro ⟨⟨_, hlast⟩, hepoch⟩
        rw [hwritten, Option.some.injEq] at hlast
        obtain ⟨howner, hinstruction⟩ := Action.mk.inj hlast
        obtain ⟨-, htype, hvalue, -⟩ := NameInstruction.setRecord.inj hinstruction
        refine ⟨htype, howner, hepoch, ?_, hvalue⟩
        rw [← htype]
        exact hvalid n howner.symm

end

open Testnet in
/-- What Ann publishes resolves. -/
theorem publication_resolves :
    ∃ L : Ledger, L.resolveRecord alice .text (ascii "url") 0 = some oldUrl := by
  obtain ⟨L, run, -, -, hp⟩ := reached (opening ++ [publication oldUrl 0])
    (fun L => decide ((L.storedName alice).map (·.owner) = some ann)) (by decide +kernel)
    (by decide +kernel)
  obtain ⟨name, hname, howner⟩ := Option.map_eq_some_iff.mp (of_decide_eq_true hp)
  have hresolves : L.resolveRecord alice .text (ascii "url") 0 = some oldUrl ↔ _ :=
    record_resolves_iff start_genesis run (by decide : .config ∈ sites)
      (by decide : .name alice ∈ sites)
      (by decide : .record alice (.of .text (ascii "url")) ∈ sites) hname (by decide +kernel)
      (by decide) oldUrl
  rw [howner] at hresolves
  exact ⟨L, hresolves.mpr ⟨⟨0, by decide +kernel⟩, by decide +kernel⟩⟩

section
variable [Deployment] {S : Scope} {L L₀ : Ledger} {history : List Event} {n : Registration}
  {h : Bytes 32} {slot : UInt64}

/-! ## Primary names -/

/-- Between the binding of a pointer and now only its owner can have advanced the
nonce of a name that did not move, and its owner would have bound it anew. -/
theorem Registry.not_bumped_of_still {R : Registry} {actions : List Action} {o : ArchAddress}
    (run : Reached False actions R)
    (hwritten : newest (Action.writesPrimary o) actions = some ⟨o, .setPrimary h⟩)
    (hstill : ∀ a ∈ since (Action.writesPrimary o) actions, a.moves h = false) :
    ∀ a ∈ since (Action.writesPrimary o) actions, a.bumps h = false := by
  obtain ⟨earlier, hupTo⟩ := upTo_of_newest hwritten
  have hcut := since_append_upTo (p := Action.writesPrimary o) actions
  rw [hupTo] at hcut
  rw [← hcut] at run
  obtain ⟨t, t', -, step, rest⟩ := run.before
  obtain ⟨m, hm, hsigner⟩ := step.setPrimary_owner
  obtain ⟨m', hm', howner⟩ : ∃ m', t'.name h = some m' ∧ m'.owner = m.owner := by
    obtain ⟨hkept, -⟩ := owner_kept (Run.single step) hm (by simp [Action.moves])
    exact hkept
  obtain ⟨-, hsigned⟩ := owner_kept rest hm' hstill
  intro a ha
  cases hbumps : a.bumps h with
  | false => rfl
  | true =>
      obtain ⟨hinstruction, hbinder⟩ := hsigned a ha hbumps
      have hmiss := of_mem_since ha
      simp only [Action.writesPrimary, hinstruction, hbinder, howner, hsigner, decide_true] at hmiss
      cases hmiss

/-- The nonce of a pointer is current exactly when its name has not moved since. -/
theorem Registry.nonce_eq_iff {R : Registry} {actions : List Action} {o : ArchAddress} {b : Binding}
    (run : Reached False actions R) (hname : R.name b.primaryNameHash = some n)
    (hreverse : R.reverse o = some b) (hnonce : n.primaryBindingNonce < Transition.permanentExpiry) :
    n.primaryBindingNonce = b.bindingNonce ↔
      ∀ a ∈ since (Action.writesPrimary o) actions, a.moves b.primaryNameHash = false := by
  have bound := reverse_trace run id o
  rw [hreverse] at bound
  have hstamp := bound.nonce
  have hcurrent := (tenure run hname).nonce
  have hsum := countP_since_add_upTo (p := Action.writesPrimary o)
    (q := Action.bumps b.primaryNameHash) actions
  have hbumps : n.primaryBindingNonce = b.bindingNonce ↔
      ∀ a ∈ since (Action.writesPrimary o) actions, a.bumps b.primaryNameHash = false := by
    have hlt : n.primaryBindingNonce.toNat < 2 ^ 64 - 1 := UInt64.lt_iff_toNat_lt.mp hnonce
    rw [← countP_upTo_eq, ← UInt64.toNat_inj]
    omega
  rw [hbumps]
  exact ⟨fun h a ha => moves_eq_false (h a ha), not_bumped_of_still run bound.written⟩

/-- The pointer of an address, seen in the registry that the ledger agrees with. -/
theorem Agrees.resolvePrimary {R : Registry} (agrees : Agrees S L R.content) {o : ArchAddress}
    (hconfig : .config ∈ S) (hreverse : .reverse o ∈ S)
    (hopen : ∀ h n, R.name h = some n → ∃ authority, R.authority = some authority)
    (hpointed : ∀ b, R.reverse o = some b → .name b.primaryNameHash ∈ S)
    (hslot : slot < Transition.permanentExpiry) (found : List UInt8) :
    L.resolvePrimary o slot = some found ↔
      ∃ b n, R.reverse o = some b ∧ R.name b.primaryNameHash = some n ∧ n.owner = o ∧
        n.primaryBindingNonce = b.bindingNonce ∧ n.label.str.bytes ++ archSuffix = found := by
  simp only [Ledger.resolvePrimary, Option.bind_eq_bind, Option.bind_eq_some_iff,
    Outcome.toOption_eq_some, agrees.storedConfig hconfig, agrees.storedReverse hreverse,
    Option.map_eq_some_iff]
  constructor
  · rintro ⟨_, ⟨authority, -, rfl⟩, _, ⟨b, hb, rfl⟩, name, hname, hresolve⟩
    obtain ⟨n, hn, rfl⟩ := agrees.name_of_stored (hpointed b hb) hname
    exact ⟨b, n, hb, hn, (resolvePrimary_account hslot).mp hresolve⟩
  · rintro ⟨b, n, hb, hn, hresolve⟩
    obtain ⟨authority, hauthority⟩ := hopen _ n hn
    refine ⟨_, ⟨authority, hauthority, rfl⟩, _, ⟨b, hb, rfl⟩, n.account b.primaryNameHash, ?_,
      (resolvePrimary_account hslot).mpr hresolve⟩
    change L.storedName b.primaryNameHash = _
    rw [agrees.storedName (hpointed b hb), hn]
    rfl

/-- An address resolves to a name exactly when its last action on its pointer
bound that name, it still owns it, and the name has not moved since. No two
addresses resolve to one name, and the name found is the one its pointer stores. -/
theorem primary_resolves_iff (genesis : Genesis L₀) (run : Run (Ledger.Step S) L₀ history L)
    (hregistry : ∀ e ∈ history, e.ofRegistry)
    (hnonces : ∀ h, .name h ∈ S → ∀ name, L.storedName h = some name →
      name.primaryBindingNonce < Transition.permanentExpiry)
    (hconfig : .config ∈ S) {o : ArchAddress} (hreverse : .reverse o ∈ S)
    (hslot : slot < Transition.permanentExpiry) (found : List UInt8) :
    (L.resolvePrimary o slot = some found ↔
      ∃ h name, L.storedName h = some name ∧
        found = name.canonicalLabel.bytes ++ archSuffix ∧
        newest (Action.writesPrimary o) (actions history) = some ⟨o, .setPrimary h⟩ ∧
        name.owner = o ∧
        ∀ a ∈ since (Action.writesPrimary o) (actions history), a.moves h = false) ∧
    (L.resolvePrimary o slot = some found →
      (∃ reverse, L.storedReverse o = some reverse ∧
        nameHash found = .ok reverse.primaryNameHash) ∧
      ∀ o', .reverse o' ∈ S → L.resolvePrimary o' slot = some found → o' = o) := by
  obtain ⟨R, hreached, corresponds⟩ :=
    genesis.agrees.registryRun genesis.enclosed run hregistry
  have agrees := corresponds.agrees
  have hopen : ∀ h n, R.name h = some n → ∃ authority, R.authority = some authority :=
    fun h n => Registry.authority_of_name hreached
  have hpointed : ∀ o b, R.reverse o = some b → .name b.primaryNameHash ∈ S := by
    intro o b hb
    have bound := Registry.reverse_trace hreached id o
    rw [hb] at bound
    exact (sites_of_run run _ (List.mem_of_find?_eq_some bound.written)).2.1
  have hview := fun {o : ArchAddress} (ho : .reverse o ∈ S) =>
    agrees.resolvePrimary hconfig ho hopen (hpointed o) hslot found
  refine ⟨?_, fun hfound => ?_⟩
  · rw [hview hreverse]
    constructor
    · rintro ⟨b, n, hb, hn, howner, hnonce, rfl⟩
      have bound := Registry.reverse_trace hreached id o
      rw [hb] at bound
      have hstored : L.storedName b.primaryNameHash = some (n.account b.primaryNameHash) := by
        rw [agrees.storedName (hpointed o b hb), hn]
        rfl
      have hbelow := hnonces _ (hpointed o b hb) _ hstored
      exact ⟨_, _, hstored, rfl, bound.written, howner,
        (Registry.nonce_eq_iff hreached hn hb hbelow).mp hnonce⟩
    · rintro ⟨h, name, hstored, rfl, hwritten, howner, hstill⟩
      have trace := Registry.reverse_trace hreached id o
      cases hb : R.reverse o with
      | none =>
          rw [hb] at trace
          exact nomatch trace _ hwritten
      | some b =>
          rw [hb] at trace
          have hpointer : NameInstruction.setPrimary h = .setPrimary b.primaryNameHash :=
            (Action.mk.inj (Option.some.inj (hwritten.symm.trans trace.written))).2
          cases NameInstruction.setPrimary.inj hpointer
          obtain ⟨n, hn, rfl⟩ := agrees.name_of_stored (hpointed o b hb) hstored
          have hbelow := hnonces _ (hpointed o b hb) _ hstored
          exact ⟨b, n, rfl, hn, howner, (Registry.nonce_eq_iff hreached hn hb hbelow).mpr hstill, rfl⟩
  · obtain ⟨b, n, hb, hn, howner, -, rfl⟩ := (hview hreverse).mp hfound
    have hhash := (Registry.tenure hreached hn).hash
    refine ⟨⟨b.account o, ?_, nameHash_label.mpr ⟨n.label.valid, hhash⟩⟩, fun o' ho' hfound' => ?_⟩
    · rw [agrees.storedReverse hreverse, hb]
      rfl
    · obtain ⟨b', n', -, hn', howner', -, hsame⟩ := (hview ho').mp hfound'
      have hlabel : n'.label.str.bytes = n.label.str.bytes := List.append_cancel_right hsame
      have hhash' := (Registry.tenure hreached hn').hash
      rw [hlabel, hhash] at hhash'
      rw [hhash'] at hn
      rw [← howner', ← howner, Option.some.inj (hn'.symm.trans hn)]

end

open Testnet in
/-- Ann resolves to the name she binds. -/
theorem binding_resolves : ∃ L : Ledger, L.resolvePrimary ann 0 = some (ascii "alice.arch") := by
  obtain ⟨L, run, -, -, hp⟩ := reached (opening ++ [binding])
    (fun L => decide ((L.storedName alice).map
      (fun name => (name.owner, name.canonicalLabel.bytes, name.primaryBindingNonce)) =
        some (ann, ascii "alice", 1))) (by decide +kernel) (by decide +kernel)
  obtain ⟨name, hname, hvalues⟩ := Option.map_eq_some_iff.mp (of_decide_eq_true hp)
  obtain ⟨howner, hvalues⟩ := Prod.mk.inj hvalues
  obtain ⟨hlabel, hnonce⟩ := Prod.mk.inj hvalues
  have hnonces : ∀ h, .name h ∈ scope → ∀ other, L.storedName h = some other →
      other.primaryBindingNonce < Transition.permanentExpiry := by
    intro h hsite other hother
    obtain rfl : h = alice := by simpa [scope, sites] using hsite
    cases hname.symm.trans hother
    rw [hnonce]
    decide
  have hregistry : ∀ c ∈ (opening ++ [binding]).reverse, c.action?.isSome = true := by decide +kernel
  have hresolves : L.resolvePrimary ann 0 = some (ascii "alice.arch") ↔ _ :=
    (primary_resolves_iff start_genesis run (List.forall_mem_map.mpr hregistry) hnonces
      (by decide : .config ∈ sites) (by decide : .reverse ann ∈ sites) (by decide)
      (ascii "alice.arch")).1
  exact ⟨L, hresolves.mpr ⟨alice, name, hname, by rw [hlabel]; decide, by decide +kernel, howner,
    by decide +kernel⟩⟩

end ArchNameService
