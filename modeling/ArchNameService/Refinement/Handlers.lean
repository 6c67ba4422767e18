import ArchNameService.Refinement.Loads

/-!
# Each handler refines a step of the registry

A call that succeeds in a ledger agreeing with a registry is a step that the
registry allows, and leaves a ledger agreeing with its result. Unless a derived
account signs, every account in play keeps its rent and its escrow.
-/

namespace ArchNameService
open Borsh (Str)
open Deployment

/-- The account at the head of the list, where it signs. -/
def signer? : List AccountInfo → Option ArchAddress
  | account :: _ => if account.isSigner then some account.key else none
  | [] => none

theorem signer?_cons {account : AccountInfo} {rest : List AccountInfo}
    (h : account.isSigner = true) : signer? (account :: rest) = some account.key := if_pos h

theorem key_of_signer? {account : AccountInfo} {rest : List AccountInfo} {signer : ArchAddress}
    (h : signer? (account :: rest) = some signer) : account.key = signer := by
  simp only [signer?, Option.ite_none_right_eq_some, Option.some.injEq] at h
  exact h.2

/-- A value that is overwritten later does not matter. -/
theorem update_around {α β : Type} [DecidableEq α] {f : α → β} {s t : α} {x y z : β} (h : s ≠ t) :
    Function.update (Function.update (Function.update f s x) t y) s z =
      Function.update (Function.update f t y) s z := by
  rw [Function.update_comm h, Function.update_idem]

theorem deletionKey_ok {recordType : RecordType} {textKey : List UInt8} {key : Option (List UInt8)}
    (h : deletionKey recordType textKey = .ok key) :
    RecordSlot.of recordType (key.getD []) = RecordSlot.of recordType textKey := by
  unfold deletionKey at h
  split at h
  · simp only [Outcome.bind_ok, Outcome.pure_ok] at h
    obtain ⟨_, -, rfl⟩ := h
    rfl
  · cases recordType with
    | text => contradiction
    | _ => rfl

/-- Only pointers have the length of a pointer. -/
theorem reverse_of_content {R : Registry} {s : Site} {r : ReverseAccount} (h : R.content s = encodeState r) :
    ∃ o b, s = .reverse o ∧ R.reverse o = some b ∧ r = b.account o := by
  have hlength := congrArg List.length h
  rw [length_encode_reverse] at hlength
  cases s with
  | config =>
      cases hauthority : R.authority with
      | none => simp [Registry.content, hauthority, encoded] at hlength
      | some authority =>
          have hsuffix : testnetNamespace.bytes.length = 5 := by decide
          simp [Registry.content, hauthority, encoded, length_encode_config, initialConfig,
            hsuffix] at hlength
  | name k =>
      cases hname : R.name k with
      | none => simp [Registry.content, hname, encoded] at hlength
      | some n =>
          simp only [Registry.content, hname, encoded, Option.map_some, length_encode_name] at hlength
          omega
  | record k slot =>
      cases hrecord : R.record (k, slot) with
      | none => simp [Registry.content, hrecord, encoded] at hlength
      | some p =>
          have hlong := length_encode_record (p.account k)
          simp only [Registry.content, hrecord, encoded, Option.map_some] at hlength
          omega
  | reverse o =>
      obtain ⟨b, hb, rfl⟩ := Option.map_eq_some_iff.mp ((encoded_eq (encode_reverse_ne _)).mp h)
      exact ⟨o, b, rfl, hb, rfl⟩
  | listing k =>
      cases hlisting : R.listing k <;>
        simp [Registry.content, hlisting, encoded, length_encode_listing] at hlength
  | offer k buyer =>
      cases hoffer : R.offer (k, buyer) <;>
        simp [Registry.content, hoffer, encoded, length_encode_offer] at hlength

variable [Deployment]

theorem register_account {label : Str} {owner : ArchAddress} {name : NameAccount} {u : Unit}
    (hvalid : validateLabel label.bytes = .ok u) (h : Transition.register label owner = .ok name) :
    name = (Registration.fresh ⟨label, hvalid⟩ owner).account (labelHash label.bytes) := by
  simp only [Transition.register, Outcome.bind_ok, nameHash_label, Outcome.pure_ok] at h
  obtain ⟨_, ⟨-, rfl⟩, rfl⟩ := h
  rfl

theorem setRecord_account {config : RegistryConfig} {n : Registration} {k : Bytes 32}
    {existing : Option RecordAccount} {recordType : RecordType} {value : RecordValue}
    {expected : UInt64} {record : RecordAccount}
    (h : Transition.setRecord config (n.account k) existing recordType value expected = .ok record) :
    value.recordType = recordType ∧
      validateRecordValue config (n.account k) recordType value = .ok () ∧
      existing.elim 0 (·.revision) = expected ∧
      record = (n.publish value expected).account k := by
  simp only [Transition.setRecord, Outcome.bind_ok, Outcome.pure_ok] at h
  obtain ⟨_, hvalid, revision, hrevision, rfl⟩ := h
  have htype := validateRecordValue_recordType hvalid
  subst htype
  cases existing with
  | none =>
      simp only [Transition.nextRevision] at hrevision
      split at hrevision
      · rename_i hexpected
        cases hrevision
        exact ⟨rfl, hvalid, hexpected.symm, by rw [hexpected]; rfl⟩
      · cases hrevision
  | some r =>
      simp only [Transition.nextRevision] at hrevision
      split at hrevision
      · rename_i hexpected
        cases hrevision
        exact ⟨rfl, hvalid, hexpected, by rw [hexpected]; rfl⟩
      · cases hrevision

/-- How a ledger moves when the registry it agrees with steps from `R` to `R'`. -/
structure Lands (S : Scope) (payer : ArchAddress) (R R' : Registry) (L L' : Ledger) : Prop where
  agrees : Agrees S L' R'.content
  enclosed : Enclosed S L → Enclosed S L'
  yields : Clean S L → Yields L L'
  total : L'.total = L.total
  funded : ¬ S.Derived payer → Funded S L R.content R.escrow → Funded S L' R'.content R'.escrow

/-- Whoever signs, the instruction works with accounts in play. -/
def InScope (S : Scope) (accounts : List AccountInfo) (instruction : NameInstruction) : Prop :=
  ∀ signer, signer? accounts = some signer → (Action.sites ⟨signer, instruction⟩).Forall (· ∈ S)

def Refines (S : Scope) (decoys : Prop) (R : Registry) (a : Action) (L L' : Ledger) : Prop :=
  ∃ R', R.Step decoys a R' ∧ Lands S a.signer R R' L L'

variable {S : Scope} {decoys : Prop} {L L' L₁ : Ledger} {R : Registry} {accounts : List AccountInfo}
/-- The account is emptied, and nothing else changes. -/
theorem realloc_zero_content (h : realloc L account 0 = .ok L') (j : ArchAddress) :
    L'.content j = if j = account.key then [] else L.content j := by
  obtain rfl | ⟨hempty, rfl⟩ := realloc_zero_ok h
  · simp only [Ledger.content, Ledger.owner_setData, Ledger.data_setData]
    split <;> simp
  · split
    · rename_i hj
      rw [hj, Ledger.content, hempty, ite_self]
    · rfl

variable (agrees : Agrees S L R.content)
include agrees

/-- One entry without escrow is stored anew. -/
theorem Agrees.lands_put {R' : Registry} {p : ArchAddress} {s : Site} {bytes : List UInt8}
    (hs : s ∈ S) (hput : Put p s.address bytes L L')
    (hcontent : R'.content = Function.update R.content s bytes) (hescrow : R'.escrow = R.escrow)
    (hzero : R.escrow s = 0) : Lands S p R R' L L' :=
  { agrees := by rw [hcontent]; exact agrees.update hs hput.content
    enclosed := fun enclosed => enclosed.update hs hput.content
    yields := fun _ => hput.yields
    total := hput.total
    funded := fun hpayer funded => by rw [hcontent, hescrow]; exact funded.put hput hpayer hzero }

/-- One entry without escrow is removed. -/
theorem Agrees.lands_cleared {R' : Registry} {p : ArchAddress} {s : Site} {account : AccountInfo}
    (hs : s ∈ S) (hkey : account.key = s.address) (howned : L.owner account.key = programId)
    (hrealloc : realloc L account 0 = .ok L')
    (hcontent : R'.content = Function.update R.content s []) (hescrow : R'.escrow = R.escrow)
    (hzero : R.escrow s = 0) : Lands S p R R' L L' := by
  have hcleared := realloc_zero_content hrealloc
  rw [hkey] at hcleared
  exact
    { agrees := by rw [hcontent]; exact agrees.update hs hcleared
      enclosed := fun enclosed => enclosed.update hs hcleared
      yields := fun _ => realloc_yields howned hrealloc
      total := Ledger.total_of_eq (realloc_ok hrealloc).2.2.2
      funded := fun hpayer funded => by
        rw [hcontent, hescrow]
        exact funded.update (.of_eq (realloc_ok hrealloc).2.2.2) hpayer hzero
          fun hne => absurd rfl hne }

/-! ## Registration -/

theorem Agrees.content_nil {s : Site} (hs : s ∈ S) {k : ArchAddress} (hkey : k = s.address)
    (howner : L.owner k ≠ programId) : R.content s = [] := by
  rw [← agrees s hs, ← hkey, Ledger.content, if_neg howner]

theorem Agrees.closed_of_uninitialized {account : AccountInfo} (hsite : .config ∈ S)
    (hkey : account.key = Site.config.address)
    (h : L.owner account.key = programId → configIsInitialized L account = false) :
    R.authority = none := by
  cases hopen : R.authority with
  | none => rfl
  | some authority =>
      have hcontent : R.content .config = encodeState (initialConfig testnetNetworkId authority) := by
        simp only [Registry.content, hopen, Option.map_some, encoded]
      have hholds : Holds L account.key (initialConfig testnetNetworkId authority) := by
        refine holds_of_content (encode_config_ne _) ?_
        rw [hkey, agrees _ hsite, hcontent]
      have hload : load L RegistryConfig account =
          .ok (initialConfig testnetNetworkId authority) := (owned_load_ok.mpr hholds).2
      have hinitialized := h hholds.1
      simp only [configIsInitialized, hload] at hinitialized
      cases hinitialized

theorem initializeRegistry_refines {networkId : UInt32} {authority : ArchAddress}
    (hsites : InScope S accounts (.initializeRegistry networkId authority))
    (h : initializeRegistry L accounts networkId authority = .ok L') :
    ∃ signer, signer? accounts = some signer ∧
      Refines S decoys R ⟨signer, .initializeRegistry networkId authority⟩ L L' := by
  simp only [initializeRegistry, Outcome.bind_ok, Outcome.reject_ok, nextAccountInfo_ok,
    Prod.exists, requireSigner_ok, requireAddress_ok, exists_const, ne_eq, not_not] at h
  obtain ⟨rfl, signer, _, rfl, config, _, rfl, hsigner, hconfig, rfl, L₁, hprepare, hstore⟩ := h
  have hsite : Site.config ∈ S := hsites signer.key (signer?_cons hsigner)
  have hkey : config.key = Site.config.address := hconfig
  have hfree : R.authority = none := by
    refine agrees.closed_of_uninitialized hsite hkey fun howned => ?_
    rw [if_pos howned] at hprepare
    simp only [Outcome.bind_ok, Outcome.reject_ok, Outcome.pure_ok, exists_const,
      Bool.not_eq_true] at hprepare
    exact hprepare.1
  have hcases : (L.owner config.key = programId ∧ L₁ = L) ∨
      Created signer.key config.key
        (encodeState (initialConfig testnetNetworkId signer.key)).length L L₁ := by
    split at hprepare
    · rename_i howned
      simp only [Outcome.bind_ok, Outcome.reject_ok, Outcome.pure_ok, exists_const] at hprepare
      exact .inl ⟨howned, hprepare.2.symm⟩
    · split at hprepare
      · exact .inr (createPda_ok hprepare)
      · exact (Outcome.throw_ok.mp hprepare).elim
  have hput := prepared_put hcases hstore
  rw [hkey] at hput
  exact ⟨signer.key, signer?_cons hsigner, _, .initializeRegistry hfree,
    agrees.lands_put hsite hput (Registry.content_authority ..) (by funext s; cases s <;> rfl) rfl⟩

theorem Agrees.free_of_available {account : AccountInfo} {k : Bytes 32} (hsite : .name k ∈ S)
    (hkey : account.key = (Site.name k).address)
    (h : L.owner account.key = programId →
      Availability.ensureProgramOwnedNameAvailable (L.data account.key) = .ok ()) :
    R.name k = none := by
  cases hname : R.name k with
  | none => rfl
  | some n =>
      have hcontent : R.content (.name k) = encodeState (n.account k) := by
        simp only [Registry.content, hname, Option.map_some, encoded]
      have hholds : Holds L account.key (n.account k) := by
        refine holds_of_content (encode_name_ne _) ?_
        rw [hkey, agrees _ hsite, hcontent]
      have havailable := h hholds.1
      rw [hholds.2, Availability.encoded_name_taken rfl] at havailable
      cases havailable

theorem register_refines {label : Str} {duration : UInt64}
    (hsites : InScope S accounts (.register label duration))
    (h : register L accounts label = .ok L') :
    ∃ signer, signer? accounts = some signer ∧
      Refines S decoys R ⟨signer, .register label duration⟩ L L' := by
  simp only [register, Outcome.bind_ok, Outcome.mapError_ok, nextAccountInfo_ok, Prod.exists,
    requireSigner_ok, requireAddress_ok, ensureUnpaused_ok, exists_const] at h
  obtain ⟨_, hvalid, signer, _, rfl, cfg, _, rfl, account, _, rfl, hsigner, config, hconfig, -,
    name, hregister, hkey, L₁, hprepare, hstore⟩ := h
  obtain ⟨hsite, hname⟩ := hsites signer.key (signer?_cons hsigner)
  obtain ⟨authority, hopen, rfl, -⟩ := agrees.config hsite hconfig
  have haccount := register_account hvalid hregister
  replace hkey : account.key = (Site.name (labelHash label.bytes)).address := by
    rw [hkey, haccount]
    rfl
  have hcases : (L.owner account.key = programId ∧
        Availability.ensureProgramOwnedNameAvailable (L.data account.key) = .ok () ∧ L₁ = L) ∨
      L.owner account.key ≠ programId ∧
        Created signer.key account.key (encodeState name).length L L₁ := by
    split at hprepare
    · rename_i howned
      split at hprepare
      · rename_i havailable
        exact .inl ⟨howned, havailable, (Outcome.pure_ok.mp hprepare).symm⟩
      · exact (Outcome.throw_ok.mp hprepare).elim
      · exact (Outcome.throw_ok.mp hprepare).elim
    · rename_i howned
      split at hprepare
      · exact .inr ⟨howned, createPda_ok hprepare⟩
      · exact (Outcome.throw_ok.mp hprepare).elim
  have hfree : R.name (labelHash label.bytes) = none := by
    refine agrees.free_of_available hname hkey fun howned => ?_
    obtain ⟨-, havailable, -⟩ | ⟨hother, -⟩ := hcases
    · exact havailable
    · exact absurd howned hother
  have hput := prepared_put (hcases.imp (fun h => ⟨h.1, h.2.2⟩) And.right) hstore
  rw [hkey, haccount] at hput
  let checked : Label := ⟨label, hvalid⟩
  have hstep : R.Step decoys ⟨signer.key, .register checked.str duration⟩
      (R.setName (labelHash checked.str.bytes) (.fresh checked signer.key)) :=
    .register (by rw [hopen]; rfl) hfree
  exact ⟨signer.key, signer?_cons hsigner, _, hstep,
    agrees.lands_put hname hput (Registry.content_setName ..) (Registry.escrow_setName ..) rfl⟩

theorem transfer_refines {k : Bytes 32} {newOwner : ArchAddress} (hsites : InScope S accounts (.transfer k newOwner))
    (h : transfer L accounts k newOwner = .ok L') :
    ∃ signer, signer? accounts = some signer ∧
      Refines S decoys R ⟨signer, .transfer k newOwner⟩ L L' := by
  simp only [transfer, Outcome.bind_ok, Outcome.reject_ok, nextAccountInfo_ok, Prod.exists,
    requireSigner_ok, requireAddress_ok, requireOwner_ok, ensureUnpaused_ok, exists_const] at h
  obtain ⟨hnew, signer, _, rfl, cfg, _, rfl, account, _, rfl, listing, _, rfl, hsigner, config,
    hconfig, -, name, hload, howner, hkey, active, hactive, hinactive, hstore⟩ := h
  obtain ⟨hsite, hname, hlisting⟩ := hsites signer.key (signer?_cons hsigner)
  obtain ⟨authority, -, rfl, -⟩ := agrees.config hsite hconfig
  obtain ⟨n, hn, rfl, haddress, howned⟩ := agrees.name hname hload
  have hunlisted := agrees.unlisted hlisting hkey (by rwa [Bool.eq_false_of_not_eq_true hinactive] at hactive)
  have hput := (store_ok hstore).put howned
  rw [haddress, Registration.account_transfer] at hput
  have hstep : R.Step decoys ⟨signer.key, .transfer k newOwner⟩
      (R.setName k (n.transfer newOwner)) := by
    rw [howner]
    exact .transfer hn hunlisted hnew
  exact ⟨signer.key, signer?_cons hsigner, _, hstep,
    agrees.lands_put hname hput (Registry.content_setName ..) (Registry.escrow_setName ..) rfl⟩

/-! ## Records -/

theorem setRecord_refines {k : Bytes 32} {recordType : RecordType} {value : RecordValue}
    {expected : UInt64} (hsites : InScope S accounts (.setRecord k recordType value expected))
    (h : setRecord L accounts k recordType value expected = .ok L') :
    ∃ signer, signer? accounts = some signer ∧
      Refines S decoys R ⟨signer, .setRecord k recordType value expected⟩ L L' := by
  simp only [setRecord, Outcome.bind_ok, Outcome.reject_ok, Outcome.mapError_ok,
    Outcome.orElseError_ok, nextAccountInfo_ok, Prod.exists, requireSigner_ok, requireAddress_ok,
    requireOwner_ok, exists_const] at h
  obtain ⟨signer, _, rfl, cfg, _, rfl, account, _, rfl, slotAccount, _, rfl, hsigner, config,
    hconfig, name, hload, howner, -, address, hderive, hkey, existing, hexisting, record,
    htransition, L₁, hprepare, hstore⟩ := h
  obtain ⟨hsite, hname, hrecord⟩ := hsites signer.key (signer?_cons hsigner)
  obtain ⟨authority, hopen, rfl, -⟩ := agrees.config hsite hconfig
  obtain ⟨n, hn, rfl, -, -⟩ := agrees.name hname hload
  obtain ⟨rfl, hvalue, hrevision, rfl⟩ := setRecord_account htransition
  rw [address_of_derived hderive] at hkey
  replace hkey : slotAccount.key = (Site.record k value.slot).address := by
    rwa [show RecordSlot.of value.recordType (value.textKey.getD []) = value.slot from
      Action.slotOfValue_recordType value] at hkey
  rw [Action.slotOfValue_recordType] at hrecord
  have hcurrent : R.revision k value.slot = expected ∧
      (existing = none ∨ L.owner slotAccount.key = programId) := by
    split at hexisting
    · rename_i hempty
      cases Outcome.pure_ok.mp hexisting
      have hcontent : R.content (.record k value.slot) = [] := by
        rw [← agrees _ hrecord, ← hkey, Ledger.content, hempty, ite_self]
      refine ⟨?_, .inl rfl⟩
      cases hp : R.record (k, value.slot) with
      | none => simpa only [Registry.revision, hp, Option.elim_none] using hrevision
      | some p =>
          simp only [Registry.content, hp, Option.map_some, encoded] at hcontent
          exact absurd hcontent (encode_record_ne _)
    · simp only [Outcome.bind_ok, Outcome.reject_ok, Outcome.pure_ok, exists_const, ne_eq,
        not_not] at hexisting
      obtain ⟨howned, r, hload, rfl⟩ := hexisting
      obtain ⟨p, hp, rfl⟩ := agrees.record hrecord hkey (owned_load_ok.mp ⟨howned, hload⟩)
      refine ⟨?_, .inr howned⟩
      simp only [Option.elim_some] at hrevision
      simp only [Registry.revision, hp]
      exact hrevision
  have hcases : (L.owner slotAccount.key = programId ∧ L₁ = L) ∨
      Created signer.key slotAccount.key (encodeState ((n.publish value expected).account k)).length
        L L₁ := by
    split at hprepare
    · split at hprepare
      · rename_i howned
        exact .inl ⟨howned, (Outcome.pure_ok.mp hprepare).symm⟩
      · split at hprepare
        · split at hprepare
          · exact .inr (createPda_ok hprepare)
          · exact .inr (createPda_ok hprepare)
        · exact (Outcome.throw_ok.mp hprepare).elim
    · rename_i hsome
      exact .inl ⟨hcurrent.2.resolve_left hsome, (Outcome.pure_ok.mp hprepare).symm⟩
  have hput := prepared_put hcases hstore
  rw [hkey] at hput
  have hstep : R.Step decoys ⟨signer.key, .setRecord k value.recordType value expected⟩
      (R.setRecord k value.slot (some (n.publish value expected))) := by
    rw [howner]
    exact .setRecord hopen hn hvalue hcurrent.1
  exact ⟨signer.key, signer?_cons hsigner, _, hstep,
    agrees.lands_put hrecord hput (Registry.content_setRecord ..) (Registry.escrow_setRecord ..)
      rfl⟩

theorem deleteRecord_refines {k : Bytes 32} {recordType : RecordType} {textKey : Str}
    {expected : UInt64} (hsites : InScope S accounts (.deleteRecord k recordType textKey expected))
    (h : deleteRecord L accounts k recordType textKey expected = .ok L') :
    ∃ signer, signer? accounts = some signer ∧
      Refines S decoys R ⟨signer, .deleteRecord k recordType textKey expected⟩ L L' := by
  simp only [deleteRecord, Outcome.bind_ok, Outcome.reject_ok, Outcome.orElseError_ok,
    nextAccountInfo_ok, Prod.exists, requireSigner_ok, requireAddress_ok, requireOwner_ok,
    exists_const, not_or, ne_eq, not_not] at h
  obtain ⟨signer, _, rfl, cfg, _, rfl, account, _, rfl, slotAccount, _, rfl, hsigner, config,
    hconfig, name, hload, howner, key, hdeletion, address, hderive, hkey, ⟨howned, -⟩, existing,
    hexisting, ⟨rfl, -, -, hsnapshot, hepoch⟩, -, hrealloc⟩ := h
  obtain ⟨hsite, hname, hrecord⟩ := hsites signer.key (signer?_cons hsigner)
  obtain ⟨authority, hopen, rfl, -⟩ := agrees.config hsite hconfig
  obtain ⟨n, hn, rfl, -, -⟩ := agrees.name hname hload
  rw [address_of_derived hderive, deletionKey_ok hdeletion] at hkey
  obtain ⟨p, hp, rfl⟩ := agrees.record hrecord hkey (owned_load_ok.mp ⟨howned, hexisting⟩)
  have hstep : R.Step decoys ⟨signer.key, .deleteRecord k recordType textKey p.revision⟩
      (R.setRecord k (.of recordType textKey.bytes) none) := by
    rw [howner]
    exact .deleteRecord hn hp hsnapshot hepoch
  exact ⟨signer.key, signer?_cons hsigner, _, hstep,
    agrees.lands_cleared hrecord hkey howned hrealloc (Registry.content_setRecord ..)
      (Registry.escrow_setRecord ..) rfl⟩

/-! ## Primary names -/

theorem setPrimary_refines {k : Bytes 32} (hsites : InScope S accounts (.setPrimary k))
    (h : setPrimary L accounts k = .ok L') :
    ∃ signer, signer? accounts = some signer ∧ Refines S decoys R ⟨signer, .setPrimary k⟩ L L' := by
  simp only [setPrimary, Outcome.bind_ok, nextAccountInfo_ok, Prod.exists, requireSigner_ok,
    requireAddress_ok, requireOwner_ok, exists_const] at h
  obtain ⟨signer, _, rfl, cfg, _, rfl, account, _, rfl, pointer, _, rfl, hsigner, config,
    hconfig, name, hload, howner, hkey, L₁, hprepare, L₂, hstore, hstore'⟩ := h
  obtain ⟨hsite, hname, hreverse⟩ := hsites signer.key (signer?_cons hsigner)
  obtain ⟨authority, hopen, rfl, -⟩ := agrees.config hsite hconfig
  obtain ⟨n, hn, rfl, haddress, howned⟩ := agrees.name hname hload
  replace hkey : pointer.key = (Site.reverse signer.key).address := by
    rw [hkey, howner]
    rfl
  have hne : (Site.reverse signer.key).address ≠ (Site.name k).address :=
    Scope.address_ne hreverse hname (by rintro ⟨⟩)
  have hstored := store_ok hstore
  have hstored' := store_ok hstore'
  rw [haddress] at hstored howned
  rw [hkey] at hstored'
  have hbytes : (Transition.setPrimary (n.account k)).2 =
      Binding.account ⟨k, n.bind.primaryBindingNonce⟩ signer.key := by
    rw [howner]
    rfl
  rw [hbytes] at hstored'
  replace hstored : Stored signer.key (Site.name k).address (encodeState (n.bind.account k)) L₁ L₂ :=
    hstored
  have hstep : R.Step decoys ⟨signer.key, .setPrimary k⟩
      ((R.setName k n.bind).setReverse signer.key (some ⟨k, n.bind.primaryBindingNonce⟩)) := by
    rw [howner]
    exact .setPrimary hn
  refine ⟨signer.key, signer?_cons hsigner, _, hstep, ?_⟩
  have hcontent : ((R.setName k n.bind).setReverse signer.key
      (some ⟨k, n.bind.primaryBindingNonce⟩)).content =
      Function.update (Function.update R.content (.name k) (encodeState (n.bind.account k)))
        (.reverse signer.key)
        (encodeState (Binding.account ⟨k, n.bind.primaryBindingNonce⟩ signer.key)) := by
    rw [Registry.content_setReverse, Registry.content_setName]
    rfl
  have hescrow : ((R.setName k n.bind).setReverse signer.key
      (some ⟨k, n.bind.primaryBindingNonce⟩)).escrow = R.escrow := by
    rw [Registry.escrow_setReverse, Registry.escrow_setName]
  obtain ⟨hpointer, rfl⟩ | created := prepared_ok hprepare
  · rw [hkey] at hpointer
    have hput := hstored.put howned
    have hput' := hstored'.put (by rw [hput.owner, if_neg hne, hpointer])
    exact
      { agrees := by
          rw [hcontent]
          exact (agrees.update hname hput.content).update hreverse hput'.content
        enclosed := fun enclosed =>
          (enclosed.update hname hput.content).update hreverse hput'.content
        yields := fun _ => hput.yields.trans hput'.yields
        total := hput'.total.trans hput.total
        funded := fun hpayer funded => by
          rw [hcontent, hescrow]
          exact (funded.put hput hpayer rfl).put hput' hpayer rfl }
  · rw [hkey] at created
    have hput := hstored.put (by rw [created.owner, if_neg hne.symm, howned])
    have hput' := hstored'.put (by rw [hput.owner, if_neg hne, created.owner, if_pos rfl])
    have hsites : Site.reverse signer.key ≠ .name k := by rintro ⟨⟩
    exact
      { agrees := by
          have hblank := (agrees.update hreverse created.content).update hname hput.content
          have hfinal := hblank.update hreverse hput'.content
          rw [update_around hsites] at hfinal
          rw [hcontent]
          exact hfinal
        enclosed := fun enclosed => ((enclosed.update hreverse created.content).update hname
          hput.content).update hreverse hput'.content
        yields := fun _ => (created.yields.trans hput.yields).trans hput'.yields
        total := hput'.total.trans (hput.total.trans created.total)
        funded := fun hpayer funded => by
          have hblank := (funded.created hreverse created hpayer rfl).put hput hpayer rfl
          have hfinal := hblank.put hput' hpayer rfl
          rw [update_around hsites] at hfinal
          rw [hcontent, hescrow]
          exact hfinal }

/-- The handler names no derived address: where it empties an account of nobody
in play, the registry sees nothing. -/
theorem clearPrimary_refines (hdecoys : Enclosed S L ∨ decoys) (h : clearPrimary L accounts = .ok L') :
    ∃ signer, signer? accounts = some signer ∧ Refines S decoys R ⟨signer, .clearPrimary⟩ L L' := by
  simp only [clearPrimary, Outcome.bind_ok, Outcome.reject_ok, nextAccountInfo_ok, Prod.exists,
    requireSigner_ok, requireOwner_ok, exists_const, ne_eq, not_not] at h
  obtain ⟨signer, _, rfl, pointer, _, rfl, hsigner, howned, reverse, hload, howner, hrealloc⟩ := h
  have hholds := owned_load_ok.mp ⟨howned, hload⟩
  refine ⟨signer.key, signer?_cons hsigner, ?_⟩
  by_cases hderived : S.Derived pointer.key
  · obtain ⟨s, hs, hkey⟩ := hderived
    have hsite := agrees s hs
    rw [hkey, hholds.content] at hsite
    obtain ⟨o, b, rfl, hb, rfl⟩ := reverse_of_content hsite.symm
    have hstep : R.Step decoys ⟨signer.key, .clearPrimary⟩ (R.setReverse signer.key none) := by
      refine .clearPrimary (b := b) ?_
      rw [howner]
      exact hb
    refine ⟨_, hstep, agrees.lands_cleared hs hkey.symm howned hrealloc ?_
      (Registry.escrow_setReverse ..) rfl⟩
    rw [Registry.content_setReverse, howner]
    rfl
  · have hdecoy : decoys := hdecoys.resolve_left fun enclosed =>
      hderived (enclosed _ (by rw [hholds.content]; exact encode_reverse_ne _))
    have hcontent := realloc_zero_content hrealloc
    exact ⟨R, .clearDecoy hdecoy,
      { agrees := fun s hs => by rw [hcontent, if_neg fun h => hderived ⟨s, hs, h⟩, agrees s hs]
        enclosed := fun enclosed j hj => by
          rw [hcontent] at hj
          split at hj
          · exact absurd rfl hj
          · exact enclosed j hj
        yields := fun _ => realloc_yields howned hrealloc
        total := Ledger.total_of_eq (realloc_ok hrealloc).2.2.2
        funded := fun hpayer funded => funded.spared (.of_eq (realloc_ok hrealloc).2.2.2) hpayer }⟩

end ArchNameService
