import ArchNameService.Guarantees.Presentation
import ArchNameService.Sdk.Directory

/-!
# What a client reads

The client reads one account at a time: a name, a record, a pointer, a listing, an offer.
On every ledger that the program has reached, what it returns is what the ledger holds,
and its primary name of an address is the one that the resolver of the program finds.
-/

namespace ArchNameService
open Deployment
open JsString (ofUtf8)
open Borsh (serialize)

/-! ## Decoding what the program stores -/

theorem decode_pointer (b : Binding) (o : ArchAddress) :
    Sdk.decodeReverseAccount (serialize (b.account o)) = .ok (b.account o) := by
  apply decode_serialize ReverseAccount.layout Sdk.reads_reverseAccount
  exact ⟨⟨trivial, trivial, trivial⟩, trivial, trivial, trivial, trivial⟩

theorem decode_listing (l : Listing) (h : Bytes 32) :
    Sdk.decodeListingAccount (serialize (l.account h)) = .ok (l.account h) := by
  apply decode_serialize ListingAccount.layout Sdk.reads_listingAccount
  exact ⟨⟨trivial, trivial, trivial⟩, trivial, trivial, trivial, trivial, trivial, trivial⟩

theorem decode_offer (x : Offer) (h : Bytes 32) (buyer : ArchAddress) :
    Sdk.decodeOfferAccount (serialize (x.account h buyer)) = .ok (x.account h buyer) := by
  apply decode_serialize OfferAccount.layout Sdk.reads_offerAccount
  exact ⟨⟨trivial, trivial, trivial⟩, trivial, trivial, trivial, trivial, trivial, trivial⟩

theorem validateHeader_fresh (discriminator : Bytes 8) :
    Sdk.validateHeader (.fresh discriminator) discriminator = .ok () :=
  validateHeader_ok.mpr (AccountHeader.validate_ok_iff.mpr rfl)

theorem activeListing_encoded (l : Listing) (h : Bytes 32) :
    Sdk.AnsClient.activeListing (serialize (l.account h)) =
      (some (l.account h)).filter (·.active) := by
  have hheader : Sdk.validateHeader (l.account h).header listingAccountDiscriminator = .ok () :=
    validateHeader_fresh _
  simp only [Sdk.AnsClient.activeListing, decode_listing, Outcome.ok_bind, hheader]
  rfl

theorem activeOffer_encoded (x : Offer) (h : Bytes 32) (buyer : ArchAddress) :
    Sdk.AnsClient.activeOffer (serialize (x.account h buyer)) =
      (some (x.account h buyer)).filter (·.active) := by
  have hheader : Sdk.validateHeader (x.account h buyer).header offerAccountDiscriminator = .ok () :=
    validateHeader_fresh _
  simp only [Sdk.AnsClient.activeOffer, decode_offer, Outcome.ok_bind, hheader]
  rfl

/-- A name that has a hash has a canonical form, with the same hash. -/
theorem Sdk.canonical_of_hash [Crypto] [Sdk.Platform] {name : JsString} {h : Bytes 32}
    (hhash : Sdk.nameHash name = .ok h) :
    ∃ canonical, Sdk.canonicalizeName name = .ok canonical ∧ Sdk.nameHash canonical = .ok h := by
  rw [Sdk.nameHash] at hhash
  obtain ⟨canonical, hcanonical, hrest⟩ := Outcome.bind_ok.mp hhash
  obtain ⟨label, hlabel, rfl⟩ := Sdk.canonicalizeName_ok hcanonical
  refine ⟨_, hcanonical, ?_⟩
  rw [Sdk.nameHash, Sdk.canonicalizeName_label hlabel]
  exact hrest

/-! ## Pointers -/

/-- A pointer points to a registered name, for which it was set. -/
theorem Registry.pointed [Crypto] {decoys : Prop} {history : List Action} {R : Registry}
    (run : Reached decoys history R) (o : ArchAddress) {b : Binding} (hb : R.reverse o = some b) :
    ⟨o, .setPrimary b.primaryNameHash⟩ ∈ history ∧ ∃ n, R.name b.primaryNameHash = some n := by
  revert o b
  refine run.invariant (I := fun history R => ∀ o b, R.reverse o = some b →
    ⟨o, .setPrimary b.primaryNameHash⟩ ∈ history ∧ ∃ n, R.name b.primaryNameHash = some n) ?_ ?_
  · intro o b hb
    cases hb
  · intro history R a R' _ ih step o b hb
    have hregistered : ∀ k n, R.name k = some n → ∃ n', R'.name k = some n' := by
      intro k n hn
      have change := step.name_change k
      rw [hn] at change
      generalize R'.name k = x at change ⊢
      cases change with
      | kept | moved | bound => exact ⟨_, rfl⟩
    have hkept : R.reverse o = some b →
        ⟨o, .setPrimary b.primaryNameHash⟩ ∈ a :: history ∧
          ∃ n, R'.name b.primaryNameHash = some n := by
      intro hold
      obtain ⟨hmem, n, hn⟩ := ih o b hold
      exact ⟨List.mem_cons_of_mem a hmem, hregistered _ n hn⟩
    cases step with
    | @setPrimary h n hname =>
        by_cases ho : o = n.owner
        · subst ho
          rw [reverse_setReverse_self] at hb
          cases hb
          exact ⟨List.mem_cons_self, n.bind, name_setName_self _ _ _⟩
        · rw [reverse_setReverse_of_ne _ _ ho] at hb
          exact hkept hb
    | @clearPrimary signer _ hbound =>
        by_cases ho : o = signer
        · subst ho
          rw [reverse_setReverse_self] at hb
          cases hb
        · rw [reverse_setReverse_of_ne _ _ ho] at hb
          exact hkept hb
    | _ => exact hkept hb

/-- No byte order mark is ever published. -/
theorem Registry.unmarked_of_reached [Crypto] {decoys : Prop} {history : List Action} {R : Registry}
    (run : Reached decoys history R) {h : Bytes 32} {slot : RecordSlot} (p : Publication)
    (hp : R.record (h, slot) = some p) : p.value.Unmarked := by
  revert p
  refine run.invariant
    (I := fun _ R => ∀ p, R.record (h, slot) = some p → p.value.Unmarked) ?_ ?_
  · intro p hp
    cases hp
  · intro history R a R' _ ih step p hp
    cases hwrites : a.writesRecord h slot with
    | false =>
        rw [step.record_kept hwrites] at hp
        exact ih p hp
    | true =>
        obtain ⟨n, -, -, hwrite⟩ := step.record_written hwrites
        rw [hp] at hwrite
        cases hwrite with
        | published hslot hopen hvalue => exact unmarked_of_valid hvalue

theorem canonicalizeName_account [Sdk.Platform] (n : Registration) :
    Sdk.canonicalizeName (ofUtf8 n.label.str.bytes ++ Sdk.text ".arch") =
      .ok (ofUtf8 (n.label.str.bytes ++ archSuffix)) := by
  have hlabel : ofUtf8 n.label.str.bytes ++ Sdk.text ".arch" =
      ofUtf8 (n.label.str.bytes ++ archSuffix) := by
    rw [JsString.ofUtf8_ascii (validateLabel_ascii n.label.valid),
      JsString.ofUtf8_ascii (canonical_ascii n.label.valid), JsString.ofAscii, JsString.ofAscii,
      List.map_append]
    rfl
  rw [hlabel]
  exact canonicalizeName_stored n

/-- A stored pointer resolves to its name while the name carries its owner and nonce. -/
theorem resolvePrimary_stored [Deployment] [Sdk.Platform] (authority : ArchAddress) {n : Registration}
    {b : Binding} {o : ArchAddress} {slot : UInt64} (hslot : slot < Transition.permanentExpiry) :
    Sdk.resolvePrimary programId
        ⟨Site.config.address, (initialConfig testnetNetworkId authority).toSdk⟩
        ⟨(Site.reverse o).address, b.account o⟩
        ⟨(Site.name b.primaryNameHash).address, (n.account b.primaryNameHash).toSdk⟩ slot =
      if n.owner = o ∧ n.primaryBindingNonce = b.bindingNonce then
        .ok (ofUtf8 (n.label.str.bytes ++ archSuffix))
      else .error (.ansError .invalidReverseBinding none) := by
  have hconfig : Sdk.validateConfig programId
      ⟨Site.config.address, (initialConfig testnetNetworkId authority).toSdk⟩ = .ok () :=
    (@validateConfig_iff _ programId
      ⟨Site.config.address, initialConfig testnetNetworkId authority⟩ ()).mpr validateConfig_ok
  have hpointer : Sdk.validateHeader (b.account o).header reverseAccountDiscriminator = .ok () :=
    validateHeader_fresh _
  have hname : Sdk.validateHeader (n.account b.primaryNameHash).toSdk.header
      nameAccountDiscriminator = .ok () := validateHeader_fresh _
  have hreverse : Sdk.deriveReverseAddress programId (ofUtf8 testnetNamespace.bytes) o.toList =
      (Site.reverse o).address := Sdk.deriveReverseAddress_eq ..
  have hderive : Sdk.deriveNameAddress programId (ofUtf8 testnetNamespace.bytes) b.primaryNameHash =
      (Site.name b.primaryNameHash).address := Sdk.deriveNameAddress_eq ..
  have hactive : Sdk.isActive (n.account b.primaryNameHash).toSdk slot = true :=
    decide_eq_true hslot
  have hcanonical := canonicalizeName_account n
  have hreverseOk : Sdk.deriveReverseAddress programId
      (initialConfig testnetNetworkId authority).toSdk.namespace (b.account o).owner.toList =
        (Site.reverse o).address := hreverse
  have hderiveOk : Sdk.deriveNameAddress programId
      (initialConfig testnetNetworkId authority).toSdk.namespace (b.account o).primaryNameHash =
        (Site.name b.primaryNameHash).address := hderive
  simp only [Sdk.resolvePrimary, hconfig, hpointer, hname, hreverseOk, hderiveOk, reject, hactive,
    Outcome.ok_bind, ne_eq, not_true_eq_false, if_false, false_or]
  by_cases hbound : n.owner = o ∧ n.primaryBindingNonce = b.bindingNonce
  · have hkept : ¬ (¬ (n.account b.primaryNameHash).toSdk.nameHash = (b.account o).primaryNameHash ∨
        ¬ (n.account b.primaryNameHash).toSdk.owner = (b.account o).owner ∨
        ¬ (n.account b.primaryNameHash).toSdk.primaryBindingNonce = (b.account o).bindingNonce) := by
      rintro (hhash | howner | hnonce)
      · exact hhash rfl
      · exact howner hbound.1
      · exact hnonce hbound.2
    rw [if_pos hbound, if_neg hkept, Outcome.ok_bind]
    exact hcanonical
  · have hlost : ¬ (n.account b.primaryNameHash).toSdk.nameHash = (b.account o).primaryNameHash ∨
        ¬ (n.account b.primaryNameHash).toSdk.owner = (b.account o).owner ∨
        ¬ (n.account b.primaryNameHash).toSdk.primaryBindingNonce = (b.account o).bindingNonce :=
      .inr (not_and_or.mp hbound)
    rw [if_neg hbound, if_pos hlost]
    rfl

/-! ## Addresses -/

namespace Sdk.AnsClient.Deployed
variable [Deployment] {client : Sdk.AnsClient} (deployed : client.Deployed)
include deployed

theorem reverseAddress (o : ArchAddress) :
    Sdk.deriveReverseAddress client.programId client.namespace o.toList =
      (Site.reverse o).address := by
  rw [deployed.programId, deployed.namespace]
  exact Sdk.deriveReverseAddress_eq ..

theorem listingAddress (h : Bytes 32) :
    Sdk.deriveListingAddress client.programId client.namespace h = (Site.listing h).address := by
  rw [deployed.programId, deployed.namespace, Sdk.deriveListingAddress, Sdk.namespaceHash_eq]
  rfl

theorem offerAddress (h : Bytes 32) (buyer : ArchAddress) :
    Sdk.deriveOfferAddress client.programId client.namespace h buyer.toList =
      (Site.offer h buyer).address := by
  rw [deployed.programId, deployed.namespace, Sdk.deriveOfferAddress, Sdk.namespaceHash_eq]
  rfl

end Sdk.AnsClient.Deployed

/-! ## One account -/

section
variable [Deployment] {L L₀ : Ledger} {S : Scope} {client : Sdk.AnsClient} {R : Registry}
  {snapshot : Sdk.Snapshot} {h : Bytes 32} {k o buyer : ArchAddress} {history : List Event}

/-- What is read at an address that holds one account of the program, or nothing. -/
inductive Shown {T : Type} [Borsh T] (snapshot : Sdk.Snapshot) (k : ArchAddress) : Option T → Prop
  | missing (hnone : snapshot.account k = none) : Shown snapshot k none
  | blank {info : Sdk.AccountInfo} (hsome : snapshot.account k = some info)
      (hdata : info.data = []) : Shown snapshot k none
  | present {x : T} (hsome : snapshot.account k = some ⟨encodeState x, programId.toList⟩)
      (hdata : encodeState x ≠ []) : Shown snapshot k (some x)

theorem Clean.shown {T : Type} [Borsh T] {s : Site} {x : Option T} (clean : Clean S L) (hs : s ∈ S)
    (hof : snapshot.Of L) (hcontent : L.content s.address = encoded x)
    (hne : ∀ a : T, encodeState a ≠ []) : Shown snapshot s.address x := by
  cases x with
  | some a =>
      have holds := holds_of_content (hne a) hcontent
      exact .present (holds.served (hne a) hof) (hne a)
  | none =>
      have hempty : L.data s.address = [] := by
        rcases clean s hs with howner | ⟨-, hempty⟩
        · rwa [Ledger.content_of_owner howner] at hcontent
        · exact hempty
      rcases hof s.address with hsome | ⟨hnone, -⟩
      · exact .blank hsome hempty
      · exact .missing hnone

variable [Sdk.Platform] (agrees : Agrees S L R.content) (clean : Clean S L) (deployed : client.Deployed)
  (hserves : client.transport.Serves snapshot) (hof : snapshot.Of L)
include agrees clean deployed hserves hof

omit [Sdk.Platform] in
theorem fetchReverse_served (hs : .reverse o ∈ S) :
    client.fetchReverse o.toList = .ok (L.storedReverse o) := by
  have hshown := clean.shown hs hof (agrees _ hs) encode_reverse_ne
  rw [agrees.storedReverse hs]
  simp only [Sdk.AnsClient.fetchReverse, deployed.reverseAddress, hserves.read, Outcome.ok_bind]
  generalize hx : (R.reverse o).map (·.account o) = x at hshown ⊢
  cases hshown with
  | missing hnone =>
      rw [hnone]
      rfl
  | blank hsome hdata =>
      rw [hsome]
      exact if_pos hdata
  | present hsome hdata =>
      obtain ⟨b, -, rfl⟩ := Option.map_eq_some_iff.mp hx
      have hheader : Sdk.validateHeader (b.account o).header reverseAccountDiscriminator = .ok () :=
        validateHeader_fresh _
      rw [hsome]
      simp only [if_neg hdata]
      change Sdk.decodeReverseAccount (serialize (b.account o)) >>= _ = _
      rw [decode_pointer, Outcome.ok_bind, hheader]
      rfl

theorem fetchRecord_served {place : Sdk.ProfileRecord} {name : JsString}
    (hvalues : ∀ p, R.record (h, place.slot) = some p → p.value.Unmarked)
    (hs : .record h place.slot ∈ S) (hhash : Sdk.nameHash name = .ok h)
    (hkey : ∀ key, place = .text key → key ≠ []) :
    client.fetchRecord name place.recordType place.textKey =
      .ok ((L.storedRecord h place.slot).map RecordAccount.toSdk) := by
  have hshown := clean.shown hs hof (agrees _ hs) encode_record_ne
  rw [agrees.storedRecord hs]
  simp only [Sdk.AnsClient.fetchRecord, hhash, deployed.recordAddress h hkey, hserves.read,
    Outcome.ok_bind]
  generalize hx : (R.record (h, place.slot)).map (·.account h) = x at hshown ⊢
  cases hshown with
  | missing hnone =>
      rw [hnone]
      rfl
  | blank hsome hdata =>
      rw [hsome]
      exact if_pos hdata
  | present hsome hdata =>
      obtain ⟨p, hp, rfl⟩ := Option.map_eq_some_iff.mp hx
      rw [hsome]
      simp only [if_neg hdata, recordOf_publication h (hvalues p hp), Outcome.ok_bind]
      rfl

theorem fetchListing_served {name : JsString} (hs : .listing h ∈ S)
    (hhash : Sdk.nameHash name = .ok h) :
    client.fetchListing name = .ok ((L.storedListing h).filter (·.active)) := by
  obtain ⟨canonical, hcanonical, hsame⟩ := Sdk.canonical_of_hash hhash
  have hshown := clean.shown hs hof (agrees _ hs) encode_listing_ne
  rw [agrees.storedListing hs]
  simp only [Sdk.AnsClient.fetchListing, hcanonical, hsame, deployed.listingAddress, hserves.read,
    Outcome.ok_bind]
  generalize hx : (R.listing h).map (·.account h) = x at hshown ⊢
  cases hshown with
  | missing hnone =>
      rw [hnone]
      rfl
  | blank hsome hdata =>
      rw [hsome]
      exact congrArg Except.ok (if_pos hdata)
  | present hsome hdata =>
      obtain ⟨l, -, rfl⟩ := Option.map_eq_some_iff.mp hx
      rw [hsome]
      exact congrArg Except.ok ((if_neg hdata).trans (activeListing_encoded l h))

theorem fetchOffer_served {name : JsString} (hs : .offer h buyer ∈ S)
    (hhash : Sdk.nameHash name = .ok h) :
    client.fetchOffer name buyer.toList = .ok ((L.storedOffer h buyer).filter (·.active)) := by
  obtain ⟨canonical, hcanonical, hsame⟩ := Sdk.canonical_of_hash hhash
  have hshown := clean.shown hs hof (agrees _ hs) encode_offer_ne
  rw [agrees.storedOffer hs]
  simp only [Sdk.AnsClient.fetchOffer, hcanonical, hsame, deployed.offerAddress, hserves.read,
    Outcome.ok_bind]
  generalize hx : (R.offer (h, buyer)).map (·.account h buyer) = x at hshown ⊢
  cases hshown with
  | missing hnone =>
      rw [hnone]
      rfl
  | blank hsome hdata =>
      rw [hsome]
      exact congrArg Except.ok (if_pos hdata)
  | present hsome hdata =>
      obtain ⟨l, -, rfl⟩ := Option.map_eq_some_iff.mp hx
      rw [hsome]
      exact congrArg Except.ok ((if_neg hdata).trans (activeOffer_encoded l h buyer))

theorem fetchNameAccount_served {name : JsString} (hs : .name h ∈ S)
    (hhash : Sdk.nameHash name = .ok h) :
    client.fetchNameAccount name = .ok ((L.storedName h).map NameAccount.toSdk) := by
  obtain ⟨canonical, hcanonical, hsame⟩ := Sdk.canonical_of_hash hhash
  have hshown := clean.shown hs hof (agrees _ hs) encode_name_ne
  rw [agrees.storedName hs]
  simp only [Sdk.AnsClient.fetchNameAccount, Sdk.AnsClient.getNameAvailability, hcanonical, hsame,
    deployed.nameAddress, hserves.read, Outcome.ok_bind]
  generalize hx : (R.name h).map (·.account h) = x at hshown ⊢
  cases hshown with
  | missing hnone =>
      rw [hnone]
      rfl
  | blank hsome hdata =>
      rw [hsome]
      simp only [if_pos hdata]
      rfl
  | present hsome hdata =>
      obtain ⟨n, -, rfl⟩ := Option.map_eq_some_iff.mp hx
      have hheader : Sdk.validateHeader (n.account h).toSdk.header nameAccountDiscriminator =
          .ok () := validateHeader_fresh _
      have hdecode : Sdk.decodeNameAccount (encodeState (n.account h)) = .ok (n.account h).toSdk :=
        decode_registration n h
      have howner : ¬ programId.toList ≠ client.programId.toList := by
        rw [deployed.programId]
        exact not_not.mpr rfl
      rw [hsome]
      simp only [if_neg hdata, Sdk.AnsClient.classify_account
        (Sdk.AnsClient.not_blank_of_readsName ⟨_, hdecode, hheader⟩) hdecode hheader, reject, if_neg howner]
      rfl

/-- The primary name is the one that the resolver of the program finds. -/
theorem resolvePrimary_served (run : Registry.Reached True (actions history) R)
    (hsites : ∀ a ∈ actions history, a.sites.Forall (· ∈ S)) (hconfig : .config ∈ S)
    (hs : .reverse o ∈ S) (hopened : L.storedConfig.isSome)
    (hslot : snapshot.slot < Transition.permanentExpiry) :
    client.resolvePrimary o = .ok ((L.resolvePrimary o snapshot.slot).map ofUtf8) := by
  obtain ⟨config, hstored⟩ := Option.isSome_iff_exists.mp hopened
  rw [agrees.storedConfig hconfig] at hstored
  obtain ⟨authority, hauthority, rfl⟩ := Option.map_eq_some_iff.mp hstored
  have hconfigured : Holds L Site.config.address (initialConfig testnetNetworkId authority) := by
    apply stored_eq_some.mp
    exact (agrees.storedConfig hconfig).trans (by rw [hauthority]; rfl)
  have hopen : ∀ h n, R.name h = some n → ∃ authority, R.authority = some authority :=
    fun _ _ _ => ⟨authority, hauthority⟩
  have hpointed : ∀ b, R.reverse o = some b → .name b.primaryNameHash ∈ S := by
    intro b hb
    exact (hsites _ (Registry.pointed run o hb).1).2.1
  have hview := agrees.resolvePrimary hconfig hs hopen hpointed hslot
  have hshown := clean.shown hs hof (agrees _ hs) encode_reverse_ne
  simp only [Sdk.AnsClient.resolvePrimary, deployed.config_served hserves hof hconfigured,
    deployed.reverseAddress, hserves.read, Outcome.ok_bind]
  cases hreverse : R.reverse o with
  | none =>
      have hnone : L.resolvePrimary o snapshot.slot = none := by
        apply Option.eq_none_iff_forall_ne_some.mpr
        intro found hfound
        obtain ⟨b, _, hb, -⟩ := (hview found).mp hfound
        rw [hreverse] at hb
        cases hb
      rw [hnone]
      rw [hreverse] at hshown
      cases hshown with
      | missing hmissing =>
          rw [hmissing]
          rfl
      | blank hsome hdata =>
          rw [hsome]
          exact if_pos hdata
  | some b =>
      obtain ⟨n, hn⟩ := (Registry.pointed run o hreverse).2
      have hname : .name b.primaryNameHash ∈ S := hpointed b hreverse
      have hregistered := clean.shown hname hof (agrees _ hname) encode_name_ne
      rw [hn] at hregistered
      rw [hreverse] at hshown
      have hdecode : Sdk.decodeReverseAccount (encodeState (b.account o)) = .ok (b.account o) :=
        decode_pointer b o
      have hheader : Sdk.validateHeader (b.account o).header reverseAccountDiscriminator = .ok () :=
        validateHeader_fresh _
      have hdecodeName : Sdk.decodeNameAccount (encodeState (n.account b.primaryNameHash)) =
          .ok (n.account b.primaryNameHash).toSdk := decode_registration n _
      cases hshown with
      | present hsome hdata =>
          cases hregistered with
          | present hnamed _ =>
              have hnameAddress : Sdk.deriveNameAddress client.programId client.namespace
                  (b.account o).primaryNameHash = (Site.name b.primaryNameHash).address :=
                deployed.nameAddress b.primaryNameHash
              rw [hsome]
              simp only [if_neg hdata, hdecode, hheader, Outcome.ok_bind]
              rw [hnameAddress, hnamed]
              simp only [hserves.slot, hdecodeName, Outcome.ok_bind, deployed.programId,
                deployed.registryConfigAddress, resolvePrimary_stored authority hslot]
              by_cases hbound : n.owner = o ∧ n.primaryBindingNonce = b.bindingNonce
              · have hfound : L.resolvePrimary o snapshot.slot =
                    some (n.label.str.bytes ++ archSuffix) :=
                  (hview _).mpr ⟨b, n, hreverse, hn, hbound.1, hbound.2, rfl⟩
                rw [if_pos hbound, hfound]
                rfl
              · have hnone : L.resolvePrimary o snapshot.slot = none := by
                  apply Option.eq_none_iff_forall_ne_some.mpr
                  intro found hfound
                  obtain ⟨b', n', hb', hn', howner, hnonce, -⟩ := (hview found).mp hfound
                  cases hreverse.symm.trans hb'
                  cases hn.symm.trans hn'
                  exact hbound ⟨howner, hnonce⟩
                rw [if_neg hbound, hnone]
                rfl

omit clean in
theorem resolveOwner_served {name : JsString} {registered : NameAccount}
    (run : Registry.Reached True (actions history) R) (hconfig : .config ∈ S) (hs : .name h ∈ S)
    (hslot : snapshot.slot < Transition.permanentExpiry)
    (hregistered : L.storedName h = some registered)
    (hrequested : Sdk.canonicalizeName name =
      .ok (ofUtf8 (registered.canonicalLabel.bytes ++ archSuffix))) :
    client.resolveOwner name = .ok registered.owner := by
  obtain ⟨n, hn, rfl⟩ := agrees.name_of_stored hs hregistered
  have hhash := (Registry.tenure run hn).hash
  obtain ⟨authority, hauthority⟩ := Registry.authority_of_name run hn
  have hconfigured : Holds L Site.config.address (initialConfig testnetNetworkId authority) := by
    apply stored_eq_some.mp
    exact (agrees.storedConfig hconfig).trans (by rw [hauthority]; rfl)
  have hname := (stored_eq_some.mp hregistered).served (encode_name_ne _) hof
  have hdecode : Sdk.decodeNameAccount (encodeState (n.account h)) = .ok (n.account h).toSdk :=
    decode_registration n h
  have hvalid : Sdk.validateConfig programId
      ⟨Site.config.address, (initialConfig testnetNetworkId authority).toSdk⟩ = .ok () :=
    (@validateConfig_iff _ programId
      ⟨Site.config.address, initialConfig testnetNetworkId authority⟩ ()).mpr validateConfig_ok
  simp only [Sdk.AnsClient.resolveOwner, deployed.config_served hserves hof hconfigured,
    nameHash_requested hhash hrequested, deployed.nameAddress, hserves.read, hserves.slot,
    Outcome.ok_bind]
  rw [hname]
  simp only [orElseError, Outcome.ok_bind]
  change (Sdk.decodeNameAccount (encodeState (n.account h)) >>= _) = _
  rw [hdecode, Outcome.ok_bind, deployed.programId, deployed.registryConfigAddress,
    Sdk.resolveOwner, hvalid, Outcome.ok_bind,
    validateName_requested (u := ()) authority hhash hrequested hslot]
  rfl

end

/-! ## All of them -/

/-- What the client returns is what the accounts in play hold. -/
structure Sdk.AnsClient.ReadsExactly [Deployment] [Sdk.Platform] (client : Sdk.AnsClient) (S : Scope)
    (L : Ledger) (slot : UInt64) : Prop where
  name : ∀ {name h}, .name h ∈ S → Sdk.nameHash name = .ok h →
    client.fetchNameAccount name = .ok ((L.storedName h).map NameAccount.toSdk)
  owner : ∀ {name h registered}, .config ∈ S → .name h ∈ S → L.storedName h = some registered →
    Sdk.canonicalizeName name =
      .ok (ofUtf8 (registered.canonicalLabel.bytes ++ ArchNameService.archSuffix)) →
    client.resolveOwner name = .ok registered.owner
  record : ∀ {name h} {place : Sdk.ProfileRecord}, .record h place.slot ∈ S →
    Sdk.nameHash name = .ok h → (∀ key, place = .text key → key ≠ []) →
    client.fetchRecord name place.recordType place.textKey =
      .ok ((L.storedRecord h place.slot).map RecordAccount.toSdk)
  pointer : ∀ {o : ArchAddress}, .reverse o ∈ S →
    client.fetchReverse o.toList = .ok (L.storedReverse o)
  primary : ∀ {o : ArchAddress}, .config ∈ S → .reverse o ∈ S → L.storedConfig.isSome →
    client.resolvePrimary o = .ok ((L.resolvePrimary o slot).map ofUtf8)
  listing : ∀ {name h}, .listing h ∈ S → Sdk.nameHash name = .ok h →
    client.fetchListing name = .ok ((L.storedListing h).filter (·.active))
  offer : ∀ {name h} {buyer : ArchAddress}, .offer h buyer ∈ S → Sdk.nameHash name = .ok h →
    client.fetchOffer name buyer.toList = .ok ((L.storedOffer h buyer).filter (·.active))

section
variable [Deployment] [Sdk.Platform] {L L₀ : Ledger} {S : Scope} {client : Sdk.AnsClient}
  {snapshot : Sdk.Snapshot} {history : List Event}

theorem reads_exact (genesis : Genesis L₀) (untouched : Untouched S L₀)
    (run : Run (Ledger.Step S) L₀ history L) (deployed : client.Deployed)
    (hserves : client.transport.Serves snapshot) (hof : snapshot.Of L)
    (hslot : snapshot.slot < Transition.permanentExpiry) :
    client.ReadsExactly S L snapshot.slot := by
  obtain ⟨R, hreached, corresponds⟩ := genesis.reached run
  have agrees := corresponds.agrees
  have clean := corresponds.clean untouched.clean
  constructor
  · intro name h hs hhash
    exact fetchNameAccount_served agrees clean deployed hserves hof hs hhash
  · intro name h registered hconfig hs hregistered hrequested
    exact resolveOwner_served agrees deployed hserves hof hreached hconfig hs hslot hregistered
      hrequested
  · intro name h place hs hhash hkey
    exact fetchRecord_served agrees clean deployed hserves hof (Registry.unmarked_of_reached hreached)
      hs hhash hkey
  · intro o hs
    exact fetchReverse_served agrees clean deployed hserves hof hs
  · intro o hconfig hs hopened
    exact resolvePrimary_served agrees clean deployed hserves hof hreached (sites_of_run run) hconfig
      hs hopened hslot
  · intro name h hs hhash
    exact fetchListing_served agrees clean deployed hserves hof hs hhash
  · intro name h buyer hs hhash
    exact fetchOffer_served agrees clean deployed hserves hof hs hhash

end

open Testnet in
/-- What Ann lists for 500, the client finds at 500. -/
theorem listing_read : ∃ (L : Ledger) (l : ListingAccount),
    (site L).fetchListing requested = .ok (some l) ∧ l.seller = ann ∧ l.price = 500 := by
  obtain ⟨L, run, -, -, hp⟩ := reached (opening ++ [listing .arch 500])
    (fun L => decide (((L.storedListing alice).filter (·.active)).map (fun l => (l.seller, l.price)) =
      some (ann, 500))) (by decide +kernel) (by decide +kernel)
  obtain ⟨l, hl, hterms⟩ := Option.map_eq_some_iff.mp (of_decide_eq_true hp)
  obtain ⟨hseller, hprice⟩ := Prod.mk.inj hterms
  have reads := reads_exact start_genesis start_untouched run (site_deployed L)
    (Sdk.Snapshot.serves _) (served_of L) (by decide : (0 : UInt64) < Transition.permanentExpiry)
  have hhash : Sdk.nameHash requested = .ok alice :=
    Outcome.toOption_eq_some.mp (by decide +kernel)
  refine ⟨L, l, ?_, hseller, hprice⟩
  rw [reads.listing (by decide : .listing alice ∈ sites) hhash, hl]

end ArchNameService
