import ArchNameService.Guarantees.Reads
import ArchNameService.Guarantees.Timeline
import ArchNameService.Lib.Enumeration

/-!
# The directory of the ledger

The client asks for all accounts of the program and keeps what decodes and stands at its
derived address. On every ledger that the program has reached it lists every registered
name, every active listing and every active offer, each of them once, and no other.
-/

namespace ArchNameService
open Deployment
open Comparator (byOrder byOrder_consistent thenBy onKey)
open JsString (ofUtf8 bytesToHex)
open Borsh (serialize)

/-! ## Scans -/

namespace Sdk

/-- The data holds the bytes of the filter at its place. -/
def AccountFilter.Matches (f : AccountFilter) (data : List UInt8) : Prop :=
  (data.drop f.offset).take f.bytes.length = f.bytes

instance (f : AccountFilter) (data : List UInt8) : Decidable (f.Matches data) :=
  inferInstanceAs (Decidable (_ = _))

/-- What a scan of a snapshot returns: accounts of it, each once, and all that match. -/
structure Snapshot.Scanned (snapshot : Snapshot) (programId : ArchAddress)
    (filters : List AccountFilter) (entries : List ProgramAccountEntry) : Prop where
  once : (entries.map (·.pubkey)).Nodup
  held : ∀ e ∈ entries, ∃ k : ArchAddress, e.pubkey = k.toList ∧ snapshot.account k = some e.account
  complete : ∀ (k : ArchAddress) info, snapshot.account k = some info →
    info.owner = programId.toList → (∀ f ∈ filters, f.Matches info.data) →
      ⟨k.toList, info⟩ ∈ entries

theorem matches_discriminator (header : AccountHeader) (rest : List UInt8) :
    (hasDiscriminator header.discriminator).Matches (serialize header ++ rest) := by
  have hfront : serialize header ++ rest = header.discriminator.toList ++
      ((serialize header.initialized ++ serialize header.stateVersion) ++ rest) :=
    List.append_assoc _ _ _
  rw [AccountFilter.Matches, hfront]
  exact List.take_left

/-- What follows the header stands at 11. -/
theorem matches_after_header (header : AccountHeader) (h : Bytes 32) (rest : List UInt8) :
    AccountFilter.Matches { offset := 11, bytes := h.toList }
      (serialize header ++ (h.toList ++ rest)) := by
  have hlength : (serialize header).length = 11 := by
    change (header.discriminator.toList ++
      (serialize header.initialized ++ serialize header.stateVersion)).length = 11
    rw [List.length_append, List.length_append, header.discriminator.toList_length,
      Borsh.length_bool, Borsh.length_u16]
  change ((serialize header ++ (h.toList ++ rest)).drop 11).take h.toList.length = h.toList
  rw [← hlength, List.drop_left]
  exact List.take_left

/-- What a scan with these filters answers is what the snapshot holds. -/
def ProgramScan.Answers (scan : ProgramScan) (programId : ArchAddress)
    (filters : List AccountFilter) (snapshot : Snapshot) : Prop :=
  ∃ entries, scan programId filters = .ok entries ∧ snapshot.Scanned programId filters entries

/-! ## What a scan keeps -/

section
variable [Deployment] {snapshot : Snapshot} {filters : List AccountFilter}
  {entries : List ProgramAccountEntry} {T β κ : Type} [Borsh T] {f : ProgramAccountEntry → Option β}

theorem Snapshot.Scanned.kept_iff {k : ArchAddress} {x : Option T}
    (scanned : snapshot.Scanned programId filters entries) (hshown : Shown snapshot k x)
    (hmatch : ∀ a, x = some a → ∀ g ∈ filters, g.Matches (encodeState a))
    (hdata : ∀ e b, f e = some b → e.account.data ≠ []) (b : β) :
    (∃ e ∈ entries, e.pubkey = k.toList ∧ f e = some b) ↔
      ∃ a, x = some a ∧ f ⟨k.toList, ⟨encodeState a, programId.toList⟩⟩ = some b := by
  constructor
  · intro ⟨e, he, hpubkey, hkept⟩
    obtain ⟨k', hk', hheld⟩ := scanned.held e he
    cases Bytes.toList_injective (hk'.symm.trans hpubkey)
    cases hshown with
    | missing hnone => exact absurd (hnone.symm.trans hheld) nofun
    | blank hsome hempty =>
        cases hsome.symm.trans hheld
        exact absurd hempty (hdata e b hkept)
    | @present a hsome _ =>
        cases e with
        | mk pubkey account =>
            cases hsome.symm.trans hheld
            cases hpubkey
            exact ⟨a, rfl, hkept⟩
  · intro ⟨a, hx, hkept⟩
    subst hx
    cases hshown with
    | present hsome _ =>
        exact ⟨_, scanned.complete k _ hsome rfl (hmatch a rfl), rfl, hkept⟩

/-- Where what is kept tells the address that it came from, a scan enumerates what is stored. -/
theorem Snapshot.Scanned.enumerates {place : β → κ} {scope : κ → Prop} {held : κ → Option β}
    (scanned : snapshot.Scanned programId filters entries) (address : κ → ArchAddress)
    (stored : κ → Option T) (hshown : ∀ k, scope k → Shown snapshot (address k) (stored k))
    (hmatch : ∀ k a, stored k = some a → ∀ g ∈ filters, g.Matches (encodeState a))
    (hkept : ∀ e b, f e = some b → e.account.data ≠ [] ∧ (address (place b)).toList = e.pubkey)
    (hheld : ∀ k, scope k → (stored k).bind (fun a =>
      f ⟨(address k).toList, ⟨encodeState a, programId.toList⟩⟩) = held k)
    (hplace : ∀ k b, scope k → held k = some b → place b = k) :
    Enumerates place scope held (entries.filterMap f) where
  once := by
    have hnodup : ((entries.filterMap f).map fun b => (address (place b)).toList).Nodup :=
      Enumerates.nodup_filterMap scanned.once fun e b h => (hkept e b h).2
    have hsame : (entries.filterMap f).map (fun b => (address (place b)).toList) =
        ((entries.filterMap f).map place).map fun k => (address k).toList := by
      rw [List.map_map]
      rfl
    exact List.Nodup.of_map _ (hsame ▸ hnodup)
  mem_iff k hk b := by
    have hiff := scanned.kept_iff (hshown k hk) (hmatch k) (fun e b h => (hkept e b h).1) b
    rw [← Option.bind_eq_some_iff, hheld k hk] at hiff
    rw [List.mem_filterMap]
    constructor
    · intro ⟨⟨e, he, hb⟩, hplaced⟩
      subst hplaced
      exact hiff.mp ⟨e, he, (hkept e b hb).2.symm, hb⟩
    · intro hb
      obtain ⟨e, he, -, hb'⟩ := hiff.mpr hb
      exact ⟨⟨e, he, hb'⟩, hplace k b hk hb⟩

end

end Sdk

/-! ## Entries of the directory -/

/-- A name account under the name that it is of. -/
def NameAccount.named (account : NameAccount) : Sdk.NamedAccount :=
  { name := ofUtf8 (account.canonicalLabel.bytes ++ archSuffix), account := account.toSdk }

section
variable [Deployment] {client : Sdk.AnsClient} (deployed : client.Deployed)
  {e : Sdk.ProgramAccountEntry} {h : Bytes 32} {k buyer : ArchAddress}
include deployed

theorem namedEntry_encoded [Sdk.Platform] (n : Registration) (h : Bytes 32) :
    client.namedEntry
        ⟨(Site.name h).address.toList, ⟨encodeState (n.account h), programId.toList⟩⟩ =
      some (n.account h).named := by
  have hdecode : Sdk.decodeNameAccount (encodeState (n.account h)) = .ok (n.account h).toSdk :=
    decode_registration n h
  have hheader : Sdk.validateHeader (n.account h).toSdk.header nameAccountDiscriminator =
      .ok () := validateHeader_fresh _
  have hname : Sdk.canonicalizeName ((n.account h).toSdk.canonicalLabel ++ Sdk.archSuffix) =
      .ok (ofUtf8 (n.label.str.bytes ++ archSuffix)) := canonicalizeName_account n
  have howner : ¬ programId.toList ≠ client.programId.toList := by
    rw [deployed.programId]
    exact not_not.mpr rfl
  simp only [Sdk.AnsClient.namedEntry, if_neg howner, hdecode, hheader, hname, Outcome.ok_bind]
  apply Option.filter_eq_some_iff.mpr
  refine ⟨rfl, decide_eq_true ?_⟩
  exact congrArg List.Vector.toList (deployed.nameAddress h)

/-- An entry that is kept stands at the address of its name. -/
theorem namedEntry_address [Sdk.Platform] {named : Sdk.NamedAccount}
    (hkept : client.namedEntry e = some named) :
    e.account.data ≠ [] ∧ (Site.name named.account.nameHash).address.toList = e.pubkey := by
  simp only [Sdk.AnsClient.namedEntry, Option.ite_none_left_eq_some, Option.filter_eq_some_iff,
    decide_eq_true_eq, deployed.nameAddress] at hkept
  obtain ⟨-, hread, haddress⟩ := hkept
  refine ⟨?_, haddress⟩
  intro hempty
  rw [hempty] at hread
  cases hread

theorem offerEntry_encoded (x : Offer) (h : Bytes 32) (buyer : ArchAddress) :
    client.offerEntry h
        ⟨(Site.offer h buyer).address.toList, ⟨encodeState (x.account h buyer), programId.toList⟩⟩ =
      (some (x.account h buyer)).filter (·.active) := by
  have howner : ¬ programId.toList ≠ client.programId.toList := by
    rw [deployed.programId]
    exact not_not.mpr rfl
  simp only [Sdk.AnsClient.offerEntry, if_neg howner, deployed.offerAddress]
  change Option.filter _ (Sdk.AnsClient.activeOffer (serialize (x.account h buyer))) = _
  rw [activeOffer_encoded]
  cases hactive : (x.account h buyer).active with
  | false =>
      rw [Option.filter_some_neg hactive]
      rfl
  | true =>
      rw [Option.filter_some_pos hactive]
      exact Option.filter_some_pos (decide_eq_true ⟨rfl, rfl⟩)

theorem offerEntry_address {offer : OfferAccount} (hkept : client.offerEntry h e = some offer) :
    e.account.data ≠ [] ∧ (Site.offer h offer.buyer).address.toList = e.pubkey := by
  simp only [Sdk.AnsClient.offerEntry, Option.ite_none_left_eq_some, Option.filter_eq_some_iff,
    decide_eq_true_eq, deployed.offerAddress] at hkept
  obtain ⟨-, hread, -, haddress⟩ := hkept
  refine ⟨?_, haddress⟩
  intro hempty
  rw [hempty] at hread
  cases hread

theorem listingEntry_encoded (byHash : List (JsString × JsString)) (l : Listing) (h : Bytes 32) :
    client.listingEntry byHash
        ⟨(Site.listing h).address.toList, ⟨encodeState (l.account h), programId.toList⟩⟩ =
      if (l.account h).active = true then
        ((byHash.lookup (bytesToHex h.toList)).filter (· ≠ [])).map fun name => ⟨name, l.account h⟩
      else none := by
  have howner : ¬ programId.toList ≠ client.programId.toList := by
    rw [deployed.programId]
    exact not_not.mpr rfl
  simp only [Sdk.AnsClient.listingEntry, if_neg howner, deployed.listingAddress]
  change Sdk.AnsClient.activeListing (serialize (l.account h)) >>= _ = _
  rw [activeListing_encoded]
  by_cases hactive : (l.account h).active = true
  · rw [if_pos hactive, Option.filter_some_pos hactive]
    change (if _ then none else _) = _
    rw [if_neg (fun hne => hne rfl)]
    change ((byHash.lookup (bytesToHex h.toList)).filter (· ≠ [])).bind _ = _
    cases (byHash.lookup (bytesToHex h.toList)).filter (· ≠ []) <;> rfl
  · rw [if_neg hactive, Option.filter_some_neg (Bool.eq_false_iff.mpr hactive)]
    rfl

theorem listingEntry_address {byHash : List (JsString × JsString)} {named : Sdk.NamedListing}
    (hkept : client.listingEntry byHash e = some named) :
    e.account.data ≠ [] ∧ (Site.listing named.listing.nameHash).address.toList = e.pubkey := by
  simp only [Sdk.AnsClient.listingEntry, Option.ite_none_left_eq_some, Option.bind_eq_bind,
    Option.bind_eq_some_iff, deployed.listingAddress] at hkept
  obtain ⟨-, listing, hread, haddress, name, -, hnamed⟩ := hkept
  cases hnamed
  refine ⟨?_, not_not.mp haddress⟩
  intro hempty
  rw [hempty] at hread
  cases hread

end

/-! ## Newest first -/

/-- The comparator made of others: the slots, and then the names, both downwards. -/
theorem compareRecent_eq :
    Sdk.compareRecent = (byOrder.reversed.onKey fun entry => entry.account.registeredAtSlot).thenBy
      (byOrder.reversed.onKey Sdk.NamedAccount.name) := by
  funext a b
  rw [Sdk.compareRecent]
  simp only [thenBy, onKey, Comparator.reversed, byOrder]
  by_cases hslot : a.account.registeredAtSlot = b.account.registeredAtSlot
  · simp only [hslot, if_true, UInt64.lt_irrefl, if_false, neg_zero, ne_eq, not_true_eq_false]
    by_cases hlt : b.name < a.name
    · have hasymm : ¬ a.name < b.name := List.lt_asymm hlt
      rw [if_pos hlt, if_neg hasymm, if_pos hlt]
    · rw [if_neg hlt, if_neg hlt]
      split <;> rfl
  · rw [if_neg hslot]
    by_cases hlt : b.account.registeredAtSlot < a.account.registeredAtSlot
    · have hasymm : ¬ a.account.registeredAtSlot < b.account.registeredAtSlot :=
        UInt64.lt_asymm hlt
      rw [if_pos hlt, if_neg hasymm, if_pos hlt]
      rfl
    · have hlt' : a.account.registeredAtSlot < b.account.registeredAtSlot :=
        UInt64.lt_of_le_of_ne (UInt64.not_lt.mp hlt) hslot
      rw [if_neg hlt, if_pos hlt']
      rfl

theorem slots_consistent : (byOrder : Comparator UInt64).Consistent :=
  byOrder_consistent fun _ _ _ hxy hyz =>
    UInt64.not_lt.mpr (UInt64.le_trans (UInt64.not_lt.mp hxy) (UInt64.not_lt.mp hyz))

theorem compareRecent_consistent : Sdk.compareRecent.Consistent := by
  rw [compareRecent_eq]
  exact (slots_consistent.reversed.onKey _).thenBy (Manager.units_consistent.reversed.onKey _)

theorem compareRecent_le {a b : Sdk.NamedAccount} : Sdk.compareRecent a b ≤ 0 ↔
    b.account.registeredAtSlot < a.account.registeredAtSlot ∨
      a.account.registeredAtSlot = b.account.registeredAtSlot ∧ ¬ a.name < b.name := by
  rw [Sdk.compareRecent]
  by_cases hslot : a.account.registeredAtSlot = b.account.registeredAtSlot
  · simp only [hslot, if_true, UInt64.lt_irrefl, false_or, true_and]
    by_cases hlt : b.name < a.name
    · have hasymm : ¬ a.name < b.name := List.lt_asymm hlt
      simp [hlt, hasymm]
    · by_cases hlt' : a.name < b.name <;> simp [hlt, hlt']
  · by_cases hlt : b.account.registeredAtSlot < a.account.registeredAtSlot <;> simp [hslot, hlt]

/-! ## The lists -/

/-- The lists of the client are of what the accounts in play hold, each of it once. -/
structure Sdk.AnsClient.ListsExactly [Deployment] [Sdk.Platform] (client : Sdk.AnsClient)
    (scan : Sdk.ProgramScan) (S : Scope) (L : Ledger) : Prop where
  names : ∃ names, client.listNameAccounts (some scan) = .ok names ∧
    Enumerates (·.account.nameHash) (.name · ∈ S)
      (fun h => (L.storedName h).map NameAccount.named) names
  owned : ∀ owner : ArchAddress, ∃ names,
    client.listOwnedNames (some scan) owner.toList = .ok names ∧
      Enumerates (·.account.nameHash) (.name · ∈ S)
        (fun h => ((L.storedName h).filter (·.owner = owner)).map NameAccount.named) names
  recent : ∃ names, Enumerates (·.account.nameHash) (.name · ∈ S)
      (fun h => (L.storedName h).map NameAccount.named) names ∧
    names.Pairwise (fun a b => b.account.registeredAtSlot < a.account.registeredAtSlot ∨
      a.account.registeredAtSlot = b.account.registeredAtSlot ∧ ¬ a.name < b.name) ∧
    client.listRecentNames (some scan) none = .ok (names.take 12) ∧
    ∀ limit : ℚ, client.listRecentNames (some scan) (some (some limit)) =
      .ok (names.take (max 0 ⌊limit⌋).toNat)
  offers : ∀ {name h}, Sdk.nameHash name = .ok h → ∃ offers,
    client.listOffersForName (some scan) name = .ok offers ∧
      Enumerates (·.buyer) (.offer h · ∈ S)
        (fun buyer => (L.storedOffer h buyer).filter (·.active)) offers

section
variable [Deployment] [Sdk.Platform] {L L₀ L₁ L₂ : Ledger} {S : Scope} {client : Sdk.AnsClient}
  {R : Registry} {snapshot snapshot₁ snapshot₂ : Sdk.Snapshot} {scan : Sdk.ProgramScan}
  {h : Bytes 32} {history later : List Event}

theorem listNameAccounts_of_answers (agrees : Agrees S L R.content) (clean : Clean S L)
    (deployed : client.Deployed) (hof : snapshot.Of L)
    (hscan : scan.Answers programId [Sdk.hasDiscriminator nameAccountDiscriminator] snapshot) :
    ∃ names, client.listNameAccounts (some scan) = .ok names ∧
      Enumerates (·.account.nameHash) (.name · ∈ S)
        (fun h => (L.storedName h).map NameAccount.named) names := by
  obtain ⟨entries, hentries, scanned⟩ := hscan
  refine ⟨entries.filterMap client.namedEntry, ?_, ?_⟩
  · simp only [Sdk.AnsClient.listNameAccounts, Sdk.requireScan, orElseError, deployed.programId,
      hentries, Outcome.ok_bind]
    rfl
  · apply scanned.enumerates (fun h => (Site.name h).address)
      (fun h => (R.name h).map (·.account h))
    · intro h hs
      exact clean.shown hs hof (agrees _ hs) encode_name_ne
    · intro h a ha g hg
      obtain ⟨n, -, rfl⟩ := Option.map_eq_some_iff.mp ha
      cases List.mem_singleton.mp hg
      exact Sdk.matches_discriminator (n.account h).header _
    · intro e named hkept
      exact namedEntry_address deployed hkept
    · intro h hs
      rw [agrees.storedName hs]
      cases R.name h with
      | none => rfl
      | some n => exact namedEntry_encoded deployed n h
    · intro h named hs hnamed
      rw [agrees.storedName hs] at hnamed
      obtain ⟨_, hstored, rfl⟩ := Option.map_eq_some_iff.mp hnamed
      obtain ⟨n, -, rfl⟩ := Option.map_eq_some_iff.mp hstored
      rfl

theorem listOffersForName_of_answers {name : JsString} (agrees : Agrees S L R.content)
    (clean : Clean S L) (deployed : client.Deployed) (hof : snapshot.Of L)
    (hhash : Sdk.nameHash name = .ok h)
    (hscan : scan.Answers programId [Sdk.hasDiscriminator offerAccountDiscriminator,
      { offset := 11, bytes := h.toList }] snapshot) :
    ∃ offers, client.listOffersForName (some scan) name = .ok offers ∧
      Enumerates (·.buyer) (.offer h · ∈ S)
        (fun buyer => (L.storedOffer h buyer).filter (·.active)) offers := by
  obtain ⟨entries, hentries, scanned⟩ := hscan
  obtain ⟨canonical, hcanonical, hsame⟩ := Sdk.canonical_of_hash hhash
  refine ⟨entries.filterMap (client.offerEntry h), ?_, ?_⟩
  · simp only [Sdk.AnsClient.listOffersForName, Sdk.requireScan, orElseError, hcanonical, hsame,
      deployed.programId, hentries, Outcome.ok_bind]
    rfl
  · apply scanned.enumerates (fun buyer => (Site.offer h buyer).address)
      (fun buyer => (R.offer (h, buyer)).map (·.account h buyer))
    · intro buyer hs
      exact clean.shown hs hof (agrees _ hs) encode_offer_ne
    · intro buyer a ha g hg
      obtain ⟨x, -, rfl⟩ := Option.map_eq_some_iff.mp ha
      cases hg with
      | head => exact Sdk.matches_discriminator (x.account h buyer).header _
      | tail _ hg =>
          cases List.mem_singleton.mp hg
          exact Sdk.matches_after_header (x.account h buyer).header h _
    · intro e offer hkept
      exact offerEntry_address deployed hkept
    · intro buyer hs
      rw [agrees.storedOffer hs]
      cases R.offer (h, buyer) with
      | none => rfl
      | some x => exact offerEntry_encoded deployed x h buyer
    · intro buyer offer hs hoffer
      rw [agrees.storedOffer hs] at hoffer
      obtain ⟨hstored, -⟩ := Option.filter_eq_some_iff.mp hoffer
      obtain ⟨x, -, rfl⟩ := Option.map_eq_some_iff.mp hstored
      rfl

theorem lists_exact (genesis : Genesis L₀) (untouched : Untouched S L₀)
    (run : Run (Ledger.Step S) L₀ history L) (deployed : client.Deployed) (hof : snapshot.Of L)
    (hscan : ∀ discriminator rest,
      scan.Answers programId (Sdk.hasDiscriminator discriminator :: rest) snapshot) :
    client.ListsExactly scan S L := by
  obtain ⟨R, -, corresponds⟩ := genesis.reached run
  have agrees := corresponds.agrees
  have clean := corresponds.clean untouched.clean
  obtain ⟨names, hnames, henumerates⟩ :=
    listNameAccounts_of_answers agrees clean deployed hof (hscan _ _)
  constructor
  · exact ⟨names, hnames, henumerates⟩
  · intro owner
    refine ⟨names.filter fun entry => entry.account.owner.toList = owner.toList, ?_, ?_⟩
    · rw [Sdk.AnsClient.listOwnedNames, hnames]
      rfl
    · have hheld : ∀ h : Bytes 32,
          ((L.storedName h).filter (·.owner = owner)).map NameAccount.named =
            ((L.storedName h).map NameAccount.named).filter fun entry =>
              entry.account.owner.toList = owner.toList := by
        intro h
        rw [Option.filter_map]
        refine congrArg (fun p => ((L.storedName h).filter p).map NameAccount.named) ?_
        funext name
        exact decide_eq_decide.mpr ⟨congrArg _, fun h => Bytes.toList_injective h⟩
      simp only [hheld]
      exact henumerates.filter _
  · refine ⟨Sdk.compareRecent.sort names, henumerates.perm (Comparator.sort_perm _ _), ?_, ?_, ?_⟩
    · exact (Comparator.sort_pairwise compareRecent_consistent names).imp compareRecent_le.mp
    · rw [Sdk.AnsClient.listRecentNames, hnames]
      rfl
    · intro limit
      rw [Sdk.AnsClient.listRecentNames, hnames]
      rfl
  · intro name h hhash
    exact listOffersForName_of_answers agrees clean deployed hof hhash (hscan _ _)

omit [Sdk.Platform] in
/-- An active listing is of a registered name, which the seller owns. -/
theorem listed_name (run : Registry.Reached True (actions history) R)
    (hsites : ∀ a ∈ actions history, a.sites.Forall (· ∈ S)) {l : Listing}
    (hl : R.listing h = some l) (hactive : l.active = true) :
    .name h ∈ S ∧ ∃ n, R.name h = some n ∧ n.owner = l.seller := by
  have trace := Registry.listing_trace run hl hactive
  exact ⟨(hsites _ (List.mem_of_find?_eq_some trace.written)).2.1, trace.owner⟩

omit [Deployment] [Sdk.Platform] in
theorem named_ne (n : Registration) : (n.account h).named.name ≠ [] := by
  change ofUtf8 (n.label.str.bytes ++ archSuffix) ≠ []
  rw [JsString.ofUtf8_ascii (canonical_ascii n.label.valid), JsString.ofAscii, List.map_append]
  exact List.append_ne_nil_of_right_ne_nil _ (List.cons_ne_nil _ _)

omit [Sdk.Platform] in
/-- A table of the names by the hex of their hashes finds every stored name. -/
theorem lookup_named {names : List Sdk.NamedAccount} {n : Registration}
    (henumerates : Enumerates (·.account.nameHash) (.name · ∈ S)
      (fun h => (L.storedName h).map NameAccount.named) names)
    (hs : .name h ∈ S) (hn : L.storedName h = some (n.account h)) :
    ((names.reverse.map fun entry =>
        (bytesToHex entry.account.nameHash.toList, entry.name)).lookup (bytesToHex h.toList)).filter
      (· ≠ []) = some (n.account h).named.name := by
  have hinjective : Function.Injective fun h : Bytes 32 => bytesToHex h.toList :=
    fun _ _ heq => Bytes.toList_injective (JsString.bytesToHex_injective heq)
  have hlookup := henumerates.lookup hinjective Sdk.NamedAccount.name hs
  rw [hn] at hlookup
  rw [hlookup]
  exact Option.filter_some_pos (decide_eq_true (named_ne n))

/-- The listings are those of the scan for them, under the names of that ledger, even where
the names are scanned later. -/
theorem listings_exact (genesis : Genesis L₀) (untouched : Untouched S L₀)
    (run : Run (Ledger.Step S) L₀ history L₁) (rest : Run (Ledger.Step S) L₁ later L₂)
    (deployed : client.Deployed) (hof₁ : snapshot₁.Of L₁) (hof₂ : snapshot₂.Of L₂)
    (hscan : scan.Answers programId [Sdk.hasDiscriminator listingAccountDiscriminator] snapshot₁)
    (hnames : scan.Answers programId [Sdk.hasDiscriminator nameAccountDiscriminator] snapshot₂) :
    (∀ h listing, .listing h ∈ S → L₁.storedListing h = some listing → listing.active = true →
      .name h ∈ S ∧ ∃ name, L₁.storedName h = some name ∧ name.owner = listing.seller) ∧
    ∃ listings, client.listActiveListings (some scan) = .ok listings ∧
      Enumerates (·.listing.nameHash) (.listing · ∈ S)
        (fun h => ((L₁.storedListing h).filter (·.active)).bind fun listing =>
          (L₁.storedName h).map fun name => ⟨name.named.name, listing⟩) listings := by
  obtain ⟨R₁, hreached, corresponds₁⟩ := genesis.reached run
  obtain ⟨R₂, hrest, corresponds₂⟩ := corresponds₁.agrees.run rest
  have agrees := corresponds₁.agrees
  have clean := corresponds₁.clean untouched.clean
  have hlisted : ∀ {h l}, R₁.listing h = some l → l.active = true →
      .name h ∈ S ∧ ∃ n, R₁.name h = some n ∧ n.owner = l.seller :=
    fun hl hactive => listed_name hreached (sites_of_run run) hl hactive
  constructor
  · intro h listing hs hstored hactive
    obtain ⟨l, hl, rfl⟩ := agrees.listing_of_stored hs hstored
    obtain ⟨hname, n, hn, howner⟩ := hlisted hl hactive
    refine ⟨hname, n.account h, ?_, howner⟩
    rw [agrees.storedName hname, hn]
    rfl
  · obtain ⟨names, hnames, henumerates⟩ := listNameAccounts_of_answers corresponds₂.agrees
      (corresponds₂.clean clean) deployed hof₂ hnames
    obtain ⟨entries, hentries, scanned⟩ := hscan
    refine ⟨entries.filterMap (client.listingEntry (names.reverse.map fun entry =>
      (bytesToHex entry.account.nameHash.toList, entry.name))), ?_, ?_⟩
    · simp only [Sdk.AnsClient.listActiveListings, Sdk.requireScan, orElseError, deployed.programId,
        hentries, hnames, Outcome.ok_bind]
      rfl
    · apply scanned.enumerates (fun h => (Site.listing h).address)
        (fun h => (R₁.listing h).map (·.account h))
      · intro h hs
        exact clean.shown hs hof₁ (agrees _ hs) encode_listing_ne
      · intro h a ha g hg
        obtain ⟨l, -, rfl⟩ := Option.map_eq_some_iff.mp ha
        cases List.mem_singleton.mp hg
        exact Sdk.matches_discriminator (l.account h).header _
      · intro e named hkept
        exact listingEntry_address deployed hkept
      · intro h hs
        rw [agrees.storedListing hs]
        cases hl : R₁.listing h with
        | none => rfl
        | some l =>
            change client.listingEntry _ _ = ((some (l.account h)).filter _).bind _
            rw [listingEntry_encoded deployed]
            cases hactive : (l.account h).active with
            | false =>
                rw [Option.filter_some_neg hactive]
                rfl
            | true =>
                obtain ⟨hname, n, hn, -⟩ := hlisted hl hactive
                obtain ⟨n', hn', hlabel⟩ := Registry.name_kept hrest hn
                have hstored₁ : L₁.storedName h = some (n.account h) := by
                  rw [agrees.storedName hname, hn]
                  rfl
                have hstored₂ : L₂.storedName h = some (n'.account h) := by
                  rw [corresponds₂.agrees.storedName hname, hn']
                  rfl
                rw [Option.filter_some_pos hactive, if_pos rfl,
                  lookup_named henumerates hname hstored₂, hstored₁]
                change some (⟨ofUtf8 (n'.label.str.bytes ++ archSuffix), _⟩ : Sdk.NamedListing) = _
                rw [hlabel]
                rfl
      · intro h named hs hnamed
        obtain ⟨listing, hstored, hrest⟩ := Option.bind_eq_some_iff.mp hnamed
        obtain ⟨l, -, rfl⟩ := agrees.listing_of_stored hs (Option.filter_eq_some_iff.mp hstored).1
        obtain ⟨name, -, rfl⟩ := Option.map_eq_some_iff.mp hrest
        rfl

end

namespace Testnet

def entries (L : Ledger) (filters : List Sdk.AccountFilter) : List Sdk.ProgramAccountEntry :=
  (sites.map fun s => ⟨s.address.toList, ⟨L.data s.address, (L.owner s.address).toList⟩⟩).filter
    fun e => e.account.owner = program.toList &&
      filters.all fun f => decide (f.Matches e.account.data)

/-- The listings are scanned on the one ledger, all else on the other. -/
def scan (L L' : Ledger) : Sdk.ProgramScan := fun _ filters =>
  .ok (if (filters.map (·.bytes)).contains listingAccountDiscriminator.toList then entries L filters
    else entries L' filters)

theorem entries_scanned {L : Ledger} {calls : List Call}
    (run : Run (Ledger.Step scope) start (calls.map .accepted) L)
    (hregistry : calls.all (·.action?.isSome) = true) (discriminator : Bytes 8)
    (rest : List Sdk.AccountFilter) :
    (served L).Scanned program (Sdk.hasDiscriminator discriminator :: rest)
      (entries L (Sdk.hasDiscriminator discriminator :: rest)) := by
  have hdistinct : (sites.map Site.address).Nodup := by decide +kernel
  have henclosed : Enclosed scope L := by
    obtain ⟨R, -, corresponds⟩ := start_genesis.reached run
    apply corresponds.enclosed start_genesis.enclosed
    intro e he
    obtain ⟨c, hc, rfl⟩ := List.mem_map.mp he
    exact List.all_eq_true.mp hregistry c hc
  constructor
  · apply List.Nodup.sublist (List.filter_sublist.map _)
    rw [List.map_map]
    have hmapped := hdistinct.map (Bytes.toList_injective (n := 32))
    rw [List.map_map] at hmapped
    exact hmapped
  · intro e he
    obtain ⟨hmem, -⟩ := List.mem_filter.mp he
    obtain ⟨s, -, rfl⟩ := List.mem_map.mp hmem
    exact ⟨s.address, rfl, rfl⟩
  · intro k info hinfo howner hfilters
    cases hinfo
    have hdata : L.data k ≠ [] := by
      intro hempty
      have hmatch := hfilters _ List.mem_cons_self
      have hlength := congrArg List.length hmatch
      change ((L.data k).drop 0 |>.take discriminator.toList.length).length = _ at hlength
      rw [hempty, discriminator.toList_length] at hlength
      change 0 = discriminator.toList.length at hlength
      rw [discriminator.toList_length] at hlength
      cases hlength
    have hcontent : L.content k ≠ [] := by
      rwa [Ledger.content_of_owner (Bytes.toList_injective howner)]
    obtain ⟨s, hs, rfl⟩ := henclosed k hcontent
    apply List.mem_filter.mpr
    refine ⟨List.mem_map.mpr ⟨s, hs, rfl⟩, ?_⟩
    rw [Bool.and_eq_true]
    exact ⟨decide_eq_true howner,
      List.all_eq_true.mpr fun f hf => decide_eq_true (hfilters f hf)⟩

/-- Ann finds the name that she registered. -/
theorem name_listed : ∃ (L : Ledger) (names : List Sdk.NamedAccount),
    (site L).listOwnedNames (some (scan L L)) ann.toList = .ok names ∧
      ∃ named ∈ names, named.name = requested := by
  obtain ⟨L, run, -, -, hp⟩ := reached opening
    (fun L => decide ((L.storedName alice).map
      (fun name => (name.owner, name.canonicalLabel)) = some (ann, aliceLabel)))
    (by decide +kernel) (by decide +kernel)
  obtain ⟨name, hname, hvalues⟩ := Option.map_eq_some_iff.mp (of_decide_eq_true hp)
  obtain ⟨howner, hlabel⟩ := Prod.mk.inj hvalues
  have hscan : ∀ discriminator rest, (scan L L).Answers program
      (Sdk.hasDiscriminator discriminator :: rest) (served L) := by
    intro discriminator rest
    exact ⟨_, congrArg Except.ok (ite_self _),
      entries_scanned run (by decide +kernel) discriminator rest⟩
  have lists := lists_exact start_genesis start_untouched run (site_deployed L) (served_of L) hscan
  obtain ⟨names, hnames, henumerates⟩ := lists.owned ann
  refine ⟨L, names, hnames, name.named, ?_, ?_⟩
  · apply ((henumerates.mem_iff alice (by decide : Site.name alice ∈ sites) name.named).mpr ?_).1
    have hkept : (L.storedName alice).filter (·.owner = ann) = some name :=
      Option.filter_eq_some_iff.mpr ⟨hname, decide_eq_true howner⟩
    rw [hkept]
    rfl
  · change ofUtf8 (name.canonicalLabel.bytes ++ ArchNameService.archSuffix) = requested
    rw [hlabel]
    decide +kernel

/-- What Ann lists is found under its name, although Ben buys it before the names are scanned. -/
theorem listing_found : ∃ (L L' : Ledger) (listings : List Sdk.NamedListing),
    (site L).listActiveListings (some (scan L L')) = .ok listings ∧
      (∃ name, L'.storedName alice = some name ∧ name.owner = ben) ∧
      ∃ found ∈ listings, found.name = requested ∧ found.listing.seller = ann := by
  obtain ⟨L, run, -, -, hp⟩ := reached (opening ++ [listing .arch 500])
    (fun L => decide ((L.storedListing alice).map (fun l => (l.active, l.seller)) =
        some (true, ann)) &&
      decide ((L.storedName alice).map (·.canonicalLabel) = some aliceLabel) &&
      (L.execute [purchase []]).toOption.any fun (L' : Ledger) =>
        decide ((L'.storedName alice).map NameAccount.owner = some ben))
    (by decide +kernel) (by decide +kernel)
  obtain ⟨hshown, hexecute⟩ := Bool.and_eq_true_iff.mp hp
  obtain ⟨hlisted, hnamed⟩ := Bool.and_eq_true_iff.mp hshown
  obtain ⟨L', rest, hsold⟩ := continued [purchase []] hexecute (by decide +kernel)
  obtain ⟨l, hl, hterms⟩ := Option.map_eq_some_iff.mp (of_decide_eq_true hlisted)
  obtain ⟨hactive, hseller⟩ := Prod.mk.inj hterms
  obtain ⟨name, hname, hlabel⟩ := Option.map_eq_some_iff.mp (of_decide_eq_true hnamed)
  have whole := run.append rest
  rw [← List.map_append] at whole
  have hscan : (scan L L').Answers program
      [Sdk.hasDiscriminator nameAccountDiscriminator] (served L') :=
    ⟨_, rfl, entries_scanned whole (by decide +kernel) nameAccountDiscriminator []⟩
  obtain ⟨listings, hlistings, henumerates⟩ := (listings_exact start_genesis start_untouched run
    rest (site_deployed L) (served_of L) (served_of L')
    ⟨_, rfl, entries_scanned run (by decide +kernel) listingAccountDiscriminator []⟩ hscan).2
  refine ⟨L, L', listings, hlistings, Option.map_eq_some_iff.mp (of_decide_eq_true hsold),
    ⟨name.named.name, l⟩, ?_, ?_, hseller⟩
  · apply ((henumerates.mem_iff alice (by decide : Site.listing alice ∈ sites) _).mpr ?_).1
    rw [hl, Option.filter_some_pos hactive, hname]
    rfl
  · change ofUtf8 (name.canonicalLabel.bytes ++ ArchNameService.archSuffix) = requested
    rw [hlabel]
    decide +kernel

end Testnet

end ArchNameService
