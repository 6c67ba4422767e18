import ArchNameService.Refinement.Effects

/-!
# What a successful load says

First about the account alone, then about the registry that the ledger agrees with.
-/

namespace ArchNameService
open Deployment

variable [Deployment] {L : Ledger} {account : AccountInfo}

theorem load_ok {T : Type} [Borsh T] {x : T} :
    load L T account = .ok x ↔
      L.owner account.key ≠ systemProgram ∧ L.data account.key = encodeState x := by
  simp only [load, Outcome.bind_ok, Outcome.reject_ok, Outcome.orElseError_ok, decodeState_eq_some,
    exists_const]

/-- An account of the program that decodes to `x`. -/
def Holds {T : Type} [Borsh T] (L : Ledger) (k : ArchAddress) (x : T) : Prop :=
  L.owner k = programId ∧ L.data k = encodeState x

theorem Holds.content {T : Type} [Borsh T] {k : ArchAddress} {x : T} (h : Holds L k x) :
    L.content k = encodeState x := by
  rw [Ledger.content_of_owner h.1, h.2]

theorem holds_of_content {T : Type} [Borsh T] {k : ArchAddress} {x : T}
    (hx : encodeState x ≠ []) (h : L.content k = encodeState x) : Holds L k x := by
  unfold Ledger.content at h
  split at h
  · rename_i howner
    exact ⟨howner, h⟩
  · exact absurd h.symm hx

theorem ne_system {k : ArchAddress} (h : L.owner k = programId) : L.owner k ≠ systemProgram := by
  rw [h]
  exact programId_ne_systemProgram

theorem owned_load_ok {T : Type} [Borsh T] {x : T} :
    (L.owner account.key = programId ∧ load L T account = .ok x) ↔ Holds L account.key x := by
  rw [load_ok]
  exact ⟨fun ⟨ho, _, hd⟩ => ⟨ho, hd⟩, fun ⟨ho, hd⟩ => ⟨ho, ne_system ho, hd⟩⟩

theorem loadConfig_ok {config : RegistryConfig} :
    loadConfig L account = .ok config ↔
      Holds L account.key config ∧ config.header = .fresh registryConfigDiscriminator ∧
        config.namespace = testnetNamespace ∧ config.networkId = testnetNetworkId ∧
        account.key = Site.config.address := by
  simp only [loadConfig, Outcome.bind_ok, Outcome.reject_ok, Outcome.mapError_ok, Outcome.pure_ok,
    requireAddress_ok, AccountHeader.validate_ok_iff, ne_eq, not_not, not_or]
  constructor
  · rintro ⟨_, howner, config, hload, _, hheader, _, ⟨hns, hnet⟩, _, hkey, rfl⟩
    rw [hns, hnet] at hkey
    exact ⟨owned_load_ok.mp ⟨howner, hload⟩, hheader, hns, hnet, hkey⟩
  · rintro ⟨hholds, hheader, hns, hnet, hkey⟩
    obtain ⟨howner, hload⟩ := owned_load_ok.mpr hholds
    refine ⟨(), howner, config, hload, (), hheader, (), ⟨hns, hnet⟩, (), ?_, rfl⟩
    rw [hns, hnet]
    exact hkey

theorem loadName_ok {config : RegistryConfig} {h : Bytes 32} {name : NameAccount} :
    loadName L account config h = .ok name ↔
      Holds L account.key name ∧ name.header = .fresh nameAccountDiscriminator ∧
        name.nameHash = h ∧
        account.key = deriveNameAddress programId config.namespace.bytes h := by
  simp only [loadName, Outcome.bind_ok, Outcome.reject_ok, Outcome.mapError_ok, Outcome.pure_ok,
    requireAddress_ok, AccountHeader.validate_ok_iff, ne_eq, not_not]
  constructor
  · rintro ⟨_, howner, name, hload, _, hheader, _, hhash, _, hkey, rfl⟩
    exact ⟨owned_load_ok.mp ⟨howner, hload⟩, hheader, hhash, hkey⟩
  · rintro ⟨hholds, hheader, hhash, hkey⟩
    obtain ⟨howner, hload⟩ := owned_load_ok.mpr hholds
    exact ⟨(), howner, name, hload, (), hheader, (), hhash, (), hkey, rfl⟩

theorem loadActiveListing_ok {config : RegistryConfig} {h : Bytes 32} {listing : ListingAccount} :
    loadActiveListing L account config h = .ok listing ↔
      Holds L account.key listing ∧ listing.header = .fresh listingAccountDiscriminator ∧
        listing.nameHash = h ∧ listing.active = true ∧
        account.key = deriveListingAddress programId config.namespace.bytes h := by
  simp only [loadActiveListing, Outcome.bind_ok, Outcome.reject_ok, Outcome.mapError_ok,
    Outcome.pure_ok, requireAddress_ok, AccountHeader.validate_ok_iff, ne_eq, not_not, not_or]
  constructor
  · rintro ⟨_, howner, listing, hload, _, hheader, _, ⟨hhash, hactive⟩, _, hkey, rfl⟩
    exact ⟨owned_load_ok.mp ⟨howner, hload⟩, hheader, hhash, hactive, hkey⟩
  · rintro ⟨hholds, hheader, hhash, hactive, hkey⟩
    obtain ⟨howner, hload⟩ := owned_load_ok.mpr hholds
    exact ⟨(), howner, listing, hload, (), hheader, (), ⟨hhash, hactive⟩, (), hkey, rfl⟩

theorem loadActiveOffer_ok {config : RegistryConfig} {h : Bytes 32} {buyer : ArchAddress}
    {offer : OfferAccount} :
    loadActiveOffer L account config h buyer = .ok offer ↔
      Holds L account.key offer ∧ offer.header = .fresh offerAccountDiscriminator ∧
        offer.nameHash = h ∧ offer.buyer = buyer ∧ offer.active = true ∧
        account.key = deriveOfferAddress programId config.namespace.bytes h buyer := by
  simp only [loadActiveOffer, Outcome.bind_ok, Outcome.reject_ok, Outcome.mapError_ok,
    Outcome.pure_ok, requireAddress_ok, AccountHeader.validate_ok_iff, ne_eq, not_not, not_or]
  constructor
  · rintro ⟨_, howner, offer, hload, _, hheader, _, ⟨hhash, hbuyer, hactive⟩, _, hkey, rfl⟩
    exact ⟨owned_load_ok.mp ⟨howner, hload⟩, hheader, hhash, hbuyer, hactive, hkey⟩
  · rintro ⟨hholds, hheader, hhash, hbuyer, hactive, hkey⟩
    obtain ⟨howner, hload⟩ := owned_load_ok.mpr hholds
    exact ⟨(), howner, offer, hload, (), hheader, (), ⟨hhash, hbuyer, hactive⟩, (), hkey, rfl⟩

theorem listingIsActive_ok {active : Bool} :
    listingIsActive L account = .ok active ↔
      if L.owner account.key = systemProgram ∨ L.data account.key = [] then active = false
      else ∃ listing : ListingAccount, L.data account.key = encodeState listing ∧
        listing.header = .fresh listingAccountDiscriminator ∧ active = listing.active := by
  unfold listingIsActive
  split
  · rw [Outcome.pure_ok, eq_comm]
  · rename_i h
    simp only [Outcome.bind_ok, Outcome.mapError_ok, Outcome.pure_ok, load_ok,
      AccountHeader.validate_ok_iff]
    constructor
    · rintro ⟨listing, ⟨-, hdata⟩, _, hheader, rfl⟩
      exact ⟨listing, hdata, hheader, rfl⟩
    · rintro ⟨listing, hdata, hheader, rfl⟩
      exact ⟨listing, ⟨fun ho => h (.inl ho), hdata⟩, (), hheader, rfl⟩

theorem offerIsActive_ok {active : Bool} :
    offerIsActive L account = .ok active ↔
      if L.owner account.key = systemProgram ∨ L.data account.key = [] then active = false
      else ∃ offer : OfferAccount, L.data account.key = encodeState offer ∧
        offer.header = .fresh offerAccountDiscriminator ∧ active = offer.active := by
  unfold offerIsActive
  split
  · rw [Outcome.pure_ok, eq_comm]
  · rename_i h
    simp only [Outcome.bind_ok, Outcome.mapError_ok, Outcome.pure_ok, load_ok,
      AccountHeader.validate_ok_iff]
    constructor
    · rintro ⟨offer, ⟨-, hdata⟩, _, hheader, rfl⟩
      exact ⟨offer, hdata, hheader, rfl⟩
    · rintro ⟨offer, hdata, hheader, rfl⟩
      exact ⟨offer, ⟨fun ho => h (.inl ho), hdata⟩, (), hheader, rfl⟩

/-! ## In a ledger that agrees with a registry -/

namespace Agrees

variable {S : Scope} {R : Registry} (agrees : Agrees S L R.content)
include agrees

/-- The account of an entry holds the encoding of the entry. -/
theorem holds {T : Type} [Borsh T] {s : Site} {x : T} (hs : s ∈ S)
    (hcontent : R.content s = encodeState x) (hne : encodeState x ≠ []) : Holds L s.address x :=
  holds_of_content hne (by rw [agrees s hs, hcontent])

theorem holds_config {authority : ArchAddress} (hs : .config ∈ S)
    (hopen : R.authority = some authority) :
    Holds L Site.config.address (initialConfig testnetNetworkId authority) :=
  agrees.holds hs (by simp only [Registry.content, hopen, Option.map_some, encoded])
    (encode_config_ne _)

theorem holds_name {k : Bytes 32} {n : Registration} (hs : .name k ∈ S) (hname : R.name k = some n) :
    Holds L (Site.name k).address (n.account k) :=
  agrees.holds hs (Registry.content_of_name hname) (encode_name_ne _)

theorem holds_listing {k : Bytes 32} {l : Listing} (hs : .listing k ∈ S)
    (hlisting : R.listing k = some l) : Holds L (Site.listing k).address (l.account k) :=
  agrees.holds hs (Registry.content_of_listing hlisting) (encode_listing_ne _)

theorem holds_offer {k : Bytes 32} {buyer : ArchAddress} {o : Offer} (hs : .offer k buyer ∈ S)
    (hoffer : R.offer (k, buyer) = some o) :
    Holds L (Site.offer k buyer).address (o.account k buyer) :=
  agrees.holds hs (Registry.content_of_offer hoffer) (encode_offer_ne _)

/-! What is there can be loaded. -/

theorem loads_config {authority : ArchAddress} (hs : .config ∈ S)
    (hopen : R.authority = some authority) (hkey : account.key = Site.config.address) :
    loadConfig L account = .ok (initialConfig testnetNetworkId authority) :=
  loadConfig_ok.mpr ⟨hkey ▸ agrees.holds_config hs hopen, rfl, rfl, rfl, hkey⟩

theorem loads_name {authority : ArchAddress} {k : Bytes 32} {n : Registration} (hs : .name k ∈ S)
    (hname : R.name k = some n) (hkey : account.key = (Site.name k).address) :
    loadName L account (initialConfig testnetNetworkId authority) k = .ok (n.account k) :=
  loadName_ok.mpr ⟨hkey ▸ agrees.holds_name hs hname, rfl, rfl, hkey⟩

theorem loads_listing {authority : ArchAddress} {k : Bytes 32} {l : Listing} (hs : .listing k ∈ S)
    (hlisting : R.listing k = some l) (hactive : l.active = true)
    (hkey : account.key = (Site.listing k).address) :
    loadActiveListing L account (initialConfig testnetNetworkId authority) k = .ok (l.account k) :=
  loadActiveListing_ok.mpr ⟨hkey ▸ agrees.holds_listing hs hlisting, rfl, rfl, hactive, hkey⟩

theorem loads_offer {authority : ArchAddress} {k : Bytes 32} {buyer : ArchAddress} {o : Offer}
    (hs : .offer k buyer ∈ S) (hoffer : R.offer (k, buyer) = some o) (hactive : o.active = true)
    (hkey : account.key = (Site.offer k buyer).address) :
    loadActiveOffer L account (initialConfig testnetNetworkId authority) k buyer =
      .ok (o.account k buyer) :=
  loadActiveOffer_ok.mpr ⟨hkey ▸ agrees.holds_offer hs hoffer, rfl, rfl, rfl, hactive, hkey⟩

theorem listed_ok (clean : Clean S L) {k : Bytes 32} (hs : .listing k ∈ S)
    (hkey : account.key = (Site.listing k).address) :
    listingIsActive L account = .ok (R.listed k) := by
  rw [listingIsActive_ok, hkey]
  cases hlisting : R.listing k with
  | none =>
      have hcontent := agrees (.listing k) hs
      simp only [Registry.content, hlisting, Option.map_none, encoded] at hcontent
      have hunused : L.owner (Site.listing k).address = systemProgram ∨
          L.data (Site.listing k).address = [] := by
        rcases clean _ hs with howned | ⟨hsystem, -⟩
        · exact .inr (by rwa [Ledger.content_of_owner howned] at hcontent)
        · exact .inl hsystem
      rw [if_pos hunused, Registry.listed, hlisting, Option.any_none]
  | some l =>
      have hholds := agrees.holds_listing hs hlisting
      rw [if_neg (not_or.mpr ⟨ne_system hholds.1, by rw [hholds.2]; exact encode_listing_ne _⟩)]
      exact ⟨_, hholds.2, rfl, by simp only [Registry.listed, hlisting, Option.any_some]; rfl⟩

/-! What is loaded is there. -/

theorem config {config : RegistryConfig} (hsite : .config ∈ S)
    (h : loadConfig L account = .ok config) :
    ∃ authority, R.authority = some authority ∧
      config = initialConfig testnetNetworkId authority ∧ account.key = Site.config.address := by
  obtain ⟨hholds, -, -, -, hkey⟩ := loadConfig_ok.mp h
  have hcontent := agrees .config hsite
  rw [← hkey, hholds.content] at hcontent
  obtain ⟨authority, hopen, rfl⟩ :=
    Option.map_eq_some_iff.mp ((encoded_eq (encode_config_ne _)).mp hcontent.symm)
  exact ⟨authority, hopen, rfl, hkey⟩

theorem name {authority : ArchAddress} {k : Bytes 32} {name : NameAccount} (hsite : .name k ∈ S)
    (h : loadName L account (initialConfig testnetNetworkId authority) k = .ok name) :
    ∃ n, R.name k = some n ∧ name = n.account k ∧ account.key = (Site.name k).address ∧
      L.owner account.key = programId := by
  obtain ⟨hholds, -, -, hkey⟩ := loadName_ok.mp h
  have hcontent := agrees (.name k) hsite
  rw [← show account.key = (Site.name k).address from hkey, hholds.content] at hcontent
  obtain ⟨n, hname, rfl⟩ :=
    Option.map_eq_some_iff.mp ((encoded_eq (encode_name_ne _)).mp hcontent.symm)
  exact ⟨n, hname, rfl, hkey, hholds.1⟩

theorem listing {k : Bytes 32} {listing : ListingAccount} (hsite : .listing k ∈ S)
    (hkey : account.key = (Site.listing k).address) (hholds : Holds L account.key listing) :
    ∃ l, R.listing k = some l ∧ listing = l.account k := by
  have hcontent := agrees (.listing k) hsite
  rw [← hkey, hholds.content] at hcontent
  obtain ⟨l, hlisting, rfl⟩ :=
    Option.map_eq_some_iff.mp ((encoded_eq (encode_listing_ne _)).mp hcontent.symm)
  exact ⟨l, hlisting, rfl⟩

theorem offer {k : Bytes 32} {buyer : ArchAddress} {offer : OfferAccount}
    (hsite : .offer k buyer ∈ S) (hkey : account.key = (Site.offer k buyer).address)
    (hholds : Holds L account.key offer) :
    ∃ o, R.offer (k, buyer) = some o ∧ offer = o.account k buyer := by
  have hcontent := agrees (.offer k buyer) hsite
  rw [← hkey, hholds.content] at hcontent
  obtain ⟨o, hoffer, rfl⟩ :=
    Option.map_eq_some_iff.mp ((encoded_eq (encode_offer_ne _)).mp hcontent.symm)
  exact ⟨o, hoffer, rfl⟩

theorem record {k : Bytes 32} {slot : RecordSlot} {record : RecordAccount}
    (hsite : .record k slot ∈ S) (hkey : account.key = (Site.record k slot).address)
    (hholds : Holds L account.key record) :
    ∃ p, R.record (k, slot) = some p ∧ record = p.account k := by
  have hcontent := agrees (.record k slot) hsite
  rw [← hkey, hholds.content] at hcontent
  obtain ⟨p, hrecord, rfl⟩ :=
    Option.map_eq_some_iff.mp ((encoded_eq (encode_record_ne _)).mp hcontent.symm)
  exact ⟨p, hrecord, rfl⟩

theorem reverse {o : ArchAddress} {reverse : ReverseAccount} (hsite : .reverse o ∈ S)
    (hkey : account.key = (Site.reverse o).address) (hholds : Holds L account.key reverse) :
    ∃ b, R.reverse o = some b ∧ reverse = b.account o := by
  have hcontent := agrees (.reverse o) hsite
  rw [← hkey, hholds.content] at hcontent
  obtain ⟨b, hreverse, rfl⟩ :=
    Option.map_eq_some_iff.mp ((encoded_eq (encode_reverse_ne _)).mp hcontent.symm)
  exact ⟨b, hreverse, rfl⟩

theorem unlisted {k : Bytes 32} (hsite : .listing k ∈ S)
    (hkey : account.key = (Site.listing k).address)
    (h : listingIsActive L account = .ok false) : R.listed k = false := by
  cases hlisting : R.listing k with
  | none => simp only [Registry.listed, hlisting, Option.any_none]
  | some l =>
      have hholds : Holds L account.key (l.account k) := by
        rw [hkey]
        exact agrees.holds_listing hsite hlisting
      have hactive := listingIsActive_ok.mp h
      rw [if_neg (not_or.mpr ⟨ne_system hholds.1, by rw [hholds.2]; exact encode_listing_ne _⟩)]
        at hactive
      obtain ⟨listing, hdata, -, hflag⟩ := hactive
      have hl : l.account k = listing := Borsh.serialize_injective (hholds.2.symm.trans hdata)
      simp only [Registry.listed, hlisting, Option.any_some]
      rw [hflag, ← hl]
      rfl

theorem unoffered {k : Bytes 32} {buyer : ArchAddress} (hsite : .offer k buyer ∈ S)
    (hkey : account.key = (Site.offer k buyer).address)
    (h : offerIsActive L account = .ok false) : R.offered k buyer = false := by
  cases hoffer : R.offer (k, buyer) with
  | none => simp only [Registry.offered, hoffer, Option.any_none]
  | some o =>
      have hholds : Holds L account.key (o.account k buyer) := by
        rw [hkey]
        exact agrees.holds_offer hsite hoffer
      have hactive := offerIsActive_ok.mp h
      rw [if_neg (not_or.mpr ⟨ne_system hholds.1, by rw [hholds.2]; exact encode_offer_ne _⟩)]
        at hactive
      obtain ⟨offer, hdata, -, hflag⟩ := hactive
      have ho : o.account k buyer = offer := Borsh.serialize_injective (hholds.2.symm.trans hdata)
      simp only [Registry.offered, hoffer, Option.any_some]
      rw [hflag, ← ho]
      rfl

end Agrees

end ArchNameService
