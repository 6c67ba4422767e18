import ArchNameService.Model.Registry
import ArchNameService.Registry.Idl
import Mathlib.Data.Set.Function

/-!
# Where the registry is stored

Every entry of the registry has one derived account. A ledger agrees with a
registry on the accounts in play when each of them holds the encoding of its
entry, and nothing where there is no entry.
-/

namespace ArchNameService
open Crypto Deployment

/-- A derived account, by what it is derived from. -/
inductive Site where
  | config
  | name (nameHash : Bytes 32)
  | record (nameHash : Bytes 32) (slot : RecordSlot)
  | reverse (owner : ArchAddress)
  | listing (nameHash : Bytes 32)
  | offer (nameHash : Bytes 32) (buyer : ArchAddress)
  deriving DecidableEq

/-- The encoding of a value, or nothing. -/
def encoded {T : Type} [Borsh T] : Option T → List UInt8
  | some x => encodeState x
  | none => []

theorem encoded_eq {T : Type} [Borsh T] {o : Option T} {x : T} (hx : encodeState x ≠ []) :
    encoded o = encodeState x ↔ o = some x := by
  cases o with
  | none => exact ⟨fun h => absurd h.symm hx, fun h => (nomatch h)⟩
  | some y =>
      simp only [encoded, Option.some.injEq]
      exact ⟨fun h => Borsh.serialize_injective h, congrArg encodeState⟩


/-- The lamports an offer keeps for its seller: the price of an active offer in ARCH. -/
def Offer.escrow (o : Offer) : Nat :=
  if o.active = true ∧ o.terms.currency = .arch then o.terms.price.toNat else 0

namespace Registry

/-- What the derived account of an entry holds. -/
def content (R : Registry) : Site → List UInt8
  | .config => encoded (R.authority.map (initialConfig testnetNetworkId))
  | .name h => encoded ((R.name h).map (·.account h))
  | .record h slot => encoded ((R.record (h, slot)).map (·.account h))
  | .reverse o => encoded ((R.reverse o).map (·.account o))
  | .listing h => encoded ((R.listing h).map (·.account h))
  | .offer h buyer => encoded ((R.offer (h, buyer)).map (·.account h buyer))

/-- The lamports a derived account keeps for others. -/
def escrow (R : Registry) : Site → Nat
  | .offer h buyer => ((R.offer (h, buyer)).map Offer.escrow).getD 0
  | _ => 0

theorem content_empty (s : Site) : empty.content s = [] := by
  cases s <;> rfl

/-! Replacing an entry replaces what its account holds. -/

variable (R : Registry)

theorem content_setName (h : Bytes 32) (n : Registration) :
    (R.setName h n).content = Function.update R.content (.name h) (encodeState (n.account h)) := by
  funext s
  cases s with
  | name k =>
      by_cases hk : k = h
      · subst hk
        simp only [content, setName, Function.update_self, Option.map_some, encoded]
      · have hs : Site.name k ≠ .name h := fun he => hk (Site.name.inj he)
        simp only [content, setName, Function.update_of_ne hk, Function.update_of_ne hs]
  | _ => rfl

theorem content_setRecord (h : Bytes 32) (slot : RecordSlot) (p : Option Publication) :
    (R.setRecord h slot p).content =
      Function.update R.content (.record h slot) (encoded (p.map (·.account h))) := by
  funext s
  cases s with
  | record k slot' =>
      by_cases hk : (k, slot') = (h, slot)
      · obtain ⟨rfl, rfl⟩ := Prod.mk.inj hk
        simp only [content, setRecord, Function.update_self]
      · have hs : Site.record k slot' ≠ .record h slot := fun he => hk (by cases he; rfl)
        simp only [content, setRecord, Function.update_of_ne hk, Function.update_of_ne hs]
  | _ => rfl

theorem content_setReverse (o : ArchAddress) (b : Option Binding) :
    (R.setReverse o b).content =
      Function.update R.content (.reverse o) (encoded (b.map (·.account o))) := by
  funext s
  cases s with
  | reverse o' =>
      by_cases ho : o' = o
      · subst ho
        simp only [content, setReverse, Function.update_self]
      · have hs : Site.reverse o' ≠ .reverse o := fun he => ho (Site.reverse.inj he)
        simp only [content, setReverse, Function.update_of_ne ho, Function.update_of_ne hs]
  | _ => rfl

theorem content_setListing (h : Bytes 32) (l : Option Listing) :
    (R.setListing h l).content =
      Function.update R.content (.listing h) (encoded (l.map (·.account h))) := by
  funext s
  cases s with
  | listing k =>
      by_cases hk : k = h
      · subst hk
        simp only [content, setListing, Function.update_self]
      · have hs : Site.listing k ≠ .listing h := fun he => hk (Site.listing.inj he)
        simp only [content, setListing, Function.update_of_ne hk, Function.update_of_ne hs]
  | _ => rfl

theorem content_setOffer (h : Bytes 32) (buyer : ArchAddress) (o : Offer) :
    (R.setOffer h buyer o).content =
      Function.update R.content (.offer h buyer) (encodeState (o.account h buyer)) := by
  funext s
  cases s with
  | offer k buyer' =>
      by_cases hk : (k, buyer') = (h, buyer)
      · obtain ⟨rfl, rfl⟩ := Prod.mk.inj hk
        simp only [content, setOffer, Function.update_self, Option.map_some, encoded]
      · have hs : Site.offer k buyer' ≠ .offer h buyer := fun he => hk (by cases he; rfl)
        simp only [content, setOffer, Function.update_of_ne hk, Function.update_of_ne hs]
  | _ => rfl

variable {R} in
theorem content_of_name {h : Bytes 32} {n : Registration} (hname : R.name h = some n) :
    R.content (.name h) = encodeState (n.account h) := by
  simp only [content, hname, Option.map_some, encoded]

variable {R} in
theorem content_of_listing {h : Bytes 32} {l : Listing} (hlisting : R.listing h = some l) :
    R.content (.listing h) = encodeState (l.account h) := by
  simp only [content, hlisting, Option.map_some, encoded]

variable {R} in
theorem content_of_offer {h : Bytes 32} {buyer : ArchAddress} {o : Offer}
    (hoffer : R.offer (h, buyer) = some o) :
    R.content (.offer h buyer) = encodeState (o.account h buyer) := by
  simp only [content, hoffer, Option.map_some, encoded]

theorem content_authority (authority : ArchAddress) :
    ({ R with authority := some authority } : Registry).content =
      Function.update R.content .config (encodeState (initialConfig testnetNetworkId authority)) := by
  funext s
  cases s with
  | config => rfl
  | _ => rfl

theorem escrow_setOffer (h : Bytes 32) (buyer : ArchAddress) (o : Offer) :
    (R.setOffer h buyer o).escrow = Function.update R.escrow (.offer h buyer) o.escrow := by
  funext s
  cases s with
  | offer k buyer' =>
      by_cases hk : (k, buyer') = (h, buyer)
      · obtain ⟨rfl, rfl⟩ := Prod.mk.inj hk
        simp only [escrow, setOffer, Function.update_self, Option.map_some, Option.getD_some]
      · have hs : Site.offer k buyer' ≠ .offer h buyer := fun he => hk (by cases he; rfl)
        simp only [escrow, setOffer, Function.update_of_ne hk, Function.update_of_ne hs]
  | _ => rfl

theorem escrow_setName (k : Bytes 32) (n : Registration) : (R.setName k n).escrow = R.escrow := by
  funext s
  cases s <;> rfl

theorem escrow_setRecord (k : Bytes 32) (slot : RecordSlot) (p : Option Publication) :
    (R.setRecord k slot p).escrow = R.escrow := by
  funext s
  cases s <;> rfl

theorem escrow_setReverse (o : ArchAddress) (b : Option Binding) :
    (R.setReverse o b).escrow = R.escrow := by
  funext s
  cases s <;> rfl

theorem escrow_setListing (k : Bytes 32) (l : Option Listing) :
    (R.setListing k l).escrow = R.escrow := by
  funext s
  cases s <;> rfl

end Registry

/-! ## Encodings are not empty -/

theorem encode_ne_nil_of_length {T : Type} [Borsh T] {x : T} {n : Nat}
    (h : n + 1 ≤ (encodeState x).length) : encodeState x ≠ [] := by
  intro he
  rw [he] at h
  exact absurd h (Nat.not_succ_le_zero n)

theorem encode_config_ne (c : RegistryConfig) : encodeState c ≠ [] :=
  encode_ne_nil_of_length (n := 0) (by rw [length_encode_config]; omega)

theorem encode_name_ne (n : NameAccount) : encodeState n ≠ [] :=
  encode_ne_nil_of_length (n := 0) (by rw [length_encode_name]; omega)

theorem encode_record_ne (r : RecordAccount) : encodeState r ≠ [] :=
  encode_ne_nil_of_length (length_encode_record r)

theorem encode_reverse_ne (r : ReverseAccount) : encodeState r ≠ [] :=
  encode_ne_nil_of_length (n := 0) (by rw [length_encode_reverse]; omega)

theorem encode_listing_ne (l : ListingAccount) : encodeState l ≠ [] :=
  encode_ne_nil_of_length (n := 0) (by rw [length_encode_listing]; omega)

theorem encode_offer_ne (o : OfferAccount) : encodeState o ≠ [] :=
  encode_ne_nil_of_length (n := 0) (by rw [length_encode_offer]; omega)

/-! ## Addresses -/

/-- The derived accounts an action works with. -/
def Action.sites [Crypto] (a : Action) : List Site :=
  match a.instruction with
  | .initializeRegistry .. => [.config]
  | .register label _ => [.config, .name (labelHash label.bytes)]
  | .transfer h _ | .listName h .. | .cancelListing h | .buyName h => [.config, .name h, .listing h]
  | .setRecord h recordType value _ => [.config, .name h, .record h (slotOfValue recordType value)]
  | .deleteRecord h recordType textKey _ =>
      [.config, .name h, .record h (.of recordType textKey.bytes)]
  | .setPrimary h => [.config, .name h, .reverse a.signer]
  | .clearPrimary => [.reverse a.signer]
  | .makeOffer h .. => [.config, .name h, .offer h a.signer]
  | .cancelOffer h => [.config, .offer h a.signer]
  | .acceptOffer h buyer => [.config, .name h, .listing h, .offer h buyer]
  | .renew .. | .reclaimExpired .. | .updateConfig .. => []

variable [Deployment]

def Site.address : Site → ArchAddress
  | .config => deriveConfigAddress programId testnetNetworkId testnetNamespace.bytes
  | .name h => deriveNameAddress programId testnetNamespace.bytes h
  | .record h .archOwner => deriveRecordAddress programId testnetNamespace.bytes h .archOwner
  | .record h .bitcoinTaproot =>
      deriveRecordAddress programId testnetNamespace.bytes h .bitcoinTaproot
  | .record h .tokenAta => deriveRecordAddress programId testnetNamespace.bytes h .tokenAta
  | .record h (.text key) => deriveTextRecordAddress programId testnetNamespace.bytes h key
  | .reverse owner => deriveReverseAddress programId testnetNamespace.bytes owner
  | .listing h => deriveListingAddress programId testnetNamespace.bytes h
  | .offer h buyer => deriveOfferAddress programId testnetNamespace.bytes h buyer

/-- The derived accounts in play: no two of them share an address, and none of
them is the IDL account of the program. -/
structure Scope where
  sites : Set Site
  distinct : Set.InjOn Site.address sites
  apart : ∀ s ∈ sites, createWithSeed Idl.baseAddress Idl.seed programId ≠ some s.address

instance : Membership Site Scope := ⟨fun S s => s ∈ S.sites⟩

/-- The address belongs to a derived account in play. -/
def Scope.Derived (S : Scope) (k : ArchAddress) : Prop := ∃ s ∈ S, s.address = k

theorem Scope.address_ne {S : Scope} {s t : Site} (hs : s ∈ S) (ht : t ∈ S) (hne : s ≠ t) :
    s.address ≠ t.address := fun h => hne (S.distinct hs ht h)

/-- The address of a record as the program derives it from a value or a key. -/
theorem address_of_derived {h : Bytes 32} {recordType : RecordType} {textKey : Option (List UInt8)}
    {k : ArchAddress}
    (hderive : deriveRecordAddressForValue programId testnetNamespace.bytes h recordType textKey =
      some k) : k = (Site.record h (.of recordType (textKey.getD []))).address := by
  cases recordType with
  | text =>
      obtain ⟨key, rfl, rfl⟩ := Option.map_eq_some_iff.mp hderive
      rfl
  | _ => exact (Option.some.inj hderive).symm

/-! ## Contents -/

/-- What an account of the program holds; nothing for the accounts of others. -/
def Ledger.content (L : Ledger) (k : ArchAddress) : List UInt8 :=
  if L.owner k = programId then L.data k else []

theorem Ledger.content_of_owner {L : Ledger} {k : ArchAddress} (h : L.owner k = programId) :
    L.content k = L.data k := if_pos h

/-- The accounts in play hold the given contents. -/
def Agrees (S : Scope) (L : Ledger) (C : Site → List UInt8) : Prop :=
  ∀ s ∈ S, L.content s.address = C s

/-- Whatever the program holds, it holds in the accounts in play. -/
def Enclosed (S : Scope) (L : Ledger) : Prop := ∀ k, L.content k ≠ [] → S.Derived k

/-- The accounts in play are accounts of the program, or nobody has used them. -/
def Clean (S : Scope) (L : Ledger) : Prop :=
  ∀ s ∈ S, L.owner s.address = programId ∨
    (L.owner s.address = systemProgram ∧ L.data s.address = [])

/-- The accounts in play that hold something have the rent for it and their escrow. -/
def Funded (S : Scope) (L : Ledger) (C : Site → List UInt8) (E : Site → Nat) : Prop :=
  ∀ s ∈ S, C s ≠ [] → (minimumRent (C s).length).toNat + E s ≤ (L.lamports s.address).toNat

end ArchNameService
