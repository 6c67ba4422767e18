import ArchNameService.Refinement.Execution

/-!
# What a reader finds in a ledger

A reader decodes the accounts of the program at the derived addresses. In a
ledger that agrees with a registry it finds the entries of the registry.
-/

namespace ArchNameService
open Deployment

variable [Deployment]

namespace Ledger

/-- The account of the program at an address, decoded. -/
def stored (T : Type) [Borsh T] (L : Ledger) (k : ArchAddress) : Option T :=
  if L.owner k = programId then decodeState (L.data k) else none

variable (L : Ledger)

def storedConfig : Option RegistryConfig := L.stored RegistryConfig Site.config.address

def storedName (h : Bytes 32) : Option NameAccount := L.stored NameAccount (Site.name h).address

def storedRecord (h : Bytes 32) (slot : RecordSlot) : Option RecordAccount :=
  L.stored RecordAccount (Site.record h slot).address

def storedReverse (o : ArchAddress) : Option ReverseAccount :=
  L.stored ReverseAccount (Site.reverse o).address

def storedListing (h : Bytes 32) : Option ListingAccount :=
  L.stored ListingAccount (Site.listing h).address

def storedOffer (h : Bytes 32) (buyer : ArchAddress) : Option OfferAccount :=
  L.stored OfferAccount (Site.offer h buyer).address

end Ledger

theorem stored_eq_some {T : Type} [Borsh T] {L : Ledger} {k : ArchAddress} {x : T} :
    L.stored T k = some x ↔ Holds L k x := by
  simp only [Ledger.stored, Option.ite_none_right_eq_some, decodeState_eq_some, Holds]

theorem stored_of_content {α T : Type} [Borsh T] {L : Ledger} {k : ArchAddress} {o : Option α}
    {account : α → T} (hne : ∀ x : T, encodeState x ≠ [])
    (h : L.content k = encoded (o.map account)) : L.stored T k = o.map account := by
  cases o with
  | some x => exact stored_eq_some.mpr (holds_of_content (hne _) h)
  | none =>
      cases hstored : L.stored T k with
      | none => rfl
      | some x =>
          rw [(stored_eq_some.mp hstored).content] at h
          exact absurd h (hne x)

namespace Agrees

variable {S : Scope} {L : Ledger} {R : Registry} (agrees : Agrees S L R.content)
include agrees

theorem storedConfig (hs : .config ∈ S) :
    L.storedConfig = R.authority.map (initialConfig testnetNetworkId) :=
  stored_of_content encode_config_ne (agrees _ hs)

theorem storedName {h : Bytes 32} (hs : .name h ∈ S) :
    L.storedName h = (R.name h).map (·.account h) :=
  stored_of_content encode_name_ne (agrees _ hs)

theorem storedRecord {h : Bytes 32} {slot : RecordSlot} (hs : .record h slot ∈ S) :
    L.storedRecord h slot = (R.record (h, slot)).map (·.account h) :=
  stored_of_content encode_record_ne (agrees _ hs)

theorem storedReverse {o : ArchAddress} (hs : .reverse o ∈ S) :
    L.storedReverse o = (R.reverse o).map (·.account o) :=
  stored_of_content encode_reverse_ne (agrees _ hs)

theorem storedListing {h : Bytes 32} (hs : .listing h ∈ S) :
    L.storedListing h = (R.listing h).map (·.account h) :=
  stored_of_content encode_listing_ne (agrees _ hs)

theorem storedOffer {h : Bytes 32} {buyer : ArchAddress} (hs : .offer h buyer ∈ S) :
    L.storedOffer h buyer = (R.offer (h, buyer)).map (·.account h buyer) :=
  stored_of_content encode_offer_ne (agrees _ hs)

theorem name_of_stored {h : Bytes 32} {name : NameAccount} (hs : .name h ∈ S)
    (hstored : L.storedName h = some name) : ∃ n, R.name h = some n ∧ n.account h = name := by
  rw [agrees.storedName hs] at hstored
  exact Option.map_eq_some_iff.mp hstored

theorem record_of_stored {h : Bytes 32} {slot : RecordSlot} {record : RecordAccount}
    (hs : .record h slot ∈ S) (hstored : L.storedRecord h slot = some record) :
    ∃ p, R.record (h, slot) = some p ∧ p.account h = record := by
  rw [agrees.storedRecord hs] at hstored
  exact Option.map_eq_some_iff.mp hstored

theorem listing_of_stored {h : Bytes 32} {listing : ListingAccount} (hs : .listing h ∈ S)
    (hstored : L.storedListing h = some listing) :
    ∃ l, R.listing h = some l ∧ l.account h = listing := by
  rw [agrees.storedListing hs] at hstored
  exact Option.map_eq_some_iff.mp hstored

theorem offer_of_stored {h : Bytes 32} {buyer : ArchAddress} {offer : OfferAccount}
    (hs : .offer h buyer ∈ S) (hstored : L.storedOffer h buyer = some offer) :
    ∃ o, R.offer (h, buyer) = some o ∧ o.account h buyer = offer := by
  rw [agrees.storedOffer hs] at hstored
  exact Option.map_eq_some_iff.mp hstored

end Agrees

end ArchNameService
