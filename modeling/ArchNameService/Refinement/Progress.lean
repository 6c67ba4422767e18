import ArchNameService.Refinement.Market

/-!
# What the program must accept

With the right accounts the parties to an active listing or offer are never
refused, and the lamports that move are exactly the price: what is rewritten
keeps its length and already has its rent.
-/

namespace ArchNameService
open Deployment

/-- A payment covered by the source goes through. -/
theorem pays (L : Ledger) {source destination : AccountInfo} (amount : UInt64)
    (hne : source.key ≠ destination.key) (hcovered : amount ≤ L.lamports source.key)
    (htotal : L.total < 2 ^ 64) :
    ∃ L', transferLamports L source destination amount = .ok L' ∧
      Paid source.key destination.key amount L L' := by
  have hle : (L.lamports source.key).toNat + (L.lamports destination.key).toNat ≤ L.total :=
    Balance.add_le_sum hne
  have hamount := UInt64.le_iff_toNat_le.mp hcovered
  have paid : Paid source.key destination.key amount L
      (L.move source.key destination.key amount) :=
    { ne := hne, covered := hcovered, fits := by omega, result := rfl }
  exact ⟨_, transferLamports_ok.mpr paid, paid⟩

variable [Deployment] {S : Scope} {L L₁ : Ledger} {R : Registry} {C : Site → List UInt8}
  {E : Site → Nat}

/-- An account in play is rewritten in place, at no cost. -/
structure Rewritten (S : Scope) (C : Site → List UInt8) (E : Site → Nat) (s : Site)
    (bytes : List UInt8) (L L' : Ledger) : Prop where
  agrees : Agrees S L' (Function.update C s bytes)
  funded : Funded S L' (Function.update C s bytes) E
  lamports : ∀ k, L'.lamports k = L.lamports k

theorem rewrites {T : Type} [Borsh T] {s : Site} (payer : AccountInfo) {account : AccountInfo}
    (x x' : T) (agrees : Agrees S L C) (funded : Funded S L C E) (hs : s ∈ S) (hcontent : C s = encodeState x)
    (hne : encodeState x ≠ []) (hlength : (encodeState x').length = (encodeState x).length)
    (hkey : account.key = s.address) :
    ∃ L', store L payer account x' = .ok L' ∧ Rewritten S C E s (encodeState x') L L' := by
  have hheld := (agrees s hs).trans hcontent
  have hholds : Holds L s.address x := holds_of_content hne hheld
  have hrent := funded s hs (by rwa [hcontent])
  rw [hcontent, ← hlength] at hrent
  refine ⟨L.setData s.address (encodeState x'), ?_, ?_⟩
  · rw [← hkey]
    refine store_in_place (by rw [hkey, hholds.2, hlength]) ?_
    rw [hkey, UInt64.le_iff_toNat_le]
    omega
  · refine ⟨agrees.update hs fun j => ?_, ?_, fun k => L.lamports_setData s.address k _⟩
    · simp only [Ledger.content, Ledger.owner_setData, Ledger.data_setData]
      split
      · split
        · rfl
        · rfl
      · rename_i howner
        rw [if_neg]
        intro hj
        exact howner (hj ▸ hholds.1)
    · intro t ht hne'
      rw [Ledger.lamports_setData]
      by_cases hts : t = s
      · subst hts
        rw [Function.update_self]
        exact hrent
      · rw [Function.update_of_ne hts] at hne' ⊢
        exact funded t ht hne'

section Offers

variable {k : Bytes 32} {buyer authority : ArchAddress} {o : Offer} (agrees : Agrees S L R.content)
  (funded : Funded S L R.content R.escrow) (hopen : R.authority = some authority)
  (hconfig : .config ∈ S) (hsite : .offer k buyer ∈ S) (hoffer : R.offer (k, buyer) = some o)
  (hactive : o.active = true) (hcurrency : o.terms.currency = .arch)

include funded hsite hoffer hactive hcurrency in
/-- An active offer in ARCH keeps its rent and its price. -/
theorem escrow_kept :
    (minimumRent (encodeState (o.account k buyer)).length).toNat + o.terms.price.toNat ≤
      (L.lamports (Site.offer k buyer).address).toNat := by
  have hcontent := Registry.content_of_offer hoffer
  have hkept := funded _ hsite (by rw [hcontent]; exact encode_offer_ne _)
  rwa [hcontent, Registry.escrow_of_active hoffer, Offer.escrow_arch hactive hcurrency] at hkept

include funded hsite hoffer hactive hcurrency in
/-- The escrow can be paid out to anybody else, which leaves every rent in place. -/
theorem releases {source payee : AccountInfo} (hkey : source.key = (Site.offer k buyer).address)
    (hpayee : ¬ S.Derived payee.key) (htotal : L.total < 2 ^ 64) :
    ∃ L₁, transferLamports L source payee o.terms.price = .ok L₁ ∧
      Paid source.key payee.key o.terms.price L L₁ ∧ Funded S L₁ R.content fun _ => 0 := by
  have hkept := escrow_kept funded hsite hoffer hactive hcurrency
  obtain ⟨L₁, htransfer, paid⟩ := pays L o.terms.price
    (fun h : source.key = payee.key => hpayee ⟨_, hsite, by rw [← hkey, h]⟩)
    (by rw [hkey, UInt64.le_iff_toNat_le]; omega) htotal
  refine ⟨L₁, htransfer, paid, fun t ht hne => ?_⟩
  have hescrow : R.escrow (.offer k buyer) = o.terms.price.toNat := by
    rw [Registry.escrow_of_active hoffer, Offer.escrow_arch hactive hcurrency]
  rw [hkey] at paid
  have hrest := funded.withdraw hsite paid (Nat.le_of_eq hescrow.symm) t ht hne
  exact Nat.le_trans (Nat.le_add_right ..) hrest

include agrees funded hopen hconfig hsite hoffer hactive hcurrency in
theorem cancelOffer_accepted {signer cfg offer : AccountInfo} (rest : List AccountInfo)
    (hsigner : signer.isSigner = true) (hbuyer : signer.key = buyer)
    (hcfg : cfg.key = Site.config.address) (hkey : offer.key = (Site.offer k buyer).address)
    (houtside : ¬ S.Derived buyer) (htotal : L.total < 2 ^ 64) :
    ∃ L₁ L', cancelOffer L (signer :: cfg :: offer :: rest) k = .ok L' ∧
      Paid offer.key buyer o.terms.price L L₁ ∧ ∀ j, L'.lamports j = L₁.lamports j := by
  subst hbuyer
  obtain ⟨L₁, htransfer, paid, hrents⟩ :=
    releases funded hsite hoffer hactive hcurrency hkey houtside htotal
  obtain ⟨L', hstore, rewritten⟩ := rewrites signer (o.account k signer.key)
    (Marketplace.deactivateOffer (o.account k signer.key)) (agrees.of_content paid.content) hrents
    hsite (Registry.content_of_offer hoffer) (encode_offer_ne _)
    (by rw [length_encode_offer, length_encode_offer]) hkey
  refine ⟨L₁, L', ?_, paid, rewritten.lamports⟩
  simp only [cancelOffer, Outcome.bind_ok, nextAccountInfo_ok, Prod.exists, requireSigner_ok,
    ensureUnpaused_ok, exists_const]
  refine ⟨signer, _, rfl, cfg, _, rfl, offer, _, rfl, hsigner, _,
    agrees.loads_config hconfig hopen hcfg, rfl, _,
    agrees.loads_offer hsite hoffer hactive hkey, L₁, ?_, hstore⟩
  exact (if_pos hcurrency).trans htransfer

/-- Ending the listing of a name, if it has one. -/
theorem unlists (payer : AccountInfo) {listing : AccountInfo} (agrees : Agrees S L R.content)
    (funded : Funded S L R.content E) (clean : Clean S L) (hlisting : .listing k ∈ S)
    (hkey : listing.key = (Site.listing k).address) :
    ∃ active L', listingIsActive L listing = .ok active ∧
      (if active then do
          let state ← load L ListingAccount listing
          store L payer listing (Marketplace.deactivateListing state)
        else pure L) = .ok L' ∧
      Agrees S L' (R.setListing k ((R.listing k).map (·.deactivate))).content ∧
      Funded S L' (R.setListing k ((R.listing k).map (·.deactivate))).content E ∧
      ∀ j, L'.lamports j = L.lamports j := by
  have hactive := agrees.listed_ok clean hlisting hkey
  cases hlisted : R.listed k with
  | false =>
      rw [hlisted] at hactive
      rw [Registry.map_deactivate_of_unlisted hlisted, Registry.setListing, Function.update_eq_self]
      exact ⟨false, L, hactive, rfl, agrees, funded, fun _ => rfl⟩
  | true =>
      rw [hlisted] at hactive
      obtain ⟨l, hl, -⟩ := (Option.any_eq_true ..).mp hlisted
      obtain ⟨L', hstore, rewritten⟩ := rewrites payer (l.account k)
        (Marketplace.deactivateListing (l.account k)) agrees funded hlisting
        (Registry.content_of_listing hl) (encode_listing_ne _)
        (by rw [length_encode_listing, length_encode_listing]) hkey
      have hload : load L ListingAccount listing = .ok (l.account k) :=
        (owned_load_ok.mpr (hkey ▸ agrees.holds_listing hlisting hl)).2
      rw [hl, Option.map_some, Registry.content_setListing]
      refine ⟨true, L', hactive, ?_, rewritten.agrees, rewritten.funded, rewritten.lamports⟩
      simp only [if_true, hload, Outcome.bind_ok]
      exact ⟨_, rfl, hstore⟩

include agrees funded hopen hconfig hsite hoffer hactive hcurrency in
theorem acceptOffer_accepted {signer payer cfg account offer listing : AccountInfo}
    (rest : List AccountInfo) {n : Registration} (clean : Clean S L) (hname : .name k ∈ S)
    (hlisting : .listing k ∈ S) (hn : R.name k = some n) (hsigner : signer.isSigner = true)
    (howner : signer.key = n.owner) (hbuyer : payer.key = buyer)
    (hcfg : cfg.key = Site.config.address) (haccount : account.key = (Site.name k).address)
    (hkey : offer.key = (Site.offer k buyer).address)
    (hlistingKey : listing.key = (Site.listing k).address) (houtside : ¬ S.Derived n.owner)
    (htotal : L.total < 2 ^ 64) :
    ∃ L₁ L', acceptOffer L (signer :: payer :: cfg :: account :: offer :: listing :: rest) k buyer =
        .ok L' ∧
      Paid offer.key n.owner o.terms.price L L₁ ∧ ∀ j, L'.lamports j = L₁.lamports j := by
  rw [← howner] at houtside
  obtain ⟨L₁, htransfer, paid, hrents⟩ :=
    releases funded hsite hoffer hactive hcurrency hkey houtside htotal
  obtain ⟨active, L₂, hlistingActive, hunlist, agrees₂, funded₂, hsame₂⟩ :=
    unlists signer (agrees.of_content paid.content) hrents
      (clean.yields (.of_eq paid.owner paid.data)) hlisting hlistingKey
  obtain ⟨L₃, hstore, rewritten⟩ := rewrites signer (n.account k)
    (Transition.transfer (n.account k) buyer) agrees₂ funded₂ hname
    (Registry.content_of_name (R := R.setListing k _) hn) (encode_name_ne _)
    (by rw [length_encode_name, length_encode_name]; rfl) haccount
  have hne : Site.offer k buyer ≠ .name k := by rintro ⟨⟩
  obtain ⟨L', hstore', rewritten'⟩ := rewrites signer (o.account k buyer)
    (Marketplace.deactivateOffer (o.account k buyer)) rewritten.agrees rewritten.funded hsite
    ((Function.update_of_ne hne ..).trans (Registry.content_of_offer (R := R.setListing k _) hoffer))
    (encode_offer_ne _) (by rw [length_encode_offer, length_encode_offer]) hkey
  refine ⟨L₁, L', ?_, howner ▸ paid, fun j => ?_⟩
  · simp only [acceptOffer, Outcome.bind_ok, nextAccountInfo_ok, Prod.exists, requireSigner_ok,
      requireOwner_ok, requireAddress_ok, ensureUnpaused_ok, Outcome.reject_ok, exists_const, ne_eq,
      not_not]
    refine ⟨signer, _, rfl, payer, _, rfl, cfg, _, rfl, account, _, rfl, offer, _, rfl, listing, _,
      rfl, hsigner, _, agrees.loads_config hconfig hopen hcfg, rfl, _,
      agrees.loads_name hname hn haccount, howner, hbuyer, _,
      agrees.loads_offer hsite hoffer hactive hkey, L₁, ?_, hlistingKey, active, hlistingActive, L₂,
      hunlist, L₃, hstore, hstore'⟩
    split
    · exact htransfer
    · rename_i hbtc
      cases hcurrency.symm.trans hbtc
  · rw [rewritten'.lamports, rewritten.lamports, hsame₂]

end Offers

section Listings

variable {k : Bytes 32} {authority : ArchAddress} {n : Registration} {l : Listing}
  (agrees : Agrees S L R.content) (funded : Funded S L R.content E)
  (hopen : R.authority = some authority) (hconfig : .config ∈ S) (hname : .name k ∈ S)
  (hlisting : .listing k ∈ S) (hn : R.name k = some n) (hl : R.listing k = some l)
  (hactive : l.active = true) (hseller : n.owner = l.seller)

include agrees funded hopen hconfig hname hlisting hn hl hactive hseller

theorem cancelListing_accepted {signer cfg account listing : AccountInfo} (rest : List AccountInfo)
    (hsigner : signer.isSigner = true) (howner : signer.key = n.owner)
    (hcfg : cfg.key = Site.config.address) (haccount : account.key = (Site.name k).address)
    (hkey : listing.key = (Site.listing k).address) :
    ∃ L', cancelListing L (signer :: cfg :: account :: listing :: rest) k = .ok L' ∧
      ∀ j, L'.lamports j = L.lamports j := by
  obtain ⟨L', hstore, rewritten⟩ := rewrites signer (l.account k)
    (Marketplace.deactivateListing (l.account k)) agrees funded hlisting
    (Registry.content_of_listing hl) (encode_listing_ne _)
    (by rw [length_encode_listing, length_encode_listing]) hkey
  refine ⟨L', ?_, rewritten.lamports⟩
  simp only [cancelListing, Outcome.bind_ok, nextAccountInfo_ok, Prod.exists, requireSigner_ok,
    requireOwner_ok, ensureUnpaused_ok, Outcome.reject_ok, exists_const, ne_eq, not_not]
  exact ⟨signer, _, rfl, cfg, _, rfl, account, _, rfl, listing, _, rfl, hsigner, _,
    agrees.loads_config hconfig hopen hcfg, rfl, _, agrees.loads_name hname hn haccount, howner, _,
    agrees.loads_listing hlisting hl hactive hkey, hseller.symm, hstore⟩

theorem buyName_accepted {signer payee cfg account listing : AccountInfo} (rest : List AccountInfo)
    (hcurrency : l.terms.currency = .arch) (hsigner : signer.isSigner = true)
    (hpayee : payee.key = n.owner) (hcfg : cfg.key = Site.config.address)
    (haccount : account.key = (Site.name k).address)
    (hkey : listing.key = (Site.listing k).address) (hbuyer : signer.key ≠ n.owner)
    (houtside : ¬ S.Derived signer.key) (hcovered : l.terms.price ≤ L.lamports signer.key)
    (htotal : L.total < 2 ^ 64) :
    ∃ L₁ L', buyName L (signer :: payee :: cfg :: account :: listing :: rest) k = .ok L' ∧
      Paid signer.key n.owner l.terms.price L L₁ ∧ ∀ j, L'.lamports j = L₁.lamports j := by
  obtain ⟨L₁, htransfer, paid⟩ := pays L l.terms.price
    (by rwa [hpayee] : signer.key ≠ payee.key) hcovered htotal
  obtain ⟨L₂, hstore, rewritten⟩ := rewrites signer (n.account k)
    (Transition.transfer (n.account k) signer.key) (agrees.of_content paid.content)
    (funded.spared paid.spares houtside) hname (Registry.content_of_name hn) (encode_name_ne _)
    (by rw [length_encode_name, length_encode_name]; rfl) haccount
  have hne : Site.listing k ≠ .name k := by rintro ⟨⟩
  obtain ⟨L', hstore', rewritten'⟩ := rewrites signer (l.account k)
    (Marketplace.deactivateListing (l.account k)) rewritten.agrees rewritten.funded hlisting
    ((Function.update_of_ne hne ..).trans (Registry.content_of_listing hl))
    (encode_listing_ne _) (by rw [length_encode_listing, length_encode_listing]) hkey
  refine ⟨L₁, L', ?_, hpayee ▸ paid, fun j => by rw [rewritten'.lamports, rewritten.lamports]⟩
  simp only [buyName, Outcome.bind_ok, nextAccountInfo_ok, Prod.exists, requireSigner_ok,
    ensureUnpaused_ok, Outcome.reject_ok, exists_const, ne_eq, not_not]
  refine ⟨signer, _, rfl, payee, _, rfl, cfg, _, rfl, account, _, rfl, listing, _, rfl, hsigner, _,
    agrees.loads_config hconfig hopen hcfg, rfl, _, agrees.loads_name hname hn haccount, _,
    agrees.loads_listing hlisting hl hactive hkey, hseller, hpayee.trans hseller,
    fun h => hbuyer (h.trans hseller.symm), L₁, ?_, L₂, hstore, hstore'⟩
  split
  · exact htransfer
  · rename_i hbtc
    cases hcurrency.symm.trans hbtc

end Listings

end ArchNameService
