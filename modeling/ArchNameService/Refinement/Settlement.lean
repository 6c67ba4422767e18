import ArchNameService.Refinement.Progress

/-!
# What a sale pays

A purchase and the acceptance of an offer pay the recorded terms first. What
follows moves no tokens, and no lamports either once every account in play has
its rent.
-/

namespace ArchNameService
open Deployment

/-- The payment of a sale: lamports out of `source`, or tokens between the two
accounts that lead the trailing ones, signed by `authority`. -/
inductive Payment (source payee authority : ArchAddress) (trailing : List AccountInfo)
    (terms : Terms) (L L₁ : Ledger) : Prop
  | arch (hcurrency : terms.currency = .arch) (paid : Paid source payee terms.price L L₁) :
      Payment source payee authority trailing terms L L₁
  | btc {debit credit : AccountInfo} {rest : List AccountInfo} {s d : TokenAccount}
      (hcurrency : terms.currency = .btc) (htrailing : trailing = debit :: credit :: rest)
      (moved : TokensMoved debit.key credit.key authority terms.price s d L L₁) :
      Payment source payee authority trailing terms L L₁

namespace Payment

variable {source payee authority : ArchAddress} {trailing : List AccountInfo} {terms : Terms}
  {L L₁ : Ledger} (payment : Payment source payee authority trailing terms L L₁)
include payment

theorem owner (k : ArchAddress) : L₁.owner k = L.owner k := by
  cases payment with
  | arch _ paid => exact paid.owner k
  | btc _ _ moved => exact owner_of_accounts moved.accounts k

theorem data (k : ArchAddress) : L₁.data k = L.data k := by
  cases payment with
  | arch _ paid => exact paid.data k
  | btc _ _ moved => exact data_of_accounts moved.accounts k

theorem spares : Spares source L L₁ := by
  cases payment with
  | arch _ paid => exact paid.spares
  | btc _ _ moved => exact spares_of_accounts moved.accounts

end Payment

theorem payment_of_settle {L L₁ : Ledger} {source payee authority : AccountInfo} {terms : Terms}
    {trailing : List AccountInfo} {price : ProgramResult Ledger}
    (h : (match terms.currency with
      | .arch => transferLamports L source payee terms.price
      | .btc => price) = .ok L₁)
    (hprice : price = .ok L₁ → settleAbtc L authority trailing terms.price = .ok L₁) :
    Payment source.key payee.key authority.key trailing terms L L₁ := by
  cases hcurrency : terms.currency with
  | arch =>
      rw [hcurrency] at h
      exact .arch hcurrency (transferLamports_ok.mp h)
  | btc =>
      rw [hcurrency] at h
      obtain ⟨_, _, _, _, _, _, _, htrailing, -, -, moved⟩ := settleAbtc_ok (hprice h)
      exact .btc hcurrency htrailing moved

variable [Deployment] {S : Scope} {L L' : Ledger} {R : Registry} {k : Bytes 32}
  {accounts : List AccountInfo}

/-- Whichever way an accepted offer is paid, every account keeps its rent. -/
theorem Payment.rents {source payee authority buyer : ArchAddress} {trailing : List AccountInfo}
    {o : Offer} {L₁ : Ledger} (payment : Payment source payee authority trailing o.terms L L₁)
    (funded : Funded S L R.content R.escrow) (hsite : .offer k buyer ∈ S)
    (hsource : source = (Site.offer k buyer).address) (hoffer : R.offer (k, buyer) = some o)
    (hactive : o.active = true) : Funded S L₁ R.content fun _ => 0 := by
  intro t ht hne
  cases payment with
  | arch hcurrency paid =>
      have hescrow : R.escrow (.offer k buyer) = o.terms.price.toNat := by
        rw [Registry.escrow_of_active hoffer, Offer.escrow_arch hactive hcurrency]
      rw [hsource] at paid
      have hrest := funded.withdraw hsite paid (Nat.le_of_eq hescrow.symm) t ht hne
      exact Nat.le_trans (Nat.le_add_right ..) hrest
  | btc _ _ moved =>
      have hrest := funded t ht hne
      simp only [Ledger.lamports, moved.accounts]
      exact Nat.le_trans (Nat.le_add_right ..) hrest

theorem buyName_settles (agrees : Agrees S L R.content) (hsites : InScope S accounts (.buyName k))
    (h : buyName L accounts k = .ok L') :
    ∃ signer seller cfg account listing trailing n l L₁,
      accounts = signer :: seller :: cfg :: account :: listing :: trailing ∧
      R.name k = some n ∧ R.listing k = some l ∧ n.owner = l.seller ∧ signer.key ≠ l.seller ∧
      Payment signer.key l.seller signer.key trailing l.terms L L₁ ∧ L'.tokens = L₁.tokens ∧
      (¬ S.Derived signer.key → Funded S L R.content R.escrow →
        ∀ j, L'.lamports j = L₁.lamports j) := by
  simp only [buyName, Outcome.bind_ok, Outcome.reject_ok, nextAccountInfo_ok, Prod.exists,
    requireSigner_ok, ensureUnpaused_ok, exists_const, ne_eq, not_not] at h
  obtain ⟨signer, _, rfl, seller, _, rfl, cfg, _, rfl, account, _, rfl, listing, trailing, rfl,
    hsigner, config, hconfig, -, name, hload, state, hactive, howner, hseller, hbuyer, L₁, hsettle,
    L₂, hstore, hstore'⟩ := h
  obtain ⟨hsite, hname, hlisting⟩ := hsites signer.key (signer?_cons hsigner)
  obtain ⟨authority, -, rfl, -⟩ := agrees.config hsite hconfig
  obtain ⟨n, hn, rfl, haddress, -⟩ := agrees.name hname hload
  obtain ⟨hholds, -, -, -, hkey⟩ := loadActiveListing_ok.mp hactive
  obtain ⟨l, hl, rfl⟩ := agrees.listing hlisting hkey hholds
  replace hseller : seller.key = l.seller := hseller
  have payment : Payment signer.key seller.key signer.key trailing l.terms L L₁ :=
    payment_of_settle hsettle id
  have htokens := (store_ok hstore').tokens.trans (store_ok hstore).tokens
  rw [hseller] at payment
  refine ⟨signer, seller, cfg, account, listing, trailing, n, l, L₁, rfl, hn, hl, howner, hbuyer,
    payment, htokens, fun houtside funded => ?_⟩
  obtain ⟨_, hrewrite, rewritten⟩ := rewrites signer (n.account k)
    (Transition.transfer (n.account k) signer.key)
    (agrees.of_content (content_of_eq payment.owner payment.data))
    (funded.spared payment.spares houtside) hname (Registry.content_of_name hn) (encode_name_ne _)
    (by rw [length_encode_name, length_encode_name]; rfl) haddress
  cases hstore.symm.trans hrewrite
  have hne : Site.listing k ≠ .name k := by rintro ⟨⟩
  obtain ⟨_, hrewrite', rewritten'⟩ := rewrites signer (l.account k)
    (Marketplace.deactivateListing (l.account k)) rewritten.agrees rewritten.funded hlisting
    ((Function.update_of_ne hne ..).trans (Registry.content_of_listing hl)) (encode_listing_ne _)
    (by rw [length_encode_listing, length_encode_listing]) hkey
  cases hstore'.symm.trans hrewrite'
  exact fun j => by rw [rewritten'.lamports, rewritten.lamports]

theorem acceptOffer_settles {buyer : ArchAddress} (agrees : Agrees S L R.content)
    (hsites : InScope S accounts (.acceptOffer k buyer))
    (h : acceptOffer L accounts k buyer = .ok L') :
    ∃ signer payer cfg account offer listing trailing n o L₁,
      accounts = signer :: payer :: cfg :: account :: offer :: listing :: trailing ∧
      R.name k = some n ∧ R.offer (k, buyer) = some o ∧ o.active = true ∧ signer.key = n.owner ∧
      Payment (Site.offer k buyer).address n.owner buyer trailing o.terms L L₁ ∧
      L'.tokens = L₁.tokens ∧
      (Clean S L → ¬ S.Derived signer.key → Funded S L R.content R.escrow →
        ∀ j, L'.lamports j = L₁.lamports j) := by
  simp only [acceptOffer, Outcome.bind_ok, Outcome.reject_ok, nextAccountInfo_ok, Prod.exists,
    requireSigner_ok, requireOwner_ok, requireAddress_ok, ensureUnpaused_ok, exists_const, ne_eq,
    not_not] at h
  obtain ⟨signer, _, rfl, payer, _, rfl, cfg, _, rfl, account, _, rfl, offer, _, rfl, listing,
    trailing, rfl, hsigner, config, hconfig, -, name, hload, howner, rfl, state, hactive, L₁, hpay,
    hlistingKey, active, hlistingActive, L₂, hunlist, L₃, hstore, hstore'⟩ := h
  obtain ⟨hsite, hname, hlisting, hoffer⟩ := hsites signer.key (signer?_cons hsigner)
  obtain ⟨authority, -, rfl, -⟩ := agrees.config hsite hconfig
  obtain ⟨n, hn, rfl, haddress, -⟩ := agrees.name hname hload
  obtain ⟨hholds, -, -, -, hflag, hkey⟩ := loadActiveOffer_ok.mp hactive
  obtain ⟨o, ho, rfl⟩ := agrees.offer hoffer hkey hholds
  replace hkey : offer.key = (Site.offer k payer.key).address := hkey
  have payment : Payment offer.key signer.key payer.key trailing o.terms L L₁ :=
    payment_of_settle hpay fun h => (Outcome.bind_ok.mp h).elim fun _ h => h.2
  have hsame := content_of_eq payment.owner payment.data
  have unlisted := unlisted_ok (agrees.of_content hsame) hlisting hlistingKey hlistingActive hunlist
  have htokens := (store_ok hstore').tokens.trans ((store_ok hstore).tokens.trans unlisted.tokens)
  rw [hkey, howner] at payment
  refine ⟨signer, payer, cfg, account, offer, listing, trailing, n, o, L₁, rfl, hn, ho, hflag, howner,
    payment, htokens, fun clean houtside funded => ?_⟩
  obtain ⟨_, _, hlistingActive', hunlist', agrees₂, funded₂, hsame₂⟩ := unlists signer
    (agrees.of_content hsame) (payment.rents funded hoffer rfl ho hflag)
    (clean.yields (.of_eq payment.owner payment.data)) hlisting hlistingKey
  cases hlistingActive.symm.trans hlistingActive'
  cases hunlist.symm.trans hunlist'
  obtain ⟨_, hrewrite, rewritten⟩ := rewrites signer (n.account k)
    (Transition.transfer (n.account k) payer.key) agrees₂ funded₂ hname
    (Registry.content_of_name (R := R.setListing k _) hn) (encode_name_ne _)
    (by rw [length_encode_name, length_encode_name]; rfl) haddress
  cases hstore.symm.trans hrewrite
  have hne : Site.offer k payer.key ≠ .name k := by rintro ⟨⟩
  obtain ⟨_, hrewrite', rewritten'⟩ := rewrites signer (o.account k payer.key)
    (Marketplace.deactivateOffer (o.account k payer.key)) rewritten.agrees rewritten.funded hoffer
    ((Function.update_of_ne hne ..).trans (Registry.content_of_offer (R := R.setListing k _) ho))
    (encode_offer_ne _) (by rw [length_encode_offer, length_encode_offer]) hkey
  cases hstore'.symm.trans hrewrite'
  exact fun j => by rw [rewritten'.lamports, rewritten.lamports, hsame₂]

end ArchNameService
