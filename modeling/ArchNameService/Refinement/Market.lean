import ArchNameService.Refinement.Handlers

/-! # Each handler of the marketplace refines a step of the registry -/

namespace ArchNameService
open Deployment

/-! ## Settlements -/

/-- A transfer of tokens of one mint, out of an account of the authority. -/
structure TokensMoved (source destination authority : ArchAddress) (amount : UInt64)
    (s d : TokenAccount) (L L' : Ledger) : Prop where
  debtor : L.tokens source = some s
  creditor : L.tokens destination = some d
  covered : amount ≤ s.amount
  mint : s.mint = d.mint
  owner : s.owner = authority
  accounts : L'.accounts = L.accounts
  result : if source = destination then L'.tokens = L.tokens
    else d.amount.toNat + amount.toNat < 2 ^ 64 ∧
      L'.tokens = Function.update
        (Function.update L.tokens source (some { s with amount := s.amount - amount }))
        destination (some { d with amount := d.amount + amount })

theorem tokenTransfer_ok {L L' : Ledger} {source destination authority : AccountInfo}
    {amount : UInt64} (h : tokenTransfer L source destination authority amount = .ok L') :
    ∃ s d, TokensMoved source.key destination.key authority.key amount s d L L' := by
  simp only [tokenTransfer, Outcome.bind_ok, Outcome.orElseError_ok, Outcome.reject_ok, not_or,
    ne_eq, not_not, exists_const] at h
  obtain ⟨s, hsource, d, hdestination, hcovered, hmint, ⟨howner, -⟩, h⟩ := h
  refine ⟨s, d, hsource, hdestination, UInt64.not_lt.mp hcovered, hmint, howner, ?_, ?_⟩
  · split at h
    · rw [Outcome.pure_ok.mp h]
    · simp only [Outcome.bind_ok, Outcome.pure_ok] at h
      obtain ⟨_, _, rfl⟩ := h
      rfl
  · split at h
    · rename_i hself
      rw [if_pos hself, Outcome.pure_ok.mp h]
    · rename_i hself
      simp only [Outcome.bind_ok, Outcome.orElseError_ok, Outcome.pure_ok, checkedAdd_eq_some] at h
      obtain ⟨_, ⟨hfits, rfl⟩, rfl⟩ := h
      rw [if_neg hself]
      exact ⟨hfits, rfl⟩

/-- The settlement in aBTC names the mint and the token program, and leaves the
choice of the two token accounts to the caller. -/
theorem settleAbtc_ok {L L' : Ledger} {payer : AccountInfo} {rest : List AccountInfo}
    {price : UInt64} (h : settleAbtc L payer rest price = .ok L') :
    ∃ buyerAta sellerAta mint tokenProgram rest' s d,
      rest = buyerAta :: sellerAta :: mint :: tokenProgram :: rest' ∧
        mint.key = testnetAbtcMint ∧ tokenProgram.key = tokenProgramIdBytes ∧
        TokensMoved buyerAta.key sellerAta.key payer.key price s d L L' := by
  simp only [settleAbtc, Outcome.bind_ok, Prod.exists, nextAccountInfo_ok, Outcome.reject_ok,
    ne_eq, not_not, exists_const, transferAbtc] at h
  obtain ⟨buyerAta, _, rfl, sellerAta, _, rfl, mint, _, rfl, tokenProgram, rest', rfl, hmint,
    hprogram, h⟩ := h
  obtain ⟨s, d, hmoved⟩ := tokenTransfer_ok h
  exact ⟨buyerAta, sellerAta, mint, tokenProgram, rest', s, d, rfl, hmint, hprogram, hmoved⟩

theorem settleAbtc_accounts {L L' : Ledger} {payer : AccountInfo} {rest : List AccountInfo}
    {price : UInt64} (h : settleAbtc L payer rest price = .ok L') : L'.accounts = L.accounts := by
  obtain ⟨_, _, _, _, _, _, _, -, -, -, hmoved⟩ := settleAbtc_ok h
  exact hmoved.accounts

theorem owner_of_accounts {L L' : Ledger} (h : L'.accounts = L.accounts) (k : ArchAddress) :
    L'.owner k = L.owner k := by
  simp only [Ledger.owner, h]

theorem data_of_accounts {L L' : Ledger} (h : L'.accounts = L.accounts) (k : ArchAddress) :
    L'.data k = L.data k := by
  simp only [Ledger.data, h]

theorem spares_of_accounts {L L' : Ledger} {p : ArchAddress} (h : L'.accounts = L.accounts) :
    Spares p L L' :=
  .of_eq fun k => by simp only [Ledger.lamports, h]

theorem total_of_accounts {L L' : Ledger} (h : L'.accounts = L.accounts) : L'.total = L.total :=
  Ledger.total_of_eq fun k => by simp only [Ledger.lamports, h]

/-- A payment that takes lamports from the payer at most. -/
structure Settled (p : ArchAddress) (L L' : Ledger) : Prop where
  owner : ∀ j, L'.owner j = L.owner j
  data : ∀ j, L'.data j = L.data j
  spares : Spares p L L'
  total : L'.total = L.total

theorem settled_of_match {L L₁ : Ledger} {currency : QuoteCurrency} {payer payee : AccountInfo}
    {rest : List AccountInfo} {price : UInt64}
    (h : (match currency with
      | .arch => transferLamports L payer payee price
      | .btc => settleAbtc L payer rest price) = .ok L₁) : Settled payer.key L L₁ := by
  cases currency with
  | arch =>
      have paid := transferLamports_ok.mp h
      exact ⟨paid.owner, paid.data, paid.spares, paid.total⟩
  | btc =>
      have haccounts := settleAbtc_accounts h
      exact ⟨owner_of_accounts haccounts, data_of_accounts haccounts, spares_of_accounts haccounts,
        total_of_accounts haccounts⟩

namespace Registry

theorem escrow_of_active {R : Registry} {k : Bytes 32} {buyer : ArchAddress} {o : Offer}
    (hoffer : R.offer (k, buyer) = some o) : R.escrow (.offer k buyer) = o.escrow := by
  simp only [escrow, hoffer, Option.map_some, Option.getD_some]

theorem escrow_of_unoffered {R : Registry} {k : Bytes 32} {buyer : ArchAddress}
    (h : R.offered k buyer = false) : R.escrow (.offer k buyer) = 0 := by
  cases hoffer : R.offer (k, buyer) with
  | none => simp only [escrow, hoffer, Option.map_none, Option.getD_none]
  | some o =>
      simp only [offered, hoffer, Option.any_some] at h
      simp only [escrow, hoffer, Option.map_some, Option.getD_some, Offer.escrow, h,
        Bool.false_eq_true, false_and, if_false]

theorem map_deactivate_of_unlisted {R : Registry} {k : Bytes 32} (h : R.listed k = false) :
    (R.listing k).map (·.deactivate) = R.listing k := by
  cases hlisting : R.listing k with
  | none => rfl
  | some l =>
      simp only [listed, hlisting, Option.any_some] at h
      simp only [Option.map_some, Listing.deactivate, ← h]

theorem setName_setListing (R : Registry) (k : Bytes 32) (n : Registration) (l : Option Listing) :
    (R.setListing k l).setName k n = (R.setName k n).setListing k l := rfl

end Registry

@[simp] theorem Offer.escrow_deactivate (o : Offer) : o.deactivate.escrow = 0 := by
  simp only [Offer.escrow, Offer.deactivate, Bool.false_eq_true, false_and, if_false]

theorem Offer.escrow_arch {o : Offer} (hactive : o.active = true)
    (hcurrency : o.terms.currency = .arch) : o.escrow = o.terms.price.toNat := by
  simp only [Offer.escrow, hactive, hcurrency, and_self, if_true]

theorem Offer.escrow_btc {o : Offer} (hcurrency : o.terms.currency = .btc) : o.escrow = 0 := by
  rw [Offer.escrow, if_neg]
  rintro ⟨-, h⟩
  rw [h] at hcurrency
  exact nomatch hcurrency

/-! ## Listings -/

variable [Deployment] {S : Scope} {decoys : Prop} {L L' L₁ : Ledger} {R : Registry}
variable {accounts : List AccountInfo} {k : Bytes 32}
variable (agrees : Agrees S L R.content)
include agrees

theorem listName_refines {currency : QuoteCurrency} {price : UInt64} (hsites : InScope S accounts (.listName k currency price))
    (h : listName L accounts k currency price = .ok L') :
    ∃ signer, signer? accounts = some signer ∧
      Refines S decoys R ⟨signer, .listName k currency price⟩ L L' := by
  simp only [listName, Outcome.bind_ok, Outcome.reject_ok, nextAccountInfo_ok, Prod.exists,
    requireSigner_ok, requireAddress_ok, requireOwner_ok, ensureUnpaused_ok, exists_const] at h
  obtain ⟨hprice, signer, _, rfl, cfg, _, rfl, account, _, rfl, listing, _, rfl, hsigner, config,
    hconfig, -, name, hload, howner, hkey, active, hactive, hinactive, L₁, hprepare, hstore⟩ := h
  obtain ⟨hsite, hname, hlisting⟩ := hsites signer.key (signer?_cons hsigner)
  obtain ⟨authority, -, rfl, -⟩ := agrees.config hsite hconfig
  obtain ⟨n, hn, rfl, -, -⟩ := agrees.name hname hload
  replace hkey : listing.key = (Site.listing k).address := hkey
  have hunlisted := agrees.unlisted hlisting hkey
    (by rwa [Bool.eq_false_of_not_eq_true hinactive] at hactive)
  have hput := prepared_put (prepared_ok hprepare) hstore
  rw [hkey] at hput
  let terms : Terms := ⟨currency, price, hprice⟩
  have hstep : R.Step decoys ⟨signer.key, .listName k terms.currency terms.price⟩
      (R.setListing k (some ⟨n.owner, terms, true⟩)) := by
    rw [howner]
    exact .listName hn hunlisted
  exact ⟨signer.key, signer?_cons hsigner, _, hstep,
    agrees.lands_put hlisting hput (Registry.content_setListing ..) (Registry.escrow_setListing ..)
      rfl⟩

theorem cancelListing_refines (hsites : InScope S accounts (.cancelListing k))
    (h : cancelListing L accounts k = .ok L') :
    ∃ signer, signer? accounts = some signer ∧
      Refines S decoys R ⟨signer, .cancelListing k⟩ L L' := by
  simp only [cancelListing, Outcome.bind_ok, Outcome.reject_ok, nextAccountInfo_ok, Prod.exists,
    requireSigner_ok, requireOwner_ok, ensureUnpaused_ok, exists_const, ne_eq, not_not] at h
  obtain ⟨signer, _, rfl, cfg, _, rfl, account, _, rfl, listing, _, rfl, hsigner, config,
    hconfig, -, name, hload, howner, state, hactive, hseller, hstore⟩ := h
  obtain ⟨hsite, hname, hlisting⟩ := hsites signer.key (signer?_cons hsigner)
  obtain ⟨authority, -, rfl, -⟩ := agrees.config hsite hconfig
  obtain ⟨n, hn, rfl, -, -⟩ := agrees.name hname hload
  obtain ⟨hholds, -, -, hflag, hkey⟩ := loadActiveListing_ok.mp hactive
  obtain ⟨l, hl, rfl⟩ := agrees.listing hlisting hkey hholds
  have hput := (store_ok hstore).put hholds.1
  rw [show listing.key = (Site.listing k).address from hkey] at hput
  have hstep : R.Step decoys ⟨signer.key, .cancelListing k⟩ (R.setListing k (some l.deactivate)) := by
    rw [howner]
    exact .cancelListing hn hl hflag hseller
  exact ⟨signer.key, signer?_cons hsigner, _, hstep,
    agrees.lands_put hlisting hput (Registry.content_setListing ..) (Registry.escrow_setListing ..)
      rfl⟩

theorem buyName_refines (hsites : InScope S accounts (.buyName k))
    (h : buyName L accounts k = .ok L') :
    ∃ signer, signer? accounts = some signer ∧ Refines S decoys R ⟨signer, .buyName k⟩ L L' := by
  simp only [buyName, Outcome.bind_ok, Outcome.reject_ok, nextAccountInfo_ok, Prod.exists,
    requireSigner_ok, ensureUnpaused_ok, exists_const, ne_eq, not_not] at h
  obtain ⟨signer, _, rfl, seller, _, rfl, cfg, _, rfl, account, _, rfl, listing, rest, rfl, hsigner,
    config, hconfig, -, name, hload, state, hactive, howner, hseller, hbuyer, L₁, hsettle, L₂,
    hstore, hstore'⟩ := h
  obtain ⟨hsite, hname, hlisting⟩ := hsites signer.key (signer?_cons hsigner)
  obtain ⟨authority, -, rfl, -⟩ := agrees.config hsite hconfig
  obtain ⟨n, hn, rfl, haddress, howned⟩ := agrees.name hname hload
  obtain ⟨hholds, -, -, hflag, hkey⟩ := loadActiveListing_ok.mp hactive
  obtain ⟨l, hl, rfl⟩ := agrees.listing hlisting hkey hholds
  replace hkey : listing.key = (Site.listing k).address := hkey
  have hsettled := settled_of_match hsettle
  have hne : (Site.listing k).address ≠ (Site.name k).address :=
    Scope.address_ne hlisting hname (by rintro ⟨⟩)
  have hput := (store_ok hstore).put (by rw [hsettled.owner, howned])
  rw [haddress, Registration.account_transfer] at hput
  have hput' := (store_ok hstore').put
    (by rw [hput.owner, hkey, if_neg hne, hsettled.owner, ← hkey, hholds.1])
  rw [hkey] at hput'
  have hstep : R.Step decoys ⟨signer.key, .buyName k⟩
      ((R.setName k (n.transfer signer.key)).setListing k (some l.deactivate)) :=
    .buyName hn hl hflag howner.symm fun h => hbuyer (h.trans howner)
  have hsame := content_of_eq hsettled.owner hsettled.data
  refine ⟨signer.key, signer?_cons hsigner, _, hstep, ?_⟩
  exact
    { agrees := by
        rw [Registry.content_setListing, Registry.content_setName]
        exact ((agrees.of_content hsame).update hname hput.content).update hlisting hput'.content
      enclosed := fun enclosed => ((enclosed.of_content hsame).update hname hput.content).update
        hlisting hput'.content
      yields := fun _ => ((Yields.of_eq hsettled.owner hsettled.data).trans hput.yields).trans
        hput'.yields
      total := hput'.total.trans (hput.total.trans hsettled.total)
      funded := fun hpayer funded => by
        rw [Registry.content_setListing, Registry.content_setName]
        exact ((funded.spared hsettled.spares hpayer).put hput hpayer rfl).put hput' hpayer rfl }

/-! ## Offers -/

theorem makeOffer_refines {currency : QuoteCurrency} {price : UInt64} (hsites : InScope S accounts (.makeOffer k currency price))
    (h : makeOffer L accounts k currency price = .ok L') :
    ∃ signer, signer? accounts = some signer ∧
      Refines S decoys R ⟨signer, .makeOffer k currency price⟩ L L' := by
  simp only [makeOffer, Outcome.bind_ok, Outcome.reject_ok, nextAccountInfo_ok, Prod.exists,
    requireSigner_ok, requireAddress_ok, ensureUnpaused_ok, exists_const] at h
  obtain ⟨hprice, signer, _, rfl, cfg, _, rfl, account, _, rfl, offer, _, rfl, hsigner, config,
    hconfig, -, name, hload, hbuyer, hkey, active, hactive, hinactive, L₁, hprepare, L₂, hstore,
    hpay⟩ := h
  obtain ⟨hsite, hname, hoffer⟩ := hsites signer.key (signer?_cons hsigner)
  obtain ⟨authority, -, rfl, -⟩ := agrees.config hsite hconfig
  obtain ⟨n, hn, rfl, -, -⟩ := agrees.name hname hload
  replace hkey : offer.key = (Site.offer k signer.key).address := hkey
  have hunoffered := agrees.unoffered hoffer hkey
    (by rwa [Bool.eq_false_of_not_eq_true hinactive] at hactive)
  have hput := prepared_put (prepared_ok hprepare) hstore
  rw [hkey] at hput
  let terms : Terms := ⟨currency, price, hprice⟩
  have hstep : R.Step decoys ⟨signer.key, .makeOffer k terms.currency terms.price⟩
      (R.setOffer k signer.key ⟨terms, true⟩) :=
    .makeOffer hn hbuyer hunoffered
  have hbefore := Registry.escrow_of_unoffered hunoffered
  refine ⟨signer.key, signer?_cons hsigner, _, hstep, ?_⟩
  split at hpay
  · rename_i hcurrency
    have paid := transferLamports_ok.mp hpay
    exact
      { agrees := by
          rw [Registry.content_setOffer]
          exact (agrees.update hoffer hput.content).of_content paid.content
        enclosed := fun enclosed => (enclosed.update hoffer hput.content).of_content paid.content
        yields := fun _ => hput.yields.trans (.of_eq paid.owner paid.data)
        total := paid.total.trans hput.total
        funded := fun hpayer funded => by
          rw [hkey] at paid
          have hfunded := (funded.put hput hpayer hbefore).deposit hoffer paid hpayer
          rw [hbefore, Nat.zero_add] at hfunded
          rw [Registry.content_setOffer, Registry.escrow_setOffer]
          rwa [Offer.escrow_arch (o := ⟨⟨currency, price, hprice⟩, true⟩) rfl hcurrency] }
  · rename_i hcurrency
    cases Outcome.pure_ok.mp hpay
    exact
      { agrees := by
          rw [Registry.content_setOffer]
          exact agrees.update hoffer hput.content
        enclosed := fun enclosed => enclosed.update hoffer hput.content
        yields := fun _ => hput.yields
        total := hput.total
        funded := fun hpayer funded => by
          have hafter : Offer.escrow ⟨⟨currency, price, hprice⟩, true⟩ =
              R.escrow (.offer k signer.key) := by
            rw [hbefore, Offer.escrow, if_neg fun h => hcurrency h.2]
          rw [Registry.content_setOffer, Registry.escrow_setOffer, hafter,
            Function.update_eq_self]
          exact funded.put hput hpayer hbefore }

omit agrees in
/-- Paying out an active offer in ARCH releases its escrow, and nothing else does. -/
structure Released (S : Scope) (s : Site) (C : Site → List UInt8) (E : Site → Nat) (L L' : Ledger) :
    Prop where
  owner : ∀ j, L'.owner j = L.owner j
  data : ∀ j, L'.data j = L.data j
  total : L'.total = L.total
  funded : Funded S L C E → Funded S L' C (Function.update E s 0)

omit agrees in
theorem released_arch {offer : AccountInfo} {payee : AccountInfo} {buyer : ArchAddress} {o : Offer}
    (hs : .offer k buyer ∈ S) (hkey : offer.key = (Site.offer k buyer).address)
    (hoffer : R.offer (k, buyer) = some o) (hactive : o.active = true)
    (hcurrency : o.terms.currency = .arch)
    (h : transferLamports L offer payee o.terms.price = .ok L₁) :
    Released S (.offer k buyer) R.content R.escrow L L₁ := by
  have paid := transferLamports_ok.mp h
  have hescrow : R.escrow (.offer k buyer) = o.terms.price.toNat := by
    rw [Registry.escrow_of_active hoffer, Offer.escrow_arch hactive hcurrency]
  refine ⟨paid.owner, paid.data, paid.total, fun funded => ?_⟩
  rw [hkey] at paid
  have hfunded := funded.withdraw hs paid (Nat.le_of_eq hescrow.symm)
  rwa [hescrow, Nat.sub_self] at hfunded

omit agrees in
theorem released_btc {buyer : ArchAddress} {o : Offer} (hoffer : R.offer (k, buyer) = some o)
    (hcurrency : o.terms.currency = .btc) (haccounts : L₁.accounts = L.accounts) :
    Released S (.offer k buyer) R.content R.escrow L L₁ := by
  have hescrow : R.escrow (.offer k buyer) = 0 := by
    rw [Registry.escrow_of_active hoffer, Offer.escrow_btc hcurrency]
  refine ⟨owner_of_accounts haccounts, data_of_accounts haccounts, total_of_accounts haccounts,
    fun funded => ?_⟩
  rw [← hescrow, Function.update_eq_self]
  intro t ht hne
  simpa only [Ledger.lamports, haccounts] using funded t ht hne

theorem cancelOffer_refines (hsites : InScope S accounts (.cancelOffer k))
    (h : cancelOffer L accounts k = .ok L') :
    ∃ signer, signer? accounts = some signer ∧
      Refines S decoys R ⟨signer, .cancelOffer k⟩ L L' := by
  simp only [cancelOffer, Outcome.bind_ok, nextAccountInfo_ok, Prod.exists, requireSigner_ok,
    ensureUnpaused_ok, exists_const] at h
  obtain ⟨signer, _, rfl, cfg, _, rfl, offer, _, rfl, hsigner, config, hconfig, -, state, hactive,
    L₁, hpay, hstore⟩ := h
  obtain ⟨hsite, hoffer⟩ := hsites signer.key (signer?_cons hsigner)
  obtain ⟨authority, -, rfl, -⟩ := agrees.config hsite hconfig
  obtain ⟨hholds, -, -, -, hflag, hkey⟩ := loadActiveOffer_ok.mp hactive
  obtain ⟨o, ho, rfl⟩ := agrees.offer hoffer hkey hholds
  replace hkey : offer.key = (Site.offer k signer.key).address := hkey
  have released : Released S (.offer k signer.key) R.content R.escrow L L₁ := by
    split at hpay
    · rename_i hcurrency
      exact released_arch hoffer hkey ho hflag hcurrency hpay
    · rename_i hcurrency
      cases Outcome.pure_ok.mp hpay
      refine released_btc ho ?_ rfl
      cases hbtc : o.terms.currency with
      | arch => exact absurd hbtc hcurrency
      | btc => rfl
  have hput := (store_ok hstore).put (by rw [released.owner, hholds.1])
  rw [hkey] at hput
  have hstep : R.Step decoys ⟨signer.key, .cancelOffer k⟩ (R.setOffer k signer.key o.deactivate) :=
    .cancelOffer ho hflag
  have hsame := content_of_eq released.owner released.data
  refine ⟨signer.key, signer?_cons hsigner, _, hstep, ?_⟩
  exact
    { agrees := by
        rw [Registry.content_setOffer]
        exact (agrees.of_content hsame).update hoffer hput.content
      enclosed := fun enclosed => (enclosed.of_content hsame).update hoffer hput.content
      yields := fun _ => (Yields.of_eq released.owner released.data).trans hput.yields
      total := hput.total.trans released.total
      funded := fun hpayer funded => by
        rw [Registry.content_setOffer, Registry.escrow_setOffer, Offer.escrow_deactivate]
        exact (released.funded funded).put hput hpayer (Function.update_self ..) }

/-! ## Accepting an offer -/

/-- The listing that an accepted offer ends. Where the account at its address is
not the program's, nothing in play changes. -/
structure Unlisted (S : Scope) (p : ArchAddress) (k : Bytes 32) (R : Registry) (L L' : Ledger) :
    Prop where
  owner : ∀ j, L.owner j = programId → L'.owner j = programId
  agrees : Agrees S L' (R.setListing k ((R.listing k).map (·.deactivate))).content
  enclosed : Enclosed S L → Enclosed S L'
  yields : Clean S L → Yields L L'
  total : L'.total = L.total
  tokens : L'.tokens = L.tokens
  funded : ∀ {E : Site → Nat}, ¬ S.Derived p → E (.listing k) = 0 → Funded S L R.content E →
    Funded S L' (R.setListing k ((R.listing k).map (·.deactivate))).content E

theorem unlisted_ok {payer account : AccountInfo} {active : Bool} (hlisting : .listing k ∈ S)
    (hkey : account.key = (Site.listing k).address)
    (hactive : listingIsActive L account = .ok active)
    (h : (if active then do
        let listing ← load L ListingAccount account
        store L payer account (Marketplace.deactivateListing listing)
      else pure L) = .ok L') : Unlisted S payer.key k R L L' := by
  cases active with
  | false =>
      cases Outcome.pure_ok.mp h
      have hsame : R.setListing k ((R.listing k).map (·.deactivate)) = R := by
        rw [Registry.map_deactivate_of_unlisted (agrees.unlisted hlisting hkey hactive), Registry.setListing,
          Function.update_eq_self]
      exact
        { owner := fun _ hj => hj
          agrees := by rwa [hsame]
          enclosed := id
          yields := fun _ => .of_eq (fun _ => rfl) fun _ => rfl
          total := rfl
          tokens := rfl
          funded := fun _ _ funded => by rwa [hsame] }
  | true =>
      simp only [if_true, Outcome.bind_ok] at h
      obtain ⟨state, hload, hstore⟩ := h
      have stored := store_ok hstore
      by_cases howned : L.owner account.key = programId
      · obtain ⟨l, hl, rfl⟩ := agrees.listing hlisting hkey (owned_load_ok.mp ⟨howned, hload⟩)
        have hput := stored.put howned
        rw [hkey] at hput
        exact
          { owner := fun j hj => by rw [hput.owner, hj, ite_self]
            agrees := by
              rw [Registry.content_setListing, hl]
              exact agrees.update hlisting hput.content
            enclosed := fun enclosed => enclosed.update hlisting hput.content
            yields := fun _ => hput.yields
            total := hput.total
            tokens := hput.tokens
            funded := fun hpayer hescrow funded => by
              rw [Registry.content_setListing, hl]
              exact funded.put hput hpayer hescrow }
      · have hcontent : ∀ j, L'.content j = L.content j := by
          intro j
          simp only [Ledger.content, stored.owner, stored.data]
          split
          · rename_i hj
            rw [if_neg fun h => howned (by rw [← h]; exact hj)]
          · rfl
        have hnone : R.listing k = none := by
          have hnil := agrees.content_nil hlisting hkey howned
          cases hl : R.listing k with
          | none => rfl
          | some l =>
              simp only [Registry.content, hl, Option.map_some, encoded] at hnil
              exact absurd hnil (encode_listing_ne _)
        have hsame : R.setListing k ((R.listing k).map (·.deactivate)) = R := by
          rw [hnone, Option.map_none, ← hnone, Registry.setListing, Function.update_eq_self]
        exact
          { owner := fun j hj => by rw [stored.owner, hj]
            agrees := by rw [hsame]; exact agrees.of_content hcontent
            enclosed := fun enclosed => enclosed.of_content hcontent
            yields := fun clean => by
              rcases clean _ hlisting with h | ⟨h, -⟩
              · exact absurd (by rwa [hkey]) howned
              · have hflag := listingIsActive_ok.mp hactive
                rw [if_pos (.inl (by rwa [hkey]))] at hflag
                cases hflag
            total := stored.total
            tokens := stored.tokens
            funded := fun hpayer _ funded => by rw [hsame]; exact funded.spared stored.spares hpayer }

theorem acceptOffer_refines {buyer : ArchAddress} (hsites : InScope S accounts (.acceptOffer k buyer))
    (h : acceptOffer L accounts k buyer = .ok L') :
    ∃ signer, signer? accounts = some signer ∧
      Refines S decoys R ⟨signer, .acceptOffer k buyer⟩ L L' := by
  simp only [acceptOffer, Outcome.bind_ok, Outcome.reject_ok, nextAccountInfo_ok, Prod.exists,
    requireSigner_ok, requireOwner_ok, requireAddress_ok, ensureUnpaused_ok, exists_const, ne_eq,
    not_not] at h
  obtain ⟨signer, _, rfl, buyerInfo, _, rfl, cfg, _, rfl, account, _, rfl, offer, _, rfl, listing,
    rest, rfl, hsigner, config, hconfig, -, name, hload, howner, rfl, state, hactive, L₁, hpay,
    hlistingKey, active, hlistingActive, L₂, hunlist, L₃, hstore, hstore'⟩ := h
  obtain ⟨hsite, hname, hlisting, hoffer⟩ := hsites signer.key (signer?_cons hsigner)
  obtain ⟨authority, -, rfl, -⟩ := agrees.config hsite hconfig
  obtain ⟨n, hn, rfl, haddress, howned⟩ := agrees.name hname hload
  obtain ⟨hholds, -, -, -, hflag, hkey⟩ := loadActiveOffer_ok.mp hactive
  obtain ⟨o, ho, rfl⟩ := agrees.offer hoffer hkey hholds
  replace hkey : offer.key = (Site.offer k buyerInfo.key).address := hkey
  have released : Released S (.offer k buyerInfo.key) R.content R.escrow L L₁ := by
    split at hpay
    · rename_i hcurrency
      exact released_arch hoffer hkey ho hflag hcurrency hpay
    · rename_i hcurrency
      simp only [Outcome.bind_ok, requireSigner_ok, exists_const] at hpay
      exact released_btc ho hcurrency (settleAbtc_accounts hpay.2)
  have hsame := content_of_eq released.owner released.data
  have unlisted := unlisted_ok (agrees.of_content hsame) hlisting hlistingKey
    hlistingActive hunlist
  have hput := (store_ok hstore).put (unlisted.owner _ (by rw [released.owner, howned]))
  rw [haddress, Registration.account_transfer] at hput
  have hput' := (store_ok hstore').put (by
    rw [hput.owner, unlisted.owner _ (by rw [released.owner, hholds.1]), ite_self])
  rw [hkey] at hput'
  have hstep : R.Step decoys ⟨signer.key, .acceptOffer k buyerInfo.key⟩
      (((R.setName k (n.transfer buyerInfo.key)).setListing k
        ((R.listing k).map (·.deactivate))).setOffer k buyerInfo.key o.deactivate) := by
    rw [howner]
    exact .acceptOffer hn ho hflag
  refine ⟨signer.key, signer?_cons hsigner, _, hstep, ?_⟩
  exact
    { agrees := by
        rw [Registry.content_setOffer, ← Registry.setName_setListing, Registry.content_setName]
        exact (unlisted.agrees.update hname hput.content).update hoffer hput'.content
      enclosed := fun enclosed => ((unlisted.enclosed (enclosed.of_content hsame)).update hname
        hput.content).update hoffer hput'.content
      yields := fun clean => by
        have hpaid := Yields.of_eq released.owner released.data
        exact ((hpaid.trans (unlisted.yields (clean.yields hpaid))).trans hput.yields).trans
          hput'.yields
      total := hput'.total.trans (hput.total.trans (unlisted.total.trans released.total))
      funded := fun hpayer funded => by
        have hfunded := unlisted.funded hpayer rfl (released.funded funded)
        rw [Registry.content_setOffer, Registry.escrow_setOffer, Offer.escrow_deactivate,
          ← Registry.setName_setListing, Registry.content_setName, Registry.escrow_setName,
          Registry.escrow_setListing]
        exact (hfunded.put hput hpayer rfl).put hput' hpayer (Function.update_self ..) }

end ArchNameService
