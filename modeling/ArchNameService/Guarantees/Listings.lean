import ArchNameService.Guarantees.Solvency

/-!
# Listings follow the name

An active listing is offered by the current owner at a positive price. It blocks
transfers and ends with every change of owner, so the owner can always cancel it
and anyone with the price can buy.
-/

namespace ArchNameService
open Deployment History

section
variable [Deployment] {S : Scope} {L L' L₀ : Ledger} {history : List Event} {c : Call}

/-- A change of owner leaves no active listing. -/
theorem Registry.Step.unlisted_of_owner_change {decoys : Prop} {R R' : Registry} {a : Action}
    {h : Bytes 32} {n n' : Registration} (step : R.Step decoys a R') (hn : R.name h = some n)
    (hn' : R'.name h = some n') (hne : n'.owner ≠ n.owner) : R'.listed h = false := by
  obtain ⟨-, ⟨rfl, hunlisted⟩ | ⟨rfl, -⟩ | ⟨rfl, -⟩⟩ := step.owner_change hn hn' hne
  · rwa [listed, step.listing_kept rfl]
  all_goals
    obtain ⟨n, terms, -, he, -⟩ | ⟨-, hlisting⟩ := step.listing_touched (k := h) (by simp [Action.touchesListing])
    · cases (Action.mk.inj he).2
    · rw [listed, hlisting, Option.any_map]
      cases R.listing h <;> rfl

/-- The owner, signing with the right accounts, can take the listing down, and keeps the name. -/
def CanCancelListing (L : Ledger) (h : Bytes 32) (owner : ArchAddress) : Prop :=
  ∀ accounts,
    Presents accounts [owner, Site.config.address, (Site.name h).address, (Site.listing h).address] →
    ∃ L', processInstruction L accounts (Borsh.serialize (NameInstruction.cancelListing h)) = .ok L' ∧
      (L'.storedListing h).map (·.active) = some false ∧ L'.storedName h = L.storedName h

/-- Anyone else with the price, signing with the right accounts, can buy from the owner:
exactly the price changes hands, and the name goes to the buyer, no longer listed. -/
def CanBuy (S : Scope) (L : Ledger) (h : Bytes 32) (owner : ArchAddress) (price : UInt64) : Prop :=
  ∀ accounts buyer, buyer ≠ owner → ¬ S.Derived buyer → price ≤ L.lamports buyer →
    Presents accounts [buyer, owner, Site.config.address, (Site.name h).address,
      (Site.listing h).address] →
    ∃ L', processInstruction L accounts (Borsh.serialize (NameInstruction.buyName h)) = .ok L' ∧
      (L'.lamports buyer).toNat = (L.lamports buyer).toNat - price.toNat ∧
      (L'.lamports owner).toNat = (L.lamports owner).toNat + price.toNat ∧
      (∀ k, k ≠ buyer → k ≠ owner → L'.lamports k = L.lamports k) ∧
      (L'.storedListing h).map (·.active) = some false ∧
      (L'.storedName h).map (·.owner) = some buyer

section Listings

variable {R : Registry} {h : Bytes 32} {authority : ArchAddress} {n : Registration} {l : Listing}
  (agrees : Agrees S L R.content) (funded : Funded S L R.content R.escrow)
  (hopen : R.authority = some authority) (hconfig : .config ∈ S) (hname : .name h ∈ S)
  (hlisting : .listing h ∈ S) (hn : R.name h = some n) (hl : R.listing h = some l)
  (hactive : l.active = true) (howner : n.owner = l.seller)

include agrees hconfig hname hlisting hl hactive in
theorem transfer_refused (accounts : List AccountInfo) (newOwner : ArchAddress) (L' : Ledger) :
    processInstruction L accounts (Borsh.serialize (NameInstruction.transfer h newOwner)) ≠
      .ok L' := by
  intro htransfer
  rw [processInstruction_serialize] at htransfer
  have hsites : InScope S accounts (.transfer h newOwner) := fun _ _ => ⟨hconfig, hname, hlisting⟩
  obtain ⟨signer, -, R', step, -⟩ :=
    dispatch_refines agrees (.inr trivial : Enclosed S L ∨ True) hsites htransfer
  have hlisted : R.listed h = true := by
    rw [Registry.listed, hl, Option.any_some, hactive]
  exact step.not_transfer_of_listed hlisted newOwner rfl

include agrees hconfig hname hlisting in
/-- A cancelled listing is inactive, and the name as before. -/
theorem cancelled {accounts : List AccountInfo} {L' : Ledger}
    (hcancel : processInstruction L accounts (Borsh.serialize (NameInstruction.cancelListing h)) =
      .ok L') :
    (L'.storedListing h).map (·.active) = some false ∧ L'.storedName h = L.storedName h := by
  rw [processInstruction_serialize] at hcancel
  have hsites : InScope S accounts (.cancelListing h) := fun _ _ => ⟨hconfig, hname, hlisting⟩
  obtain ⟨signer, -, R', step, lands⟩ :=
    dispatch_refines agrees (.inr trivial : Enclosed S L ∨ True) hsites hcancel
  rw [lands.agrees.storedListing hlisting, lands.agrees.storedName hname, agrees.storedName hname]
  cases step with
  | cancelListing =>
      rw [Registry.listing_setListing_self]
      exact ⟨rfl, rfl⟩

include agrees hconfig hname hlisting in
/-- A bought name is the buyer's, and no longer listed. -/
theorem bought {accounts : List AccountInfo} {L' : Ledger} {buyer : ArchAddress}
    (hsigner : signer? accounts = some buyer)
    (hbuy : processInstruction L accounts (Borsh.serialize (NameInstruction.buyName h)) = .ok L') :
    (L'.storedListing h).map (·.active) = some false ∧
      (L'.storedName h).map (·.owner) = some buyer := by
  rw [processInstruction_serialize] at hbuy
  have hsites : InScope S accounts (.buyName h) := fun _ _ => ⟨hconfig, hname, hlisting⟩
  obtain ⟨signer, hsigned, R', step, lands⟩ :=
    dispatch_refines agrees (.inr trivial : Enclosed S L ∨ True) hsites hbuy
  cases hsigned.symm.trans hsigner
  rw [lands.agrees.storedListing hlisting, lands.agrees.storedName hname]
  cases step with
  | @buyName _ _ n l =>
      have hmoved : ((R.setName h (n.transfer buyer)).setListing h (some l.deactivate)).name h =
          some (n.transfer buyer) := Registry.name_setName_self ..
      rw [Registry.listing_setListing_self, hmoved]
      exact ⟨rfl, rfl⟩

include agrees funded hopen hconfig hname hlisting hn hl hactive howner

theorem canCancelListing : CanCancelListing L h l.seller := by
  rintro accounts ⟨hsome, hkeys⟩
  obtain ⟨signer, _, rfl, hsigner, hkeys⟩ := exists_of_prefix_map hkeys
  obtain ⟨cfg, _, rfl, hcfg, hkeys⟩ := exists_of_prefix_map hkeys
  obtain ⟨account, _, rfl, haccount, hkeys⟩ := exists_of_prefix_map hkeys
  obtain ⟨site, rest, rfl, hkey, -⟩ := exists_of_prefix_map hkeys
  obtain ⟨L', hcancel, -⟩ := cancelListing_accepted agrees funded hopen hconfig
    hname hlisting hn hl hactive howner rest (isSigner_of_isSome hsome) (hsigner.trans howner.symm)
    hcfg haccount hkey
  have hcancel : processInstruction L _ (Borsh.serialize (NameInstruction.cancelListing h)) =
      .ok L' := (processInstruction_serialize ..).trans hcancel
  exact ⟨L', hcancel, cancelled agrees hconfig hname hlisting hcancel⟩

theorem canBuy (hcurrency : l.terms.currency = .arch) (htotal : L.total < 2 ^ 64) :
    CanBuy S L h l.seller l.terms.price := by
  rintro accounts buyer hbuyer houtside hcovered ⟨hsome, hkeys⟩
  obtain ⟨signer, _, rfl, hsigner, hkeys⟩ := exists_of_prefix_map hkeys
  obtain ⟨payee, _, rfl, hpayee, hkeys⟩ := exists_of_prefix_map hkeys
  obtain ⟨cfg, _, rfl, hcfg, hkeys⟩ := exists_of_prefix_map hkeys
  obtain ⟨account, _, rfl, haccount, hkeys⟩ := exists_of_prefix_map hkeys
  obtain ⟨site, rest, rfl, hkey, -⟩ := exists_of_prefix_map hkeys
  subst hsigner
  rw [← howner] at hbuyer hpayee ⊢
  obtain ⟨L₁, L', hbuy, paid, hlamports⟩ := buyName_accepted agrees funded hopen
    hconfig hname hlisting hn hl hactive howner rest hcurrency (isSigner_of_isSome hsome) hpayee hcfg
    haccount hkey hbuyer houtside hcovered htotal
  have hbuy : processInstruction L _ (Borsh.serialize (NameInstruction.buyName h)) = .ok L' :=
    (processInstruction_serialize ..).trans hbuy
  refine ⟨L', hbuy, ?_, ?_, fun k hk hk' => ?_,
    bought agrees hconfig hname hlisting (signer?_cons (isSigner_of_isSome hsome)) hbuy⟩
  · rw [hlamports, paid.debited]
  · rw [hlamports, paid.credited]
  · rw [hlamports, paid.others hk hk']

end Listings

/-- Every active listing is by the current owner at a positive price, bars
transfers, and can be cancelled and bought; a change of owner ends it. No
configuration is ever paused. -/
theorem listing_consistent (genesis : Genesis L₀)
    (run : Run (Ledger.Step S) L₀ history L) (hsigned : ∀ e ∈ history, e.SignedOutside S)
    (hconfig : .config ∈ S) {h : Bytes 32} (hname : .name h ∈ S) (hlisting : .listing h ∈ S) :
    (∀ listing, L.storedListing h = some listing → listing.active = true →
      listing.nameHash = h ∧ listing.price ≠ 0 ∧
      (∃ name, L.storedName h = some name ∧ name.owner = listing.seller) ∧
      (∀ accounts newOwner L', processInstruction L accounts
        (Borsh.serialize (NameInstruction.transfer h newOwner)) ≠ .ok L') ∧
      CanCancelListing L h listing.seller ∧
      (listing.currency = .arch → L.total < 2 ^ 64 → CanBuy S L h listing.seller listing.price)) ∧
    (∀ c L', Ledger.Step S L (.accepted c) L' →
      ∀ name name', L.storedName h = some name → L'.storedName h = some name' →
        name'.owner ≠ name.owner →
        ∀ listing, L'.storedListing h = some listing → listing.active = false) := by
  obtain ⟨R, hreached, corresponds⟩ := genesis.reached run
  have agrees := corresponds.agrees
  have funded := corresponds.funded hsigned Genesis.funded
  refine ⟨fun listing hstored hactive => ?_, fun c L' step name name' hstored hstored' hne => ?_⟩
  · obtain ⟨l, hl, rfl⟩ := agrees.listing_of_stored hlisting hstored
    obtain ⟨n, hn, howner⟩ := (Registry.listing_trace hreached hl hactive).owner
    obtain ⟨authority, hopen⟩ := Registry.authority_of_name hreached hn
    have hstored : L.storedName h = some (n.account h) := by
      rw [agrees.storedName hname, hn]
      rfl
    exact ⟨rfl, l.terms.positive, ⟨n.account h, hstored, howner⟩,
      transfer_refused agrees hconfig hname hlisting hl hactive,
      canCancelListing agrees funded hopen hconfig hname hlisting hn hl hactive howner,
      canBuy agrees funded hopen hconfig hname hlisting hn hl hactive howner⟩
  · intro listing hlistingStored
    obtain ⟨R, R', -, agrees, agrees', hcall⟩ := genesis.call run step
    obtain ⟨n, hn, rfl⟩ := agrees.name_of_stored hname hstored
    obtain ⟨n', hn', rfl⟩ := agrees'.name_of_stored hname hstored'
    obtain ⟨l, hl, rfl⟩ := agrees'.listing_of_stored hlisting hlistingStored
    obtain ⟨a, -, -, hstep⟩ | ⟨-, rfl⟩ := hcall
    · have hunlisted := hstep.unlisted_of_owner_change hn hn' hne
      simp only [Registry.listed, hl, Option.any_some] at hunlisted
      exact hunlisted
    · exact absurd (by rw [Option.some.inj (hn.symm.trans hn')]) hne

end

open Testnet in
/-- What Ann lists for 500 can be bought for 500, and taken down. -/
theorem listing_sells : ∃ L : Ledger, CanBuy scope L alice ann 500 ∧ CanCancelListing L alice ann := by
  obtain ⟨L, run, htotal, hsigned, hp⟩ := reached (opening ++ [listing .arch 500])
    (fun L => decide ((L.storedListing alice).map
      (fun l => (l.active, l.seller, l.currency, l.price)) = some (true, ann, .arch, 500)))
    (by decide +kernel) (by decide +kernel)
  obtain ⟨sold, hstored, hvalues⟩ := Option.map_eq_some_iff.mp (of_decide_eq_true hp)
  obtain ⟨hactive, hvalues⟩ := Prod.mk.inj hvalues
  obtain ⟨hseller, hvalues⟩ := Prod.mk.inj hvalues
  obtain ⟨hcurrency, hprice⟩ := Prod.mk.inj hvalues
  obtain ⟨hconsistent, -⟩ := listing_consistent start_genesis run hsigned
    (by decide : .config ∈ sites) (by decide : .name alice ∈ sites) (by decide : .listing alice ∈ sites)
  obtain ⟨-, -, -, -, hcancels, hbuys⟩ := hconsistent sold hstored hactive
  rw [hseller, hprice] at hbuys
  rw [hseller] at hcancels
  exact ⟨L, hbuys hcurrency htotal, hcancels⟩

end ArchNameService
