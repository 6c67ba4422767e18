import ArchNameService.Guarantees.Permanence
import ArchNameService.Refinement.Progress

/-!
# The escrow of offers in ARCH

Every active offer in ARCH keeps its rent and its price, so that its buyer can
always withdraw it and the owner of the name can always accept it, for exactly
the price and once.
-/

namespace ArchNameService
open Deployment History

/-- The account list starts with these addresses, and the first of them signs. -/
def Presents (accounts : List AccountInfo) (keys : List ArchAddress) : Prop :=
  (signer? accounts).isSome ∧ keys <+: accounts.map (·.key)

theorem exists_of_prefix_map {accounts : List AccountInfo} {k : ArchAddress}
    {keys : List ArchAddress} (h : k :: keys <+: accounts.map (·.key)) :
    ∃ a rest, accounts = a :: rest ∧ a.key = k ∧ keys <+: rest.map (·.key) := by
  cases accounts with
  | nil => exact nomatch List.prefix_nil.mp h
  | cons a rest =>
      obtain ⟨hkey, hrest⟩ := List.cons_prefix_cons.mp h
      exact ⟨a, rest, rfl, hkey.symm, hrest⟩

theorem isSigner_of_isSome {a : AccountInfo} {rest : List AccountInfo}
    (h : (signer? (a :: rest)).isSome) : a.isSigner = true := by
  by_contra hsigner
  rw [signer?, if_neg hsigner] at h
  cases h

section
variable [Deployment] {S : Scope} {L L₀ : Ledger} {history : List Event}

namespace Registry

variable {decoys : Prop} {R : Registry} {actions : List Action} {h : Bytes 32}

/-- Before an offer is settled, its buyer made it and nothing settled it since. -/
theorem settled_once (run : Reached decoys actions R) {later earlier : List Action} {a : Action}
    {buyer : ArchAddress} (hactions : actions = later ++ a :: earlier)
    (hsettles : a.settlesOffer h buyer = true) :
    ∃ terms : Terms, newest (Action.touchesOffer h buyer) earlier =
      some ⟨buyer, .makeOffer h terms.currency terms.price⟩ := by
  subst hactions
  obtain ⟨t, t', hearlier, step, -⟩ := run.before
  obtain ⟨terms, rfl, -⟩ | ⟨o, -, hoffer, hactive, -⟩ :=
    step.offer_touched (Action.touchesOffer_of_settles hsettles)
  · exact nomatch hsettles
  · exact ⟨o.terms, offer_trace hearlier hoffer hactive⟩

/-- An active offer was made on a registered name. -/
theorem authority_of_offer (run : Reached decoys actions R) {buyer : ArchAddress} {o : Offer}
    (hoffer : R.offer (h, buyer) = some o) (hactive : o.active = true) :
    ∃ authority, R.authority = some authority := by
  have hmade := List.mem_of_find?_eq_some (offer_trace run hoffer hactive)
  obtain ⟨later, earlier, hcut⟩ := List.append_of_mem hmade
  rw [hcut] at run
  obtain ⟨t, t', hearlier, step, rest⟩ := run.before
  obtain ⟨n, hn⟩ := step.makeOffer_name
  obtain ⟨authority, hopen⟩ := authority_of_name hearlier hn
  exact ⟨authority, authority_kept rest (step.authority_kept hopen)⟩

end Registry

/-- The buyer of the offer, signing with the right accounts, gets its price back. -/
def CanCancelOffer (S : Scope) (L : Ledger) (h : Bytes 32) (buyer : ArchAddress) (price : UInt64) :
    Prop :=
  ∀ accounts, ¬ S.Derived buyer →
    Presents accounts [buyer, Site.config.address, (Site.offer h buyer).address] →
    ∃ L', processInstruction L accounts (Borsh.serialize (NameInstruction.cancelOffer h)) = .ok L' ∧
      (L'.lamports buyer).toNat = (L.lamports buyer).toNat + price.toNat

/-- The owner of the name, signing with the right accounts, is paid the price of the offer. -/
def CanAcceptOffer (S : Scope) (L : Ledger) (h : Bytes 32) (buyer : ArchAddress) (price : UInt64) :
    Prop :=
  ∀ accounts name, .name h ∈ S → .listing h ∈ S → L.storedName h = some name →
    ¬ S.Derived name.owner →
    Presents accounts [name.owner, buyer, Site.config.address, (Site.name h).address,
      (Site.offer h buyer).address, (Site.listing h).address] →
    ∃ L', processInstruction L accounts (Borsh.serialize (NameInstruction.acceptOffer h buyer)) =
        .ok L' ∧
      (L'.lamports name.owner).toNat = (L.lamports name.owner).toNat + price.toNat

section Offers

variable {R : Registry} {h : Bytes 32} {buyer authority : ArchAddress} {o : Offer}
  (agrees : Agrees S L R.content) (funded : Funded S L R.content R.escrow)
  (hopen : R.authority = some authority) (hconfig : .config ∈ S) (hsite : .offer h buyer ∈ S)
  (hoffer : R.offer (h, buyer) = some o) (hactive : o.active = true)
  (hcurrency : o.terms.currency = .arch) (htotal : L.total < 2 ^ 64)

include agrees funded hopen hconfig hsite hoffer hactive hcurrency htotal

theorem canCancelOffer : CanCancelOffer S L h buyer o.terms.price := by
  rintro accounts houtside ⟨hsome, hkeys⟩
  obtain ⟨signer, _, rfl, hsigner, hkeys⟩ := exists_of_prefix_map hkeys
  obtain ⟨cfg, _, rfl, hcfg, hkeys⟩ := exists_of_prefix_map hkeys
  obtain ⟨account, rest, rfl, hkey, -⟩ := exists_of_prefix_map hkeys
  obtain ⟨L₁, L', hcancel, paid, hlamports⟩ := cancelOffer_accepted agrees funded
    hopen hconfig hsite hoffer hactive hcurrency rest (isSigner_of_isSome hsome) hsigner hcfg hkey houtside
    htotal
  refine ⟨L', ?_, by rw [hlamports, paid.credited]⟩
  rw [processInstruction_serialize]
  exact hcancel

theorem canAcceptOffer (clean : Clean S L) : CanAcceptOffer S L h buyer o.terms.price := by
  rintro accounts name hname hlisting hstored houtside ⟨hsome, hkeys⟩
  obtain ⟨n, hn, rfl⟩ := agrees.name_of_stored hname hstored
  obtain ⟨signer, _, rfl, hsigner, hkeys⟩ := exists_of_prefix_map hkeys
  obtain ⟨payer, _, rfl, hpayer, hkeys⟩ := exists_of_prefix_map hkeys
  obtain ⟨cfg, _, rfl, hcfg, hkeys⟩ := exists_of_prefix_map hkeys
  obtain ⟨account, _, rfl, haccount, hkeys⟩ := exists_of_prefix_map hkeys
  obtain ⟨site, _, rfl, hkey, hkeys⟩ := exists_of_prefix_map hkeys
  obtain ⟨listing, rest, rfl, hlistingKey, -⟩ := exists_of_prefix_map hkeys
  obtain ⟨L₁, L', haccept, paid, hlamports⟩ := acceptOffer_accepted agrees funded
    hopen hconfig hsite hoffer hactive hcurrency rest clean hname hlisting hn (isSigner_of_isSome hsome)
    hsigner hpayer hcfg haccount hkey hlistingKey houtside htotal
  refine ⟨L', ?_, by rw [hlamports]; exact paid.credited⟩
  rw [processInstruction_serialize]
  exact haccept

end Offers

/-- Every active offer in ARCH is covered; its buyer can cancel it and the owner
of the name accept it, for exactly its price; and each payout of it has a deposit
of its own. No configuration is ever paused. -/
theorem escrow_solvent (genesis : Genesis L₀) (untouched : Untouched S L₀)
    (run : Run (Ledger.Step S) L₀ history L) (hsigned : ∀ e ∈ history, e.SignedOutside S)
    (hconfig : .config ∈ S) :
    (∀ h buyer, .offer h buyer ∈ S → ∀ offer, L.storedOffer h buyer = some offer →
      offer.active = true → offer.currency = .arch →
      (minimumRent (L.data (Site.offer h buyer).address).length).toNat + offer.price.toNat ≤
          (L.lamports (Site.offer h buyer).address).toNat ∧
        (L.total < 2 ^ 64 →
          CanCancelOffer S L h buyer offer.price ∧ CanAcceptOffer S L h buyer offer.price)) ∧
    (∀ later a earlier h buyer, actions history = later ++ a :: earlier →
      a.settlesOffer h buyer = true →
      ∃ currency price, newest (Action.touchesOffer h buyer) earlier =
        some ⟨buyer, .makeOffer h currency price⟩) := by
  obtain ⟨R, hreached, corresponds⟩ := genesis.reached run
  have agrees := corresponds.agrees
  have funded := corresponds.funded hsigned Genesis.funded
  have clean := corresponds.clean untouched.clean
  refine ⟨fun h buyer hsite offer hstored hactive hcurrency => ?_, ?_⟩
  · obtain ⟨o, ho, rfl⟩ := agrees.offer_of_stored hsite hstored
    obtain ⟨authority, hopen⟩ := Registry.authority_of_offer hreached ho hactive
    refine ⟨?_, fun htotal => ⟨?_, ?_⟩⟩
    · rw [(agrees.holds_offer hsite ho).2]
      exact escrow_kept funded hsite ho hactive hcurrency
    · exact canCancelOffer agrees funded hopen hconfig hsite ho hactive hcurrency htotal
    · exact canAcceptOffer agrees funded hopen hconfig hsite ho hactive hcurrency htotal clean
  · intro later a earlier h buyer hactions hsettles
    obtain ⟨terms, hmade⟩ := Registry.settled_once hreached hactions hsettles
    exact ⟨terms.currency, terms.price, hmade⟩

end

open Testnet in
/-- Ben's offer of 300 can be cancelled and accepted. -/
theorem offer_pays : ∃ L : Ledger, CanCancelOffer scope L alice ben 300 ∧
    CanAcceptOffer scope L alice ben 300 := by
  obtain ⟨L, run, htotal, hsigned, hp⟩ := reached (opening ++ [offering 300])
    (fun L => decide ((L.storedOffer alice ben).map (fun o => (o.active, o.currency, o.price)) =
      some (true, .arch, 300))) (by decide +kernel) (by decide +kernel)
  obtain ⟨offer, hstored, hvalues⟩ := Option.map_eq_some_iff.mp (of_decide_eq_true hp)
  obtain ⟨hactive, hvalues⟩ := Prod.mk.inj hvalues
  obtain ⟨hcurrency, hprice⟩ := Prod.mk.inj hvalues
  obtain ⟨hsolvent, -⟩ := escrow_solvent start_genesis start_untouched run hsigned
    (by decide : .config ∈ sites)
  obtain ⟨-, hpays⟩ := hsolvent alice ben (by decide : .offer alice ben ∈ sites) offer hstored
    hactive hcurrency
  rw [hprice] at hpays
  exact ⟨L, hpays htotal⟩

end ArchNameService
