import ArchNameService.Guarantees.Stored

/-!
# Who may take a name, and what is permanent

Every change of owner is a signed transfer of an unlisted name, a purchase of
what the owner listed in this tenure, or the acceptance of an offer that its
buyer made and did not withdraw.
-/

namespace ArchNameService
open Deployment History

theorem lt_saturatingAdd_one {a : UInt64} (h : a.toNat < 2 ^ 64 - 1) : a < saturatingAdd a 1 := by
  rw [UInt64.lt_iff_toNat_lt, toNat_saturatingAdd_one]
  omega

section
variable [Deployment] {S : Scope} {L L' L₀ : Ledger} {history : List Event} {c : Call}

/-- One accepted call, seen from the registry that the ledger agrees with. -/
theorem Genesis.call (genesis : Genesis L₀) (run : Run (Ledger.Step S) L₀ history L)
    (step : Ledger.Step S L (.accepted c) L') :
    ∃ R R', Registry.Reached True (actions history) R ∧ Agrees S L R.content ∧
      Agrees S L' R'.content ∧
      ((∃ a, c.action? = some a ∧ a.sites.Forall (· ∈ S) ∧ R.Step True a R') ∨
        c.action? = none ∧ R' = R) := by
  obtain ⟨R, hreached, corresponds⟩ := genesis.reached run
  obtain ⟨a, R', haction, hstep, hcorresponds⟩ | ⟨haction, hcorresponds⟩ :=
    step.corresponds corresponds (.inr trivial)
  · cases step with
    | accepted _ hsites =>
        exact ⟨R, R', hreached, corresponds.agrees, hcorresponds.agrees,
          .inl ⟨a, haction, hsites a haction, hstep⟩⟩
  · exact ⟨R, R, hreached, corresponds.agrees, hcorresponds.agrees, .inr ⟨haction, rfl⟩⟩

/-- Why an accepted call may hand a name from `owner` to `newOwner`. -/
inductive Authorized (L : Ledger) (history : List Event) (h : Bytes 32)
    (owner newOwner : ArchAddress) : Action → Prop
  | transferred (hunlisted : ∀ listing, L.storedListing h = some listing → listing.active = false) :
      Authorized L history h owner newOwner ⟨owner, .transfer h newOwner⟩
  | bought {listing : ListingAccount} (hlisting : L.storedListing h = some listing)
      (hactive : listing.active = true)
      (hlisted : newest (Action.touchesListing h) (actions history) =
        some ⟨owner, .listName h listing.currency listing.price⟩)
      (htenure : ∀ a ∈ since (Action.touchesListing h) (actions history), a.moves h = false) :
      Authorized L history h owner newOwner ⟨newOwner, .buyName h⟩
  | accepted {offer : OfferAccount} (hoffer : L.storedOffer h newOwner = some offer)
      (hactive : offer.active = true)
      (hmade : newest (Action.touchesOffer h newOwner) (actions history) =
        some ⟨newOwner, .makeOffer h offer.currency offer.price⟩) :
      Authorized L history h owner newOwner ⟨owner, .acceptOffer h newOwner⟩

/-- The owner of a registered name changes only with authority, and the change
advances its epoch and its nonce. -/
theorem owner_change_authorized (genesis : Genesis L₀) (run : Run (Ledger.Step S) L₀ history L)
    (step : Ledger.Step S L (.accepted c) L') {h : Bytes 32} (hsite : .name h ∈ S)
    {name : NameAccount} (hname : L.storedName h = some name) :
    ∃ name', L'.storedName h = some name' ∧
      (name'.owner ≠ name.owner →
        (∃ a, c.action? = some a ∧ Authorized L history h name.owner name'.owner a) ∧
        (name.recordEpoch.toNat < 2 ^ 64 - 1 → name.recordEpoch < name'.recordEpoch) ∧
        (name.primaryBindingNonce.toNat < 2 ^ 64 - 1 →
          name.primaryBindingNonce < name'.primaryBindingNonce)) := by
  obtain ⟨R, R', hreached, agrees, agrees', hcall⟩ := genesis.call run step
  obtain ⟨n, hn, rfl⟩ := agrees.name_of_stored hsite hname
  obtain ⟨a, haction, hsites, hstep⟩ | ⟨-, rfl⟩ := hcall
  · obtain ⟨n', hn', -⟩ := Registry.name_kept (Run.single hstep) hn
    refine ⟨n'.account h, by rw [agrees'.storedName hsite, hn']; rfl, fun hne => ?_⟩
    obtain ⟨hmoved, hcases⟩ := hstep.owner_change hn hn' hne
    refine ⟨⟨a, haction, ?_⟩, ?_, ?_⟩
    · obtain ⟨rfl, hunlisted⟩ | ⟨rfl, l, hl, hactive, hseller⟩ | ⟨rfl, o, ho, hactive⟩ := hcases
      · obtain ⟨-, -, hlisting⟩ := hsites
        refine .transferred fun listing hstored => ?_
        obtain ⟨l, hl, rfl⟩ := agrees.listing_of_stored hlisting hstored
        simp only [Registry.listed, hl, Option.any_some] at hunlisted
        exact hunlisted
      · obtain ⟨-, -, hlisting⟩ := hsites
        have trace := Registry.listing_trace hreached hl hactive
        have hwritten := trace.written
        rw [hseller] at hwritten
        have hstored : L.storedListing h = some (l.account h) := by
          rw [agrees.storedListing hlisting, hl]
          rfl
        exact .bought hstored hactive hwritten trace.still
      · obtain ⟨-, -, -, hoffer⟩ := hsites
        have hstored : L.storedOffer h n'.owner = some (o.account h n'.owner) := by
          rw [agrees.storedOffer hoffer, ho]
          rfl
        exact .accepted hstored hactive (Registry.offer_trace hreached ho hactive)
    · rw [hmoved]
      exact lt_saturatingAdd_one
    · rw [hmoved]
      exact lt_saturatingAdd_one
  · exact ⟨n.account h, by rw [agrees'.storedName hsite, hn]; rfl, fun hne => absurd rfl hne⟩

end

open Testnet in
/-- Ann lists `alice.arch`, and Ben buys it. -/
theorem sale_authorized : ∃ L history a, Authorized L history alice ann ben a := by
  let sold : Ledger → Bool := fun L => decide ((L.storedName alice).map (·.owner) = some ben)
  let offered : Ledger → Bool := fun L => decide ((L.storedName alice).map (·.owner) = some ann) &&
    (processInstruction L (purchase []).accounts (purchase []).data).toOption.any sold
  obtain ⟨L, run, -, -, hoffered⟩ :=
    reached (opening ++ [listing .arch 500]) offered (by decide +kernel) (by decide +kernel)
  obtain ⟨hann, hsale⟩ := Bool.and_eq_true_iff.mp hoffered
  obtain ⟨L', step, hben⟩ := stepped (purchase []) hsale (by decide +kernel)
  obtain ⟨name, hname, howner⟩ := Option.map_eq_some_iff.mp (of_decide_eq_true hann)
  obtain ⟨renamed, hrenamed, howner'⟩ := Option.map_eq_some_iff.mp (of_decide_eq_true hben)
  obtain ⟨name', hname', hchange⟩ :=
    owner_change_authorized start_genesis run step (by decide : .name alice ∈ sites) hname
  cases hname'.symm.trans hrenamed
  rw [howner, howner'] at hchange
  obtain ⟨⟨a, -, hauthorized⟩, -⟩ := hchange (by decide)
  exact ⟨L, _, a, hauthorized⟩

end ArchNameService
