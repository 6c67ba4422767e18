import ArchNameService.Guarantees.Permanence
import ArchNameService.Refinement.Settlement

/-!
# Sales in aBTC

A sale in aBTC moves the price between two token accounts of the caller's choice.
The program checks which mint account it is given, but neither the mint of the
two accounts nor who owns the second one.
-/

namespace ArchNameService
open Deployment History

/-- What a token account is worth to an owner in aBTC. -/
def abtcWorth (owner : ArchAddress) : Option TokenAccount → Nat
  | some t => if t.mint = testnetAbtcMint ∧ t.owner = owner then t.amount.toNat else 0
  | none => 0

/-- The aBTC in the token accounts of an owner. -/
def Ledger.abtc (L : Ledger) (owner : ArchAddress) : Nat := Balance.sum (abtcWorth owner) L.tokens

/-- Of the two token accounts that lead the trailing ones, the first holds aBTC
and the second is the seller's. -/
def PaysAbtc (L : Ledger) (trailing : List AccountInfo) (seller : ArchAddress) : Prop :=
  ∃ debit credit rest s d, trailing = debit :: credit :: rest ∧
    L.tokens debit.key = some s ∧ L.tokens credit.key = some d ∧
    s.mint = testnetAbtcMint ∧ d.owner = seller

namespace TokensMoved

variable {source destination authority : ArchAddress} {amount : UInt64} {s d : TokenAccount}
  {L L' : Ledger}

/-- Either account counts for an owner when it is of the mint and the owner's. -/
theorem abtc (moved : TokensMoved source destination authority amount s d L L')
    (owner : ArchAddress) :
    L'.abtc owner + (if s.mint = testnetAbtcMint ∧ s.owner = owner then amount.toNat else 0) =
      L.abtc owner + (if d.mint = testnetAbtcMint ∧ d.owner = owner then amount.toNat else 0) := by
  have hresult := moved.result
  split at hresult
  · rename_i hself
    have hsame : s = d := by
      have hcreditor := moved.creditor
      rw [← hself, moved.debtor, Option.some.injEq] at hcreditor
      exact hcreditor
    rw [hsame, Ledger.abtc, hresult, Ledger.abtc]
  · rename_i hne
    obtain ⟨hfits, htokens⟩ := hresult
    have hdebit := Balance.sum_update (abtcWorth owner) L.tokens source
      (some { s with amount := s.amount - amount })
    have hcredit := Balance.sum_update (abtcWorth owner)
      (Function.update L.tokens source (some { s with amount := s.amount - amount })) destination
      (some { d with amount := d.amount + amount })
    rw [Function.update_of_ne (Ne.symm hne), moved.creditor] at hcredit
    rw [moved.debtor] at hdebit
    have hcovered := UInt64.le_iff_toNat_le.mp moved.covered
    simp only [abtcWorth, toNat_sub_of_le moved.covered] at hdebit
    simp only [abtcWorth, toNat_add_of_lt hfits] at hcredit
    rw [← htokens] at hcredit
    simp only [Ledger.abtc]
    by_cases hs : s.mint = testnetAbtcMint ∧ s.owner = owner <;>
      by_cases hd : d.mint = testnetAbtcMint ∧ d.owner = owner <;>
      simp only [hs, hd, and_self, if_true, if_false] at hdebit hcredit ⊢ <;> omega

/-- Tokens that leave and reach accounts of others. -/
theorem abtc_of_others (moved : TokensMoved source destination authority amount s d L L')
    {owner : ArchAddress} (hdebtor : s.owner ≠ owner) (hcreditor : d.owner ≠ owner) : L'.abtc owner = L.abtc owner := by
  have hmoved := moved.abtc owner
  rw [if_neg fun h => hdebtor h.2, if_neg fun h => hcreditor h.2] at hmoved
  exact Nat.add_right_cancel hmoved

/-- The seller is paid by the buyer exactly when the tokens are aBTC and go to an
account of the seller, who is not the buyer. -/
theorem paid_iff (moved : TokensMoved source destination authority amount s d L L')
    (hamount : amount ≠ 0) {seller : ArchAddress} :
    (L'.abtc seller = L.abtc seller + amount.toNat ∧
        L'.abtc authority + amount.toNat = L.abtc authority) ↔
      s.mint = testnetAbtcMint ∧ d.owner = seller ∧ seller ≠ authority := by
  have hpositive : 0 < amount.toNat :=
    Nat.pos_of_ne_zero fun h => hamount (UInt64.toNat_inj.mp (h.trans UInt64.toNat_zero.symm))
  have hseller := moved.abtc seller
  have hbuyer := moved.abtc authority
  rw [← moved.mint, moved.owner] at hseller hbuyer
  constructor
  · rintro ⟨hcredited, hdebited⟩
    by_cases hne : seller = authority
    · subst hne
      omega
    · rw [if_neg fun h => hne h.2.symm] at hseller
      by_cases hcounted : s.mint = testnetAbtcMint ∧ d.owner = seller
      · exact ⟨hcounted.1, hcounted.2, hne⟩
      · rw [if_neg hcounted] at hseller
        omega
  · rintro ⟨hmint, howner, hne⟩
    have hdebtor : ¬ (s.mint = testnetAbtcMint ∧ authority = seller) := fun h => hne h.2.symm
    have hcreditor : ¬ (s.mint = testnetAbtcMint ∧ d.owner = authority) :=
      fun h => hne (howner.symm.trans h.2)
    have hpaid : s.mint = testnetAbtcMint ∧ d.owner = seller := ⟨hmint, howner⟩
    have hpaying : s.mint = testnetAbtcMint ∧ authority = authority := ⟨hmint, rfl⟩
    rw [if_neg hdebtor, if_pos hpaid] at hseller
    rw [if_pos hpaying, if_neg hcreditor] at hbuyer
    omega

end TokensMoved

/-- The two token accounts of a payment decide whether the seller gets it. -/
theorem Payment.abtc_iff {source payee buyer seller : ArchAddress} {trailing : List AccountInfo}
    {terms : Terms} {L L₁ : Ledger} (payment : Payment source payee buyer trailing terms L L₁)
    (hcurrency : terms.currency = .btc) :
    (L₁.abtc seller = L.abtc seller + terms.price.toNat ∧
        L₁.abtc buyer + terms.price.toNat = L.abtc buyer) ↔
      PaysAbtc L trailing seller ∧ seller ≠ buyer := by
  cases payment with
  | arch harch => exact nomatch harch.symm.trans hcurrency
  | @btc debit credit rest s d _ htrailing moved =>
      rw [moved.paid_iff terms.positive]
      constructor
      · rintro ⟨hmint, howner, hne⟩
        exact ⟨⟨debit, credit, rest, s, d, htrailing, moved.debtor, moved.creditor, hmint, howner⟩, hne⟩
      · rintro ⟨⟨_, _, _, s', d', hshape, hdebtor, hcreditor, hmint, howner⟩, hne⟩
        cases htrailing.symm.trans hshape
        cases moved.debtor.symm.trans hdebtor
        cases moved.creditor.symm.trans hcreditor
        exact ⟨hmint, howner, hne⟩

section
variable [Deployment] {S : Scope} {L L' L₀ : Ledger} {history : List Event} {c : Call}
  {h : Bytes 32}

/-! ## Sales -/

/-- A sale moves the price in its currency and nothing else. -/
def Settles (source payee buyer : ArchAddress) (trailing : List AccountInfo) (terms : Terms)
    (L L' : Ledger) : Prop :=
  ∃ L₁, Payment source payee buyer trailing terms L L₁ ∧ L'.tokens = L₁.tokens ∧
    ∀ k, L'.lamports k = L₁.lamports k

/-- A purchase pays the terms of the listing, and hands over the name. -/
theorem Agrees.bought {R : Registry} {buyer : ArchAddress} (agrees : Agrees S L R.content)
    (step : Ledger.Step S L (.accepted c) L') (haction : c.action? = some ⟨buyer, .buyName h⟩) :
    ∃ l L₁, R.listing h = some l ∧ l.seller ≠ buyer ∧ .listing h ∈ S ∧
      Payment buyer l.seller buyer (c.accounts.drop 5) l.terms L L₁ ∧ L'.tokens = L₁.tokens ∧
      (L'.storedName h).map (·.owner) = some buyer ∧
      (¬ S.Derived buyer → Funded S L R.content R.escrow → ∀ k, L'.lamports k = L₁.lamports k) := by
  obtain ⟨⟨-, hname, hlisting⟩, hscope, hsigner, hdispatch⟩ := step.dispatched haction
  obtain ⟨R', hstep, agrees'⟩ := agrees.step_of_accepted step haction
  obtain ⟨n, -, hn⟩ := hstep.bought
  obtain ⟨signer, seller, cfg, account, site, trailing, _, l, L₁, hshape, -, hl, -, hbuyer, payment,
    htokens, hlamports⟩ := buyName_settles agrees hscope hdispatch
  rw [hshape] at hsigner ⊢
  obtain rfl : signer.key = buyer := key_of_signer? hsigner
  refine ⟨l, L₁, hl, hbuyer.symm, hlisting, payment, htokens, ?_, hlamports⟩
  rw [agrees'.storedName hname, hn]
  rfl

/-- An accepted offer pays its terms, and hands over the name. -/
theorem Agrees.offerAccepted {R : Registry} {seller buyer : ArchAddress}
    (agrees : Agrees S L R.content) (step : Ledger.Step S L (.accepted c) L')
    (haction : c.action? = some ⟨seller, .acceptOffer h buyer⟩) :
    ∃ o L₁, R.offer (h, buyer) = some o ∧ o.active = true ∧ .offer h buyer ∈ S ∧
      Payment (Site.offer h buyer).address seller buyer (c.accounts.drop 6) o.terms L L₁ ∧
      L'.tokens = L₁.tokens ∧ (L'.storedName h).map (·.owner) = some buyer ∧
      (Clean S L → ¬ S.Derived seller → Funded S L R.content R.escrow →
        ∀ k, L'.lamports k = L₁.lamports k) := by
  obtain ⟨⟨-, hname, -, hoffer⟩, hscope, hsigner, hdispatch⟩ := step.dispatched haction
  obtain ⟨R', hstep, agrees'⟩ := agrees.step_of_accepted step haction
  obtain ⟨n, -, hn⟩ := hstep.accepted
  obtain ⟨signer, payer, cfg, account, offer, listing, trailing, _, o, L₁, hshape, -, ho, hactive,
    howner, payment, htokens, hlamports⟩ := acceptOffer_settles agrees hscope hdispatch
  rw [hshape] at hsigner ⊢
  obtain rfl : signer.key = seller := key_of_signer? hsigner
  rw [← howner] at payment
  refine ⟨o, L₁, ho, hactive, hoffer, payment, htokens, ?_, hlamports⟩
  rw [agrees'.storedName hname, hn]
  rfl

/-! ## Sales in aBTC -/

/-- The buyer pays the seller the price in aBTC, and has the name. -/
structure SoldForAbtc (L L' : Ledger) (h : Bytes 32) (seller buyer : ArchAddress) (price : UInt64) :
    Prop where
  credited : L'.abtc seller = L.abtc seller + price.toNat
  debited : L'.abtc buyer + price.toNat = L.abtc buyer
  owner : (L'.storedName h).map (·.owner) = some buyer

theorem Payment.soldForAbtc_iff {source payee buyer seller : ArchAddress}
    {trailing : List AccountInfo} {terms : Terms} {L₁ : Ledger}
    (payment : Payment source payee buyer trailing terms L L₁) (hcurrency : terms.currency = .btc)
    (htokens : L'.tokens = L₁.tokens) (howner : (L'.storedName h).map (·.owner) = some buyer) :
    SoldForAbtc L L' h seller buyer terms.price ↔ PaysAbtc L trailing seller ∧ seller ≠ buyer := by
  have hsame : ∀ o, L'.abtc o = L₁.abtc o := fun o => by rw [Ledger.abtc, htokens, Ledger.abtc]
  rw [← payment.abtc_iff hcurrency, ← hsame, ← hsame]
  exact ⟨fun sold => ⟨sold.credited, sold.debited⟩, fun ⟨hcredited, hdebited⟩ =>
    ⟨hcredited, hdebited, howner⟩⟩

/-- A sale in aBTC pays the recorded seller exactly when the caller names a token
account of aBTC to pay from and one of the seller to pay into, and no owner takes
an offer of their own. -/
theorem btc_sale_pays_iff (genesis : Genesis L₀) (run : Run (Ledger.Step S) L₀ history L)
    (step : Ledger.Step S L (.accepted c) L') :
    (∀ buyer listing, c.action? = some ⟨buyer, .buyName h⟩ → L.storedListing h = some listing →
      listing.currency = .btc →
      (SoldForAbtc L L' h listing.seller buyer listing.price ↔
        PaysAbtc L (c.accounts.drop 5) listing.seller)) ∧
    (∀ seller buyer offer, c.action? = some ⟨seller, .acceptOffer h buyer⟩ →
      L.storedOffer h buyer = some offer → offer.currency = .btc →
      (SoldForAbtc L L' h seller buyer offer.price ↔
        PaysAbtc L (c.accounts.drop 6) seller ∧ seller ≠ buyer)) := by
  obtain ⟨R, -, corresponds⟩ := genesis.reached run
  have agrees := corresponds.agrees
  constructor
  · intro buyer listing haction hstored hcurrency
    obtain ⟨l, L₁, hl, hne, hsite, payment, htokens, howner, -⟩ := agrees.bought step haction
    obtain ⟨_, hl', rfl⟩ := agrees.listing_of_stored hsite hstored
    cases hl.symm.trans hl'
    exact (payment.soldForAbtc_iff hcurrency htokens howner).trans (and_iff_left hne)
  · intro seller buyer offer haction hstored hcurrency
    obtain ⟨o, L₁, ho, -, hsite, payment, htokens, howner, -⟩ := agrees.offerAccepted step haction
    obtain ⟨_, ho', rfl⟩ := agrees.offer_of_stored hsite hstored
    cases ho.symm.trans ho'
    exact payment.soldForAbtc_iff hcurrency htokens howner

end

namespace Testnet

/-- Ben buys `alice` for aBTC from his purse. -/
def abtcPurchase (destination : ArchAddress) : Call :=
  purchase [benPurse, destination, testnetAbtcMint, tokenProgramIdBytes]

/-- Ann asks for 500 aBTC, which Ben can pay into an account of `owner`. -/
def asksAbtc (destination owner : ArchAddress) (L : Ledger) : Bool :=
  decide ((L.storedListing alice).map (fun l => (l.seller, l.currency, l.price, l.active)) =
      some (ann, .btc, 500, true)) &&
    (decide ((L.tokens benPurse).map (·.mint) = some testnetAbtcMint ∧
      (L.tokens destination).map (·.owner) = some owner) &&
    (processInstruction L (abtcPurchase destination).accounts
      (abtcPurchase destination).data).toOption.any fun _ => true)

theorem abtc_purchase (destination owner : ArchAddress)
    (hasked : (start.execute (opening ++ [listing .btc 500])).toOption.any
      (asksAbtc destination owner) = true)
    (hstays : (abtcPurchase destination).stays sites = true) :
    ∃ (history : List Event) (L L' : Ledger) (sold : ListingAccount) (purse credit : TokenAccount),
      Run (Ledger.Step scope) start history L ∧
        Ledger.Step scope L (.accepted (abtcPurchase destination)) L' ∧
        L.storedListing alice = some sold ∧
        (sold.seller, sold.currency, sold.price, sold.active) = (ann, .btc, 500, true) ∧
        L.tokens benPurse = some purse ∧ L.tokens destination = some credit ∧
        purse.mint = testnetAbtcMint ∧ credit.owner = owner := by
  obtain ⟨L, run, -, -, hready⟩ := reached _ _ hasked (by decide +kernel)
  obtain ⟨hlisted, hrest⟩ := Bool.and_eq_true_iff.mp hready
  obtain ⟨htokens, hsale⟩ := Bool.and_eq_true_iff.mp hrest
  obtain ⟨hpurse, hcredit⟩ := of_decide_eq_true htokens
  obtain ⟨L', step, -⟩ := stepped (abtcPurchase destination) hsale hstays
  obtain ⟨sold, hstored, hsold⟩ := Option.map_eq_some_iff.mp (of_decide_eq_true hlisted)
  obtain ⟨purse, hdebtor, hmint⟩ := Option.map_eq_some_iff.mp hpurse
  obtain ⟨credit, hcreditor, howner⟩ := Option.map_eq_some_iff.mp hcredit
  exact ⟨_, L, L', sold, purse, credit, run, step, hstored, hsold, hdebtor, hcreditor, hmint, howner⟩

end Testnet

open Testnet in
/-- Ann asks for 500 aBTC. Ben buys, and pays into her purse. -/
theorem paid_seller : ∃ L L' : Ledger, SoldForAbtc L L' alice ann ben 500 := by
  obtain ⟨history, L, L', sold, purse, credit, run, step, hstored, hsold, hdebtor, hcreditor, hmint,
    howner⟩ := abtc_purchase annPurse ann (by decide +kernel) (by decide +kernel)
  obtain ⟨hseller, hterms⟩ := Prod.mk.inj hsold
  obtain ⟨hcurrency, hrest⟩ := Prod.mk.inj hterms
  obtain ⟨hprice, -⟩ := Prod.mk.inj hrest
  have hsold := (btc_sale_pays_iff start_genesis run step).1 ben sold
    (call_action ..) hstored hcurrency
  rw [hseller, hprice] at hsold
  exact ⟨L, L', hsold.mpr ⟨_, _, _, purse, credit, rfl, hdebtor, hcreditor, hmint, howner⟩⟩

open Testnet in
/-- Ben buys from Ann for 500, and moves the price from his purse to his savings. -/
theorem unpaid_seller : ∃ (history : List Event) (L L' : Ledger) (c : Call) (sold : ListingAccount),
    Run (Ledger.Step scope) start history L ∧ Ledger.Step scope L (.accepted c) L' ∧
      c.action? = some ⟨ben, .buyName alice⟩ ∧ L.storedListing alice = some sold ∧
      sold.active = true ∧ sold.currency = .btc ∧ sold.price = 500 ∧
      L'.abtc sold.seller = L.abtc sold.seller ∧
      (L'.storedName alice).map (·.owner) = some ben := by
  obtain ⟨history, L, L', sold, purse, savings, run, step, hstored, hsold, -, htoken, -, hben⟩ :=
    abtc_purchase benSavings ben (by decide +kernel) (by decide +kernel)
  obtain ⟨R, -, corresponds⟩ := start_genesis.reached run
  obtain ⟨l, L₁, hl, hne, hsite, payment, htokens, howner, -⟩ :=
    corresponds.agrees.bought step (call_action ..)
  obtain ⟨_, hl', rfl⟩ := corresponds.agrees.listing_of_stored hsite hstored
  cases hl.symm.trans hl'
  obtain ⟨hseller, hterms⟩ := Prod.mk.inj hsold
  obtain ⟨hcurrency, hrest⟩ := Prod.mk.inj hterms
  obtain ⟨hprice, hactive⟩ := Prod.mk.inj hrest
  refine ⟨_, L, L', _, _, run, step, call_action .., hstored, hactive, hcurrency, hprice, ?_,
    howner⟩
  cases payment with
  | arch harch => exact nomatch harch.symm.trans hcurrency
  | @btc debit credit _ s d _ htrailing moved =>
      obtain ⟨-, hrest⟩ := List.cons.inj htrailing
      obtain ⟨rfl, -⟩ := List.cons.inj hrest
      cases htoken.symm.trans moved.creditor
      rw [Ledger.abtc, htokens]
      refine moved.abtc_of_others ?_ ?_
      · rw [moved.owner]
        exact hne.symm
      · rw [hben]
        exact hne.symm

end ArchNameService
