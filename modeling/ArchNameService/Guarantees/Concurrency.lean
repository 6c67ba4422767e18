import ArchNameService.Guarantees.Payment

/-!
# Acting on what was observed

Between an observation and the execution of the instruction it led to, other
instructions may run. The expected revision of a record write, and the parties
to a marketplace instruction, are all that ties the two together.
-/

namespace ArchNameService
open Deployment History

/-! ## Compare-and-swap on records -/

/-- The revision the action expects of a record it writes. -/
def Action.expectedRevision (h : Bytes 32) (slot : RecordSlot) (a : Action) : Option UInt64 :=
  match a.instruction with
  | .setRecord n recordType value expected =>
      if n = h ∧ slotOfValue recordType value = slot then some expected else none
  | .deleteRecord n recordType textKey expected =>
      if n = h ∧ RecordSlot.of recordType textKey.bytes = slot then some expected else none
  | _ => none

section
variable [Deployment] {S : Scope} {L L₀ L₁ L₂ : Ledger} {history later : List Event} {c : Call}
  {a : Action} {h : Bytes 32} {slot : RecordSlot}

namespace Registry

variable {decoys : Prop} {R R' R₁ R₂ : Registry} {actions : List Action}

/-- A write finds the revision it expects. -/
theorem Step.expected_revision {expected : UInt64} (step : Step decoys R a R')
    (hexpects : a.expectedRevision h slot = some expected) : R.revision h slot = expected := by
  cases step with
  | @setRecord n value _ authority m hopen hname hvalue hrevision =>
      simp only [Action.expectedRevision, Action.slotOfValue_recordType,
        Option.ite_none_right_eq_some, Option.some.injEq] at hexpects
      obtain ⟨⟨rfl, rfl⟩, rfl⟩ := hexpects
      exact hrevision
  | @deleteRecord n recordType textKey m p hname hrecord =>
      simp only [Action.expectedRevision, Option.ite_none_right_eq_some,
        Option.some.injEq] at hexpects
      obtain ⟨⟨rfl, rfl⟩, rfl⟩ := hexpects
      simp only [revision, hrecord]
  | _ => cases hexpects

/-- Where nothing was deleted, a revision that did not advance means that nothing
was written. -/
theorem unwritten_of_revision (run : Run (Step decoys) R₁ actions R₂)
    (hbelow : R₁.revision h slot < Transition.permanentExpiry)
    (hkept : ∀ b ∈ actions, b.deletesRecord h slot = false)
    (hrevision : R₂.revision h slot = R₁.revision h slot) :
    ∀ b ∈ actions, b.writesRecord h slot = false := by
  have hcount := revision_counts run hkept
  have hlt : (R₁.revision h slot).toNat < 2 ^ 64 - 1 := UInt64.lt_iff_toNat_lt.mp hbelow
  rw [hrevision] at hcount
  have hzero : actions.countP (Action.writesRecord h slot) = 0 := by omega
  simpa only [List.countP_eq_zero, Bool.not_eq_true] using hzero

theorem Run.record_kept (run : Run (Step decoys) R₁ actions R₂)
    (hunwritten : ∀ b ∈ actions, b.writesRecord h slot = false) :
    R₂.record (h, slot) = R₁.record (h, slot) :=
  run.frame (f := fun R => R.record (h, slot)) (p := Action.writesRecord h slot)
    (fun step => step.record_kept) hunwritten

end Registry

/-- A write that expects the revision a client observed finds the record as it was
observed, unwritten in between, exactly when the record was not deleted in between. -/
theorem compare_and_swap_iff (genesis : Genesis L₀) (run : Run (Ledger.Step S) L₀ history L)
    (rest : Run (Ledger.Step S) L later L₁) (step : Ledger.Step S L₁ (.accepted c) L₂)
    (hsite : .record h slot ∈ S) {record : RecordAccount}
    (hobserved : L.storedRecord h slot = some record)
    (hbelow : record.revision < Transition.permanentExpiry) (haction : c.action? = some a)
    (hexpects : a.expectedRevision h slot = some record.revision) :
    (L₁.storedRecord h slot = some record ∧
        ∀ b ∈ actions later, b.writesRecord h slot = false) ↔
      ∀ b ∈ actions later, b.deletesRecord h slot = false := by
  obtain ⟨R, R₁, hreached, agrees, hrest, agrees₁⟩ := genesis.resumed run rest
  obtain ⟨p, hp, rfl⟩ := agrees.record_of_stored hsite hobserved
  constructor
  · rintro ⟨-, hunwritten⟩ b hb
    exact Action.deletesRecord_eq_false (hunwritten b hb)
  · intro hkept
    have hloaded : R.revision h slot = p.revision := by simp only [Registry.revision, hp]
    have hcurrent : R₁.revision h slot = p.revision := by
      obtain ⟨R₂, hstep, -⟩ := agrees₁.step_of_accepted step haction
      exact hstep.expected_revision hexpects
    rw [← hloaded] at hcurrent
    have hunwritten := Registry.unwritten_of_revision hrest (hloaded ▸ hbelow) hkept hcurrent
    refine ⟨?_, hunwritten⟩
    rw [agrees₁.storedRecord hsite, Registry.Run.record_kept hrest hunwritten, hp]
    rfl

end

open Testnet in
/-- Ann's second publication finds the first. -/
theorem publication_kept : ∃ (later : List Event) (L L₁ L₂ : Ledger) (record : RecordAccount),
    Run (Ledger.Step scope) L later L₁ ∧
      Ledger.Step scope L₁ (.accepted (publication newUrl 1)) L₂ ∧
      L.storedRecord alice urlSlot = some record ∧ L₁.storedRecord alice urlSlot = some record := by
  obtain ⟨L, L₁, L₂, run, rest, step, hp, -, -⟩ := interleaved (opening ++ [publication oldUrl 0])
    [listing .arch 500] (publication newUrl 1)
    (fun L => decide ((L.storedRecord alice urlSlot).map (·.revision) = some 1)) (fun _ => true)
    (fun _ _ => true) (by decide +kernel) (by decide +kernel)
  obtain ⟨record, hrecord, hrevision⟩ := Option.map_eq_some_iff.mp (of_decide_eq_true hp)
  have hkept := compare_and_swap_iff start_genesis run rest step (by decide : .record alice urlSlot ∈ sites) hrecord
    (by rw [hrevision]; decide) (call_action ..) (by rw [hrevision]; decide)
  exact ⟨_, L, L₁, L₂, record, rest, step, hrecord, (hkept.mpr (by decide +kernel)).1⟩

open Testnet in
/-- Ann publishes, deletes and publishes anew. A write that was prepared against
her first record is accepted and replaces the second, which it never saw. -/
theorem overwrites_unseen_record :
    ∃ (history later : List Event) (L L₁ L₂ : Ledger) (c : Call) (a : Action)
      (record record₁ : RecordAccount),
      Run (Ledger.Step scope) start history L ∧ Run (Ledger.Step scope) L later L₁ ∧
        Ledger.Step scope L₁ (.accepted c) L₂ ∧ L.storedRecord alice urlSlot = some record ∧
        record.revision < Transition.permanentExpiry ∧ c.action? = some a ∧
        a.expectedRevision alice urlSlot = some record.revision ∧
        L₁.storedRecord alice urlSlot = some record₁ ∧ record₁.value ≠ record.value := by
  let publishes (value : RecordValue) : Ledger → Bool := fun L =>
    decide ((L.storedRecord alice urlSlot).map (fun r => (r.value, r.revision)) = some (value, 1))
  obtain ⟨L, L₁, L₂, run, rest, step, hp, hq, -⟩ := interleaved (opening ++ [publication oldUrl 0])
    [deletion 1, publication newUrl 0] (publication oldUrl 1) (publishes oldUrl) (publishes newUrl)
    (fun _ _ => true) (by decide +kernel) (by decide +kernel)
  obtain ⟨record, hrecord, hold⟩ := Option.map_eq_some_iff.mp (of_decide_eq_true hp)
  obtain ⟨record₁, hrecord₁, hnew⟩ := Option.map_eq_some_iff.mp (of_decide_eq_true hq)
  obtain ⟨hold, hrevision⟩ := Prod.mk.inj hold
  obtain ⟨hnew, -⟩ := Prod.mk.inj hnew
  refine ⟨_, _, L, L₁, L₂, _, _, record, record₁, run, rest, step, hrecord, ?_, call_action .., ?_,
    hrecord₁, ?_⟩
  · rw [hrevision]
    decide
  · rw [hrevision]
    decide
  · rw [hold, hnew]
    decide

/-! ## Settling at the observed terms -/

section
variable [Deployment] {S : Scope} {L L₀ L₁ L₂ : Ledger} {history later : List Event} {c : Call}
  {h : Bytes 32}

/-- The sale settles in this currency at this price. Lamports go from `source` to the payee;
aBTC goes from the buyer to the payee where the caller names a token account of aBTC to pay
from and one of the payee to pay into. -/
structure SettlesAt (source payee buyer : ArchAddress) (trailing : List AccountInfo)
    (currency : QuoteCurrency) (price : UInt64) (L L' : Ledger) : Prop where
  settles : ∃ terms : Terms, terms.currency = currency ∧ terms.price = price ∧
    Settles source payee buyer trailing terms L L'
  arch : currency = .arch →
    (L'.lamports source).toNat = (L.lamports source).toNat - price.toNat ∧
      (L'.lamports payee).toNat = (L.lamports payee).toNat + price.toNat
  abtc : currency = .btc → PaysAbtc L trailing payee → payee ≠ buyer →
    L'.abtc payee = L.abtc payee + price.toNat ∧ L'.abtc buyer + price.toNat = L.abtc buyer

omit [Deployment] in
theorem Settles.settlesAt {source payee buyer : ArchAddress} {trailing : List AccountInfo}
    {terms : Terms} {L L' : Ledger} (settles : Settles source payee buyer trailing terms L L') :
    SettlesAt source payee buyer trailing terms.currency terms.price L L' where
  settles := ⟨terms, rfl, rfl, settles⟩
  arch hcurrency := by
    obtain ⟨L₁, payment, -, hlamports⟩ := settles
    cases payment with
    | arch _ paid =>
        rw [hlamports, hlamports]
        exact ⟨paid.debited, paid.credited⟩
    | btc hbtc => exact absurd (hcurrency.symm.trans hbtc) nofun
  abtc hcurrency hpays hne := by
    obtain ⟨L₁, payment, htokens, -⟩ := settles
    have hsame : ∀ o, L'.abtc o = L₁.abtc o := fun o => by rw [Ledger.abtc, htokens, Ledger.abtc]
    rw [hsame, hsame]
    exact (payment.abtc_iff hcurrency).mpr ⟨hpays, hne⟩

/-- An accepted offer and a purchase settle at the terms that are stored when they
execute: those that were observed, unless the offer was settled, or the listing
ended, in between. -/
theorem settles_at_stored_terms (genesis : Genesis L₀) (untouched : Untouched S L₀)
    (run : Run (Ledger.Step S) L₀ history L) (rest : Run (Ledger.Step S) L later L₁)
    (step : Ledger.Step S L₁ (.accepted c) L₂)
    (hsigned : ∀ e ∈ .accepted c :: (later ++ history), e.SignedOutside S) :
    (∀ seller buyer offer, c.action? = some ⟨seller, .acceptOffer h buyer⟩ →
      L.storedOffer h buyer = some offer → offer.active = true →
      ∃ current, L₁.storedOffer h buyer = some current ∧
        SettlesAt (Site.offer h buyer).address seller buyer (c.accounts.drop 6) current.currency
          current.price L₁ L₂ ∧
        ((∀ b ∈ actions later, b.settlesOffer h buyer = false) → current = offer)) ∧
    (∀ buyer listing, c.action? = some ⟨buyer, .buyName h⟩ →
      L.storedListing h = some listing → listing.active = true →
      ∃ current, L₁.storedListing h = some current ∧
        SettlesAt buyer current.seller buyer (c.accounts.drop 5) current.currency current.price
          L₁ L₂ ∧
        ((∀ b ∈ actions later, b.endsListing h = false) → current = listing)) := by
  obtain ⟨R, -, corresponds⟩ := genesis.reached run
  obtain ⟨R₁, hrest, corresponds₁⟩ := corresponds.agrees.run rest
  obtain ⟨hc, hrun⟩ := List.forall_mem_cons.mp hsigned
  obtain ⟨hlater, hhistory⟩ := List.forall_mem_append.mp hrun
  have agrees := corresponds.agrees
  have agrees₁ := corresponds₁.agrees
  have clean := corresponds₁.clean (corresponds.clean untouched.clean)
  have funded := corresponds₁.funded hlater (corresponds.funded hhistory Genesis.funded)
  have houtside : ∀ {a : Action}, c.action? = some a → ¬ S.Derived a.signer := by
    intro a haction
    obtain ⟨info, hinfo, hsigner, hkey⟩ := Call.signer_of_action haction
    rw [← hkey]
    exact hc info hinfo hsigner
  constructor
  · intro seller buyer offer haction hstored hactive
    obtain ⟨o₁, L', ho₁, -, hsite, payment, htokens, -, hlamports⟩ :=
      agrees₁.offerAccepted step haction
    obtain ⟨o, ho, rfl⟩ := agrees.offer_of_stored hsite hstored
    have settles : Settles _ seller buyer (c.accounts.drop 6) o₁.terms L₁ L₂ :=
      ⟨L', payment, htokens, hlamports clean (houtside haction) funded⟩
    refine ⟨o₁.account h buyer, ?_, settles.settlesAt, fun hstays => ?_⟩
    · rw [agrees₁.storedOffer hsite, ho₁]
      rfl
    · have hkept := Registry.offer_stays hrest ho hactive hstays
      rw [Option.some.inj (ho₁.symm.trans hkept)]
  · intro buyer listing haction hstored hactive
    obtain ⟨l₁, L', hl₁, -, hsite, payment, htokens, -, hlamports⟩ := agrees₁.bought step haction
    obtain ⟨l, hl, rfl⟩ := agrees.listing_of_stored hsite hstored
    have settles : Settles buyer l₁.seller buyer (c.accounts.drop 5) l₁.terms L₁ L₂ :=
      ⟨L', payment, htokens, hlamports (houtside haction) funded⟩
    refine ⟨l₁.account h, ?_, settles.settlesAt, fun hstays => ?_⟩
    · rw [agrees₁.storedListing hsite, hl₁]
      rfl
    · have hkept := Registry.listing_stays hrest hl hactive hstays
      rw [Option.some.inj (hl₁.symm.trans hkept)]

end

open Testnet in
/-- Ben offers 300, Ann lists the name, and accepts: she gets what Ben offered. -/
theorem observed_offer_settles : ∃ (L L₁ L₂ : Ledger) (c : Call) (offer : OfferAccount),
    L.storedOffer alice ben = some offer ∧
      SettlesAt offerKey ann ben (c.accounts.drop 6) offer.currency offer.price L₁ L₂ := by
  obtain ⟨L, L₁, L₂, run, rest, step, hp, -, -⟩ := interleaved (opening ++ [offering 300])
    [listing .arch 500] acceptance
    (fun L => decide ((L.storedOffer alice ben).map (·.active) = some true)) (fun _ => true)
    (fun _ _ => true) (by decide +kernel) (by decide +kernel)
  obtain ⟨offer, hstored, hactive⟩ := Option.map_eq_some_iff.mp (of_decide_eq_true hp)
  have hsigned : ∀ e ∈ (opening ++ [offering 300, listing .arch 500, acceptance]).reverse.map
      Event.accepted, e.SignedOutside scope :=
    signedOutside_of_stays (fun _ hs => hs) (by decide +kernel)
  obtain ⟨current, hcurrent, settles, hkept⟩ := (settles_at_stored_terms start_genesis start_untouched
    run rest step hsigned).1 ann ben offer (call_action ..) hstored hactive
  rw [hkept (by decide +kernel)] at settles
  exact ⟨L, L₁, L₂, _, offer, hstored, settles⟩

open Testnet in
/-- Ann accepts an offer of 300 that Ben has replaced by one of 1, and Ben buys at
500 what Ann has listed anew at 900. -/
theorem settles_at_replaced_terms :
    (∃ (history later : List Event) (L L₁ L₂ : Ledger) (c : Call) (offer : OfferAccount),
      Run (Ledger.Step scope) start history L ∧ Run (Ledger.Step scope) L later L₁ ∧
        Ledger.Step scope L₁ (.accepted c) L₂ ∧ c.action? = some ⟨ann, .acceptOffer alice ben⟩ ∧
        L.storedOffer alice ben = some offer ∧ offer.active = true ∧ offer.currency = .arch ∧
        offer.price = 300 ∧ L₂.lamports ann = L₁.lamports ann + 1) ∧
    (∃ (history later : List Event) (L L₁ L₂ : Ledger) (c : Call) (sold : ListingAccount),
      Run (Ledger.Step scope) start history L ∧ Run (Ledger.Step scope) L later L₁ ∧
        Ledger.Step scope L₁ (.accepted c) L₂ ∧ c.action? = some ⟨ben, .buyName alice⟩ ∧
        L.storedListing alice = some sold ∧ sold.active = true ∧ sold.currency = .arch ∧
        sold.price = 500 ∧ L₁.lamports ben = L₂.lamports ben + 900) := by
  constructor
  · obtain ⟨L, L₁, L₂, run, rest, step, hp, -, hpaid⟩ := interleaved (opening ++ [offering 300])
      [withdrawal, offering 1] acceptance
      (fun L => decide ((L.storedOffer alice ben).map (fun o => (o.active, o.currency, o.price)) =
        some (true, .arch, 300))) (fun _ => true)
      (fun L₁ L₂ => decide (L₂.lamports ann = L₁.lamports ann + 1))
      (by decide +kernel) (by decide +kernel)
    obtain ⟨offer, hstored, hterms⟩ := Option.map_eq_some_iff.mp (of_decide_eq_true hp)
    obtain ⟨hactive, hterms⟩ := Prod.mk.inj hterms
    obtain ⟨hcurrency, hprice⟩ := Prod.mk.inj hterms
    exact ⟨_, _, L, L₁, L₂, _, offer, run, rest, step, call_action .., hstored, hactive, hcurrency,
      hprice, of_decide_eq_true hpaid⟩
  · obtain ⟨L, L₁, L₂, run, rest, step, hp, -, hpaid⟩ := interleaved (opening ++ [listing .arch 500])
      [unlisting, listing .arch 900] (purchase [])
      (fun L => decide ((L.storedListing alice).map (fun l => (l.active, l.currency, l.price)) =
        some (true, .arch, 500))) (fun _ => true)
      (fun L₁ L₂ => decide (L₁.lamports ben = L₂.lamports ben + 900))
      (by decide +kernel) (by decide +kernel)
    obtain ⟨sold, hstored, hterms⟩ := Option.map_eq_some_iff.mp (of_decide_eq_true hp)
    obtain ⟨hactive, hterms⟩ := Prod.mk.inj hterms
    obtain ⟨hcurrency, hprice⟩ := Prod.mk.inj hterms
    exact ⟨_, _, L, L₁, L₂, _, sold, run, rest, step, call_action .., hstored, hactive, hcurrency,
      hprice, of_decide_eq_true hpaid⟩

end ArchNameService
