import ArchNameService.Lib.History
import ArchNameService.Model.Registry

/-!
# What one step can change

One lemma for each component of the registry: which actions leave an entry as it
is, and what the others make of it.
-/

namespace ArchNameService

namespace Action

/-- The nonce of the name advances. -/
def bumps (h : Bytes 32) (a : Action) : Bool :=
  match a.instruction with
  | .setPrimary n => n = h
  | _ => a.moves h

def registers [Crypto] (h : Bytes 32) (a : Action) : Bool :=
  match a.instruction with
  | .register label _ => labelHash label.bytes = h
  | _ => false

theorem bumps_of_moves {h : Bytes 32} {a : Action} (hmoves : a.moves h = true) :
    a.bumps h = true := by
  obtain ⟨signer, instruction⟩ := a
  cases instruction with
  | setPrimary => exact nomatch hmoves
  | _ => exact hmoves

theorem deletesRecord_eq_false {h : Bytes 32} {slot : RecordSlot} {a : Action}
    (hwrites : a.writesRecord h slot = false) : a.deletesRecord h slot = false := by
  obtain ⟨signer, instruction⟩ := a
  cases instruction with
  | setRecord => rfl
  | _ => exact hwrites

theorem touchesOffer_of_settles {h : Bytes 32} {buyer : ArchAddress} {a : Action}
    (hsettles : a.settlesOffer h buyer = true) : a.touchesOffer h buyer = true := by
  obtain ⟨signer, instruction⟩ := a
  cases instruction with
  | makeOffer => exact nomatch hsettles
  | _ => exact hsettles

end Action

namespace Registry

section Lookups
variable (R : Registry) (h k : Bytes 32)

@[simp] theorem name_setName_self (n : Registration) : (R.setName h n).name h = some n :=
  Function.update_self ..

theorem name_setName_of_ne (n : Registration) (hne : k ≠ h) : (R.setName h n).name k = R.name k :=
  Function.update_of_ne hne ..

@[simp] theorem record_setRecord_self (slot : RecordSlot) (p : Option Publication) :
    (R.setRecord h slot p).record (h, slot) = p :=
  Function.update_self ..

theorem record_setRecord_of_ne {slot slot' : RecordSlot} (p : Option Publication)
    (hne : (k, slot') ≠ (h, slot)) : (R.setRecord h slot p).record (k, slot') = R.record (k, slot') :=
  Function.update_of_ne hne ..

@[simp] theorem reverse_setReverse_self (o : ArchAddress) (b : Option Binding) :
    (R.setReverse o b).reverse o = b :=
  Function.update_self ..

theorem reverse_setReverse_of_ne {o o' : ArchAddress} (b : Option Binding) (hne : o' ≠ o) :
    (R.setReverse o b).reverse o' = R.reverse o' :=
  Function.update_of_ne hne ..

@[simp] theorem listing_setListing_self (l : Option Listing) : (R.setListing h l).listing h = l :=
  Function.update_self ..

theorem listing_setListing_of_ne (l : Option Listing) (hne : k ≠ h) :
    (R.setListing h l).listing k = R.listing k :=
  Function.update_of_ne hne ..

@[simp] theorem offer_setOffer_self (buyer : ArchAddress) (o : Offer) :
    (R.setOffer h buyer o).offer (h, buyer) = some o :=
  Function.update_self ..

theorem offer_setOffer_of_ne {buyer buyer' : ArchAddress} (o : Offer)
    (hne : (k, buyer') ≠ (h, buyer)) : (R.setOffer h buyer o).offer (k, buyer') = R.offer (k, buyer') :=
  Function.update_of_ne hne ..

end Lookups

variable [Crypto] {decoys : Prop} {R R' : Registry} {a : Action}

/-! ## Names -/

/-- How an action changes the entry of one name. -/
inductive NameChange (k : Bytes 32) (a : Action) :
    Option Registration → Option Registration → Prop
  | kept {x : Option Registration} (hbumps : a.bumps k = false) (hregisters : a.registers k = false) :
      NameChange k a x x
  | registered {label : Label} {duration : UInt64}
      (hinstruction : a.instruction = .register label.str duration)
      (hhash : labelHash label.str.bytes = k) :
      NameChange k a none (some (.fresh label a.signer))
  | moved {n : Registration} (newOwner : ArchAddress) (hmoves : a.moves k = true) :
      NameChange k a (some n) (some (n.transfer newOwner))
  | bound {n : Registration} (hinstruction : a.instruction = .setPrimary k)
      (howner : a.signer = n.owner) :
      NameChange k a (some n) (some n.bind)

theorem Step.name_change (step : Step decoys R a R') (k : Bytes 32) :
    NameChange k a (R.name k) (R'.name k) := by
  cases step with
  | @register signer label duration _ hfree =>
      by_cases hk : k = labelHash label.str.bytes
      · subst hk
        rw [hfree, name_setName_self]
        exact .registered rfl rfl
      · rw [name_setName_of_ne _ _ _ _ hk]
        exact .kept rfl (decide_eq_false (Ne.symm hk))
  | @transfer h newOwner n hname =>
      by_cases hk : k = h
      · subst hk
        rw [hname, name_setName_self]
        exact .moved newOwner (decide_eq_true rfl)
      · rw [name_setName_of_ne _ _ _ _ hk]
        exact .kept (decide_eq_false (Ne.symm hk)) rfl
  | @setPrimary h n hname =>
      by_cases hk : k = h
      · subst hk
        rw [hname]
        change NameChange k _ (some n) ((R.setName k n.bind).name k)
        rw [name_setName_self]
        exact .bound rfl rfl
      · change NameChange k _ _ ((R.setName h n.bind).name k)
        rw [name_setName_of_ne _ _ _ _ hk]
        exact .kept (decide_eq_false (Ne.symm hk)) rfl
  | @buyName h buyer n l hname =>
      by_cases hk : k = h
      · subst hk
        rw [hname]
        change NameChange k _ (some n) ((R.setName k (n.transfer buyer)).name k)
        rw [name_setName_self]
        exact .moved buyer (decide_eq_true rfl)
      · change NameChange k _ _ ((R.setName h (n.transfer buyer)).name k)
        rw [name_setName_of_ne _ _ _ _ hk]
        exact .kept (decide_eq_false (Ne.symm hk)) rfl
  | @acceptOffer h buyer n o hname =>
      by_cases hk : k = h
      · subst hk
        rw [hname]
        change NameChange k _ (some n) ((R.setName k (n.transfer buyer)).name k)
        rw [name_setName_self]
        exact .moved buyer (decide_eq_true rfl)
      · change NameChange k _ _ ((R.setName h (n.transfer buyer)).name k)
        rw [name_setName_of_ne _ _ _ _ hk]
        exact .kept (decide_eq_false (Ne.symm hk)) rfl
  | _ => exact .kept rfl rfl

/-- The ways a name passes from one owner to another. -/
theorem Step.owner_change (step : Step decoys R a R') {k : Bytes 32} {n n' : Registration}
    (hname : R.name k = some n) (hname' : R'.name k = some n') (hne : n'.owner ≠ n.owner) :
    n' = n.transfer n'.owner ∧
      ((a = ⟨n.owner, .transfer k n'.owner⟩ ∧ R.listed k = false) ∨
        (a = ⟨n'.owner, .buyName k⟩ ∧
          ∃ l, R.listing k = some l ∧ l.active = true ∧ l.seller = n.owner) ∨
        (a = ⟨n.owner, .acceptOffer k n'.owner⟩ ∧
          ∃ o, R.offer (k, n'.owner) = some o ∧ o.active = true)) := by
  have change := step.name_change k
  rw [hname, hname'] at change
  have hmoves : a.moves k = true := by
    cases change with
    | kept => exact absurd rfl hne
    | moved _ hmoves => exact hmoves
    | bound => exact absurd rfl hne
  cases step with
  | @transfer h newOwner m hm hunlisted =>
      have hk : h = k := of_decide_eq_true hmoves
      subst hk
      cases hm.symm.trans hname
      rw [name_setName_self, Option.some.injEq] at hname'
      subst hname'
      exact ⟨rfl, .inl ⟨rfl, hunlisted⟩⟩
  | @buyName h buyer m l hm hlisting hactive hseller =>
      have hk : h = k := of_decide_eq_true hmoves
      subst hk
      cases hm.symm.trans hname
      have hmoved : n' = n.transfer buyer := Option.some.inj (hname'.symm.trans (name_setName_self ..))
      subst hmoved
      exact ⟨rfl, .inr (.inl ⟨rfl, l, hlisting, hactive, hseller⟩)⟩
  | @acceptOffer h buyer m o hm hoffer hactive =>
      have hk : h = k := of_decide_eq_true hmoves
      subst hk
      cases hm.symm.trans hname
      have hmoved : n' = n.transfer buyer := Option.some.inj (hname'.symm.trans (name_setName_self ..))
      subst hmoved
      exact ⟨rfl, .inr (.inr ⟨rfl, o, hoffer, hactive⟩)⟩
  | _ => exact nomatch hmoves

theorem Step.bought {buyer : ArchAddress} {h : Bytes 32}
    (step : Step decoys R ⟨buyer, .buyName h⟩ R') :
    ∃ n, R.name h = some n ∧ R'.name h = some (n.transfer buyer) := by
  cases step with
  | @buyName _ _ n _ hname => exact ⟨n, hname, name_setName_self ..⟩

theorem Step.accepted {seller buyer : ArchAddress} {h : Bytes 32}
    (step : Step decoys R ⟨seller, .acceptOffer h buyer⟩ R') :
    ∃ n, R.name h = some n ∧ R'.name h = some (n.transfer buyer) := by
  cases step with
  | @acceptOffer _ _ n _ hname => exact ⟨n, hname, name_setName_self ..⟩

/-! ## Records -/

theorem Step.record_kept (step : Step decoys R a R') {k : Bytes 32} {slot : RecordSlot}
    (hwrites : a.writesRecord k slot = false) : R'.record (k, slot) = R.record (k, slot) := by
  cases step with
  | setRecord =>
      refine record_setRecord_of_ne _ _ _ _ fun he => ?_
      cases he
      simp [Action.writesRecord] at hwrites
  | deleteRecord =>
      refine record_setRecord_of_ne _ _ _ _ fun he => ?_
      cases he
      simp [Action.writesRecord, Action.deletesRecord] at hwrites
  | _ => rfl

/-- How a write changes the record it addresses. -/
inductive RecordWrite (R : Registry) (k : Bytes 32) (slot : RecordSlot) (a : Action)
    (n : Registration) : Option Publication → Prop
  | published {value : RecordValue} {authority : ArchAddress} (hslot : value.slot = slot)
      (hopen : R.authority = some authority)
      (hvalue : validateRecordValue (initialConfig testnetNetworkId authority) (n.account k)
        value.recordType value = .ok ())
      (hinstruction : a.instruction = .setRecord k value.recordType value (R.revision k slot)) :
      RecordWrite R k slot a n (some (n.publish value (R.revision k slot)))
  | deleted {p : Publication} (hrecord : R.record (k, slot) = some p)
      (hdeletes : a.deletesRecord k slot = true) (howner : p.ownerSnapshot = n.owner)
      (hepoch : p.recordEpoch = n.recordEpoch) : RecordWrite R k slot a n none

theorem Step.record_written (step : Step decoys R a R') {k : Bytes 32} {slot : RecordSlot}
    (hwrites : a.writesRecord k slot = true) :
    ∃ n, R.name k = some n ∧ a.signer = n.owner ∧
      RecordWrite R k slot a n (R'.record (k, slot)) := by
  cases step with
  | @setRecord h value expected authority n hopen hname hvalue hrevision =>
      simp only [Action.writesRecord, Action.slotOfValue_recordType, Bool.decide_and,
        Bool.and_eq_true, decide_eq_true_eq] at hwrites
      obtain ⟨rfl, rfl⟩ := hwrites
      subst hrevision
      rw [record_setRecord_self]
      exact ⟨n, hname, rfl, .published rfl hopen hvalue rfl⟩
  | @deleteRecord h recordType textKey n p hname hrecord howner hepoch =>
      simp only [Action.writesRecord, Action.deletesRecord, Bool.decide_and, Bool.and_eq_true,
        decide_eq_true_eq] at hwrites
      obtain ⟨rfl, rfl⟩ := hwrites
      rw [record_setRecord_self]
      exact ⟨n, hname, rfl, .deleted hrecord (by simp [Action.deletesRecord]) howner hepoch⟩
  | _ => exact nomatch hwrites

/-! ## Primary names -/

theorem Step.reverse_kept (step : Step decoys R a R') {o : ArchAddress}
    (hwrites : a.writesPrimary o = false) : R'.reverse o = R.reverse o := by
  cases step with
  | setPrimary =>
      refine reverse_setReverse_of_ne _ _ fun he => ?_
      subst he
      simp [Action.writesPrimary] at hwrites
  | clearPrimary =>
      refine reverse_setReverse_of_ne _ _ fun he => ?_
      subst he
      simp [Action.writesPrimary] at hwrites
  | _ => rfl

/-- Without decoys, a pointer is what the last action on it left. -/
theorem Step.reverse_written (step : Step decoys R a R') (hdecoys : ¬ decoys) {o : ArchAddress}
    (hwrites : a.writesPrimary o = true) :
    (∃ h n, a = ⟨o, .setPrimary h⟩ ∧ R.name h = some n ∧ n.owner = o ∧
      R'.reverse o = some ⟨h, n.bind.primaryBindingNonce⟩) ∨
    (a = ⟨o, .clearPrimary⟩ ∧ R'.reverse o = none) := by
  cases step with
  | @setPrimary h n hname =>
      simp only [Action.writesPrimary, decide_eq_true_eq] at hwrites
      subst hwrites
      exact .inl ⟨h, n, rfl, hname, rfl, reverse_setReverse_self ..⟩
  | @clearPrimary signer b hbound =>
      simp only [Action.writesPrimary, decide_eq_true_eq] at hwrites
      subst hwrites
      exact .inr ⟨rfl, reverse_setReverse_self ..⟩
  | clearDecoy h => exact absurd h hdecoys
  | _ => exact nomatch hwrites

theorem Step.setPrimary_owner {signer : ArchAddress} {h : Bytes 32}
    (step : Step decoys R ⟨signer, .setPrimary h⟩ R') :
    ∃ n, R.name h = some n ∧ n.owner = signer := by
  cases step with
  | @setPrimary _ n hname => exact ⟨n, hname, rfl⟩

/-! ## Listings and offers -/

theorem Step.listing_kept (step : Step decoys R a R') {k : Bytes 32}
    (htouches : a.touchesListing k = false) : R'.listing k = R.listing k := by
  cases step with
  | listName | cancelListing | buyName | acceptOffer =>
      refine listing_setListing_of_ne _ _ _ _ fun he => ?_
      subst he
      simp [Action.touchesListing] at htouches
  | _ => rfl

/-- A listing is put up by the owner of the name, or taken down. -/
theorem Step.listing_touched (step : Step decoys R a R') {k : Bytes 32}
    (htouches : a.touchesListing k = true) :
    (∃ n terms, R.name k = some n ∧ a = ⟨n.owner, .listName k terms.currency terms.price⟩ ∧
      R.listed k = false ∧ R'.listing k = some ⟨n.owner, terms, true⟩) ∨
    (a.moves k = true ∨ a.instruction = .cancelListing k) ∧
      R'.listing k = (R.listing k).map (·.deactivate) := by
  cases step with
  | @listName h terms n hname hunlisted =>
      simp only [Action.touchesListing, decide_eq_true_eq] at htouches
      subst htouches
      exact .inl ⟨n, terms, hname, rfl, hunlisted, listing_setListing_self ..⟩
  | @cancelListing h n l hname hlisting =>
      simp only [Action.touchesListing, decide_eq_true_eq] at htouches
      subst htouches
      exact .inr ⟨.inr rfl, by rw [listing_setListing_self, hlisting, Option.map_some]⟩
  | @buyName h buyer n l hname hlisting =>
      simp only [Action.touchesListing, decide_eq_true_eq] at htouches
      subst htouches
      exact .inr ⟨.inl (decide_eq_true rfl),
        by rw [listing_setListing_self, hlisting, Option.map_some]⟩
  | @acceptOffer h buyer n o =>
      simp only [Action.touchesListing, decide_eq_true_eq] at htouches
      subst htouches
      exact .inr ⟨.inl (decide_eq_true rfl), listing_setListing_self ..⟩
  | _ => exact nomatch htouches

theorem Step.makeOffer_name {signer : ArchAddress} {h : Bytes 32} {currency : QuoteCurrency}
    {price : UInt64} (step : Step decoys R ⟨signer, .makeOffer h currency price⟩ R') :
    ∃ n, R.name h = some n := by
  cases step with
  | makeOffer hname => exact ⟨_, hname⟩

theorem Step.offer_kept (step : Step decoys R a R') {k : Bytes 32} {buyer : ArchAddress}
    (htouches : a.touchesOffer k buyer = false) : R'.offer (k, buyer) = R.offer (k, buyer) := by
  cases step with
  | makeOffer | cancelOffer | acceptOffer =>
      refine offer_setOffer_of_ne _ _ _ _ fun he => ?_
      cases he
      simp [Action.touchesOffer, Action.settlesOffer] at htouches
  | _ => rfl

/-- An offer is made by its buyer, or settled while it is active. -/
theorem Step.offer_touched (step : Step decoys R a R') {k : Bytes 32} {buyer : ArchAddress}
    (htouches : a.touchesOffer k buyer = true) :
    (∃ terms, a = ⟨buyer, .makeOffer k terms.currency terms.price⟩ ∧
      R.offered k buyer = false ∧ R'.offer (k, buyer) = some ⟨terms, true⟩) ∨
    (∃ o, a.settlesOffer k buyer = true ∧ R.offer (k, buyer) = some o ∧ o.active = true ∧
      R'.offer (k, buyer) = some o.deactivate) := by
  cases step with
  | @makeOffer h signer terms n hname hbuyer hfree =>
      simp only [Action.touchesOffer, Bool.decide_and, Bool.and_eq_true, decide_eq_true_eq] at htouches
      obtain ⟨rfl, rfl⟩ := htouches
      exact .inl ⟨terms, rfl, hfree, offer_setOffer_self ..⟩
  | @cancelOffer h signer o hoffer hactive =>
      simp only [Action.touchesOffer, Action.settlesOffer, Bool.decide_and, Bool.and_eq_true,
        decide_eq_true_eq] at htouches
      obtain ⟨rfl, rfl⟩ := htouches
      exact .inr ⟨o, by simp [Action.settlesOffer], hoffer, hactive, offer_setOffer_self ..⟩
  | @acceptOffer h signer n o hname hoffer hactive =>
      simp only [Action.touchesOffer, Action.settlesOffer, Bool.decide_and, Bool.and_eq_true,
        decide_eq_true_eq] at htouches
      obtain ⟨rfl, rfl⟩ := htouches
      exact .inr ⟨o, by simp [Action.settlesOffer], hoffer, hactive, offer_setOffer_self ..⟩
  | _ => exact nomatch htouches

/-! ## The authority -/

/-- The configuration is written once. -/
theorem Step.authority_kept (step : Step decoys R a R') {authority : ArchAddress}
    (hopen : R.authority = some authority) : R'.authority = some authority := by
  cases step with
  | initializeRegistry hfree => exact nomatch hopen.symm.trans hfree
  | _ => exact hopen

end Registry

end ArchNameService
