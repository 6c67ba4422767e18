import ArchNameService.Model.Step

/-!
# What a history determines

Every entry of a reached registry is explained by the actions so far: a name by
its registration and its moves, a record by the last write to it, a pointer by
the last binding of its owner, an active listing or offer by the action that put
it up.
-/

namespace ArchNameService.Registry

variable [Crypto] {decoys : Prop} {R R' R₁ R₂ : Registry} {a : Action} {history later : List Action}
variable {k : Bytes 32} {slot : RecordSlot} {o buyer : ArchAddress}

/-- The registries that runs from the empty one reach, with the actions on the way. -/
abbrev Reached (decoys : Prop) : List Action → Registry → Prop := Run (Step decoys) empty

open History

/-! ## Names -/

/-- The entry of a name as the history determines it. Counters stop at the
largest word. -/
structure Tenure (k : Bytes 32) (history : List Action) (n : Registration) : Prop where
  hash : labelHash n.label.str.bytes = k
  label : ∀ a ∈ history, a.registers k = true →
    ∃ duration, a.instruction = .register n.label.str duration
  registered : history.countP (Action.registers k) = 1
  epoch : n.recordEpoch.toNat = min (1 + history.countP (Action.moves k)) (2 ^ 64 - 1)
  nonce : n.primaryBindingNonce.toNat = min (history.countP (Action.bumps k)) (2 ^ 64 - 1)

def NameTrace (k : Bytes 32) (history : List Action) : Option Registration → Prop
  | none => ∀ a ∈ history, a.bumps k = false ∧ a.registers k = false
  | some n => Tenure k history n

omit [Crypto] in
theorem moves_eq_false (hbumps : a.bumps k = false) : a.moves k = false := by
  cases hmoves : a.moves k with
  | false => rfl
  | true => rw [Action.bumps_of_moves hmoves] at hbumps; exact nomatch hbumps

theorem forall_registers_cons {p : Action → Prop} (hregisters : a.registers k = false)
    (h : ∀ b ∈ history, b.registers k = true → p b) :
    ∀ b ∈ a :: history, b.registers k = true → p b := by
  intro b hb hb'
  rcases List.mem_cons.mp hb with rfl | hb
  · rw [hregisters] at hb'; exact nomatch hb'
  · exact h b hb hb'

theorem NameChange.trace {x x' : Option Registration} (change : NameChange k a x x')
    (trace : NameTrace k history x) : NameTrace k (a :: history) x' := by
  cases change with
  | kept hbumps hregisters =>
      have hmoves := moves_eq_false hbumps
      cases x with
      | none =>
          intro b hb
          rcases List.mem_cons.mp hb with rfl | hb
          · exact ⟨hbumps, hregisters⟩
          · exact trace b hb
      | some n =>
          exact
            { hash := trace.hash
              label := forall_registers_cons hregisters trace.label
              registered := by
                rw [List.countP_cons_of_neg (by simp [hregisters])]; exact trace.registered
              epoch := by rw [List.countP_cons_of_neg (by simp [hmoves])]; exact trace.epoch
              nonce := by rw [List.countP_cons_of_neg (by simp [hbumps])]; exact trace.nonce }
  | @registered label duration hinstruction hhash =>
      have hregisters : a.registers k = true := by
        simp only [Action.registers, hinstruction, hhash, decide_true]
      have hbumps : a.bumps k = false := by simp only [Action.bumps, hinstruction, Action.moves]
      have hnoMoves : history.countP (Action.moves k) = 0 :=
        List.countP_eq_zero.mpr fun b hb => by simp [moves_eq_false (trace b hb).1]
      have hnoBumps : history.countP (Action.bumps k) = 0 :=
        List.countP_eq_zero.mpr fun b hb => by simp [(trace b hb).1]
      have hnoRegister : history.countP (Action.registers k) = 0 :=
        List.countP_eq_zero.mpr fun b hb => by simp [(trace b hb).2]
      exact
        { hash := hhash
          label := fun b hb hb' => by
            rcases List.mem_cons.mp hb with rfl | hb
            · exact ⟨duration, hinstruction⟩
            · rw [(trace b hb).2] at hb'; exact nomatch hb'
          registered := by rw [List.countP_cons_of_pos hregisters, hnoRegister]
          epoch := by
            rw [List.countP_cons_of_neg (by simp [moves_eq_false hbumps]), hnoMoves]; rfl
          nonce := by rw [List.countP_cons_of_neg (by simp [hbumps]), hnoBumps]; rfl }
  | @moved n newOwner hmoves =>
      have hregisters : a.registers k = false := by
        obtain ⟨signer, instruction⟩ := a
        cases instruction with
        | register => exact nomatch hmoves
        | _ => rfl
      exact
        { hash := trace.hash
          label := forall_registers_cons hregisters trace.label
          registered := by
            rw [List.countP_cons_of_neg (by simp [hregisters])]; exact trace.registered
          epoch := by
            rw [List.countP_cons_of_pos hmoves]
            change (saturatingAdd n.recordEpoch 1).toNat = _
            rw [toNat_saturatingAdd_one, trace.epoch]
            omega
          nonce := by
            rw [List.countP_cons_of_pos (Action.bumps_of_moves hmoves)]
            change (saturatingAdd n.primaryBindingNonce 1).toNat = _
            rw [toNat_saturatingAdd_one, trace.nonce]
            omega }
  | @bound n hinstruction howner =>
      have hbumps : a.bumps k = true := by
        simp only [Action.bumps, hinstruction, decide_true]
      have hmoves : a.moves k = false := by simp only [Action.moves, hinstruction]
      have hregisters : a.registers k = false := by simp only [Action.registers, hinstruction]
      exact
        { hash := trace.hash
          label := forall_registers_cons hregisters trace.label
          registered := by
            rw [List.countP_cons_of_neg (by simp [hregisters])]; exact trace.registered
          epoch := by rw [List.countP_cons_of_neg (by simp [hmoves])]; exact trace.epoch
          nonce := by
            rw [List.countP_cons_of_pos hbumps]
            change (saturatingAdd n.primaryBindingNonce 1).toNat = _
            rw [toNat_saturatingAdd_one, trace.nonce]
            omega }

theorem name_trace (run : Reached decoys history R) (k : Bytes 32) :
    NameTrace k history (R.name k) := by
  refine run.invariant (I := fun history R => NameTrace k history (R.name k)) ?_ ?_
  · intro a ha
    exact nomatch ha
  · intro history R a R' _ trace step
    exact (step.name_change k).trace trace

theorem tenure (run : Reached decoys history R) {n : Registration} (hname : R.name k = some n) :
    Tenure k history n := by
  have trace := name_trace run k
  rwa [hname] at trace

/-- While a name does not move its owner stays, and signs whatever touches it. -/
theorem owner_kept (run : Run (Step decoys) R₁ later R₂) {n : Registration}
    (hname : R₁.name k = some n) (hstill : ∀ a ∈ later, a.moves k = false) :
    (∃ n', R₂.name k = some n' ∧ n'.owner = n.owner) ∧
      ∀ a ∈ later, a.bumps k = true → a.instruction = .setPrimary k ∧ a.signer = n.owner := by
  induction run with
  | refl => exact ⟨⟨n, hname, rfl⟩, fun a ha => nomatch ha⟩
  | @step later R R' a run step ih =>
      obtain ⟨⟨n', hn', howner⟩, hsigned⟩ := ih fun b hb => hstill b (List.mem_cons_of_mem a hb)
      have hmoves := hstill a List.mem_cons_self
      have change := step.name_change k
      rw [hn'] at change
      generalize R'.name k = x' at change
      cases change with
      | kept hbumps =>
          refine ⟨⟨n', rfl, howner⟩, fun b hb hb' => ?_⟩
          rcases List.mem_cons.mp hb with rfl | hb
          · rw [hbumps] at hb'; exact nomatch hb'
          · exact hsigned b hb hb'
      | moved newOwner h => rw [hmoves] at h; exact nomatch h
      | bound hinstruction hsigner =>
          refine ⟨⟨n'.bind, rfl, howner⟩, fun b hb hb' => ?_⟩
          rcases List.mem_cons.mp hb with rfl | hb
          · exact ⟨hinstruction, hsigner.trans howner⟩
          · exact hsigned b hb hb'

/-- A name that is registered stays registered, under its label. -/
theorem name_kept (run : Run (Step decoys) R₁ later R₂) {n : Registration}
    (hname : R₁.name k = some n) :
    ∃ n', R₂.name k = some n' ∧ n'.label = n.label := by
  induction run with
  | refl => exact ⟨n, hname, rfl⟩
  | @step later R R' a run step ih =>
      obtain ⟨n', hn', hlabel⟩ := ih
      have change := step.name_change k
      rw [hn'] at change
      generalize R'.name k = x' at change
      cases change with
      | kept => exact ⟨n', rfl, hlabel⟩
      | moved newOwner => exact ⟨n'.transfer newOwner, rfl, hlabel⟩
      | bound => exact ⟨n'.bind, rfl, hlabel⟩

/-! ## The configuration -/

theorem authority_kept (run : Run (Step decoys) R₁ later R₂) {authority : ArchAddress}
    (hopen : R₁.authority = some authority) : R₂.authority = some authority := by
  induction run with
  | refl => exact hopen
  | step _ step ih => exact step.authority_kept ih

/-- Nothing is registered before there is a configuration. -/
theorem authority_of_name (run : Reached decoys history R) {n : Registration}
    (hname : R.name k = some n) : ∃ authority, R.authority = some authority := by
  revert n
  refine run.invariant (I := fun _ R => ∀ {n : Registration}, R.name k = some n →
    ∃ authority, R.authority = some authority) ?_ ?_
  · intro n hn
    exact nomatch hn
  · intro history R a R' _ ih step n' hn'
    have change := step.name_change k
    rw [hn'] at change
    have hopen : ∃ authority, R.authority = some authority := by
      generalize hx : R.name k = x at change
      cases change with
      | kept | moved | bound => exact ih hx
      | registered hinstruction =>
          cases step with
          | register hopen => exact Option.isSome_iff_exists.mp hopen
          | _ => exact nomatch hinstruction
    obtain ⟨authority, hopen⟩ := hopen
    exact ⟨authority, step.authority_kept hopen⟩

/-! ## Records -/

/-- A published record as the history determines it. -/
structure Published (R : Registry) (history : List Action) (k : Bytes 32) (slot : RecordSlot)
    (p : Publication) : Prop where
  addressed : p.value.slot = slot
  written : ∃ expected, newest (Action.writesRecord k slot) history =
      some ⟨p.ownerSnapshot, .setRecord k p.value.recordType p.value expected⟩ ∧
    p.revision = saturatingAdd expected 1
  epoch : p.recordEpoch.toNat =
    min (1 + (upTo (Action.writesRecord k slot) history).countP (Action.moves k)) (2 ^ 64 - 1)
  valid : ∃ authority, R.authority = some authority ∧ ∀ n : Registration,
    n.owner = p.ownerSnapshot → validateRecordValue (initialConfig testnetNetworkId authority)
      (n.account k) p.value.recordType p.value = .ok ()

def RecordTrace (R : Registry) (history : List Action) (k : Bytes 32) (slot : RecordSlot) :
    Option Publication → Prop
  | none => ∀ a, newest (Action.writesRecord k slot) history = some a → a.deletesRecord k slot = true
  | some p => Published R history k slot p

omit [Crypto] in
theorem not_moves_of_writesRecord (hwrites : a.writesRecord k slot = true) : a.moves k = false := by
  obtain ⟨signer, instruction⟩ := a
  cases instruction with
  | setRecord | deleteRecord => rfl
  | _ => exact nomatch hwrites

theorem record_trace (run : Reached decoys history R) (k : Bytes 32) (slot : RecordSlot) :
    RecordTrace R history k slot (R.record (k, slot)) := by
  refine run.invariant
    (I := fun history R => RecordTrace R history k slot (R.record (k, slot))) ?_ ?_
  · intro a ha
    exact nomatch ha
  · intro history R a R' run trace step
    cases hwrites : a.writesRecord k slot with
    | false =>
        rw [step.record_kept hwrites]
        cases hrecord : R.record (k, slot) with
        | none =>
            rw [hrecord] at trace
            intro b hb
            rw [newest_cons_miss hwrites] at hb
            exact trace b hb
        | some p =>
            rw [hrecord] at trace
            obtain ⟨authority, hopen, hvalid⟩ := trace.valid
            exact
              { addressed := trace.addressed
                written := by
                  rw [newest_cons_miss hwrites]; exact trace.written
                epoch := by
                  rw [upTo_cons_miss hwrites]; exact trace.epoch
                valid := ⟨authority, step.authority_kept hopen, hvalid⟩ }
    | true =>
        obtain ⟨n, hname, hsigner, hwrite⟩ := step.record_written hwrites
        generalize R'.record (k, slot) = x' at hwrite
        cases hwrite with
        | deleted hrecord hdeletes =>
            intro b hb
            rw [newest_cons_hit hwrites, Option.some.injEq] at hb
            exact hb ▸ hdeletes
        | @published value authority hslot hopen hvalue hinstruction =>
            have hepoch := (tenure run hname).epoch
            refine ⟨hslot, ⟨R.revision k slot, ?_, rfl⟩, ?_, authority, step.authority_kept hopen, ?_⟩
            · rw [newest_cons_hit hwrites]
              change some a = some ⟨n.owner, .setRecord k value.recordType value _⟩
              rw [← hsigner, ← hinstruction]
            · rw [upTo_cons_hit hwrites,
                List.countP_cons_of_neg (by simp [not_moves_of_writesRecord hwrites])]
              exact hepoch
            · intro m hm
              rw [← hvalue]
              exact validateRecordValue_congr hm _ _

/-- Over a run that deletes nothing from a slot, its revision counts the writes. -/
theorem revision_counts (run : Run (Step decoys) R₁ later R₂)
    (hkept : ∀ a ∈ later, a.deletesRecord k slot = false) :
    (R₂.revision k slot).toNat =
      min ((R₁.revision k slot).toNat + later.countP (Action.writesRecord k slot)) (2 ^ 64 - 1) := by
  induction run with
  | refl =>
      have hlt := (R₁.revision k slot).toNat_lt
      rw [List.countP_nil]
      omega
  | @step later R R' a run step ih =>
      have hrevision := ih fun b hb => hkept b (List.mem_cons_of_mem a hb)
      have hdeletes := hkept a List.mem_cons_self
      cases hwrites : a.writesRecord k slot with
      | false =>
          rw [List.countP_cons_of_neg (by simp [hwrites])]
          simp only [revision, step.record_kept hwrites]
          exact hrevision
      | true =>
          obtain ⟨n, hname, hsigner, hwrite⟩ := step.record_written hwrites
          generalize hx : R'.record (k, slot) = x' at hwrite
          cases hwrite with
          | deleted _ h => rw [hdeletes] at h; exact nomatch h
          | published =>
              rw [List.countP_cons_of_pos hwrites]
              have hnext : R'.revision k slot = saturatingAdd (R.revision k slot) 1 := by
                simp only [revision, hx]
                rfl
              rw [hnext, toNat_saturatingAdd_one, hrevision]
              omega

/-! ## Primary names -/

/-- A pointer as the history determines it. -/
structure Bound (history : List Action) (o : ArchAddress) (b : Binding) : Prop where
  written : newest (Action.writesPrimary o) history = some ⟨o, .setPrimary b.primaryNameHash⟩
  nonce : b.bindingNonce.toNat =
    min ((upTo (Action.writesPrimary o) history).countP (Action.bumps b.primaryNameHash)) (2 ^ 64 - 1)

def ReverseTrace (history : List Action) (o : ArchAddress) : Option Binding → Prop
  | none => ∀ a, newest (Action.writesPrimary o) history = some a → a.instruction = .clearPrimary
  | some b => Bound history o b

theorem reverse_trace (run : Reached decoys history R) (hdecoys : ¬ decoys) (o : ArchAddress) :
    ReverseTrace history o (R.reverse o) := by
  refine run.invariant (I := fun history R => ReverseTrace history o (R.reverse o)) ?_ ?_
  · intro a ha
    exact nomatch ha
  · intro history R a R' run trace step
    cases hwrites : a.writesPrimary o with
    | false =>
        rw [step.reverse_kept hwrites]
        cases hreverse : R.reverse o with
        | none =>
            rw [hreverse] at trace
            intro b hb
            rw [newest_cons_miss hwrites] at hb
            exact trace b hb
        | some b =>
            rw [hreverse] at trace
            exact
              { written := by
                  rw [newest_cons_miss hwrites]; exact trace.written
                nonce := by
                  rw [upTo_cons_miss hwrites]; exact trace.nonce }
    | true =>
        obtain ⟨h, n, rfl, hname, howner, hreverse⟩ | ⟨rfl, hreverse⟩ :=
          step.reverse_written hdecoys hwrites
        · rw [hreverse]
          refine ⟨newest_cons_hit hwrites, ?_⟩
          rw [upTo_cons_hit hwrites,
            List.countP_cons_of_pos (by simp [Action.bumps])]
          change (saturatingAdd n.primaryBindingNonce 1).toNat =
            min (history.countP (Action.bumps h) + 1) _
          rw [toNat_saturatingAdd_one, (tenure run hname).nonce]
          omega
        · rw [hreverse]
          intro b hb
          rw [newest_cons_hit hwrites, Option.some.injEq] at hb
          rw [← hb]

/-! ## Listings and offers -/

/-- An active listing is the one its seller put up while owning the name, and
the seller still owns it. -/
structure Listed (R : Registry) (history : List Action) (k : Bytes 32) (l : Listing) : Prop where
  written : newest (Action.touchesListing k) history =
    some ⟨l.seller, .listName k l.terms.currency l.terms.price⟩
  still : ∀ a ∈ since (Action.touchesListing k) history, a.moves k = false
  owner : ∃ n, R.name k = some n ∧ n.owner = l.seller

omit [Crypto] in
theorem touchesListing_of_moves (hmoves : a.moves k = true) :
    a.touchesListing k = true ∨ ∃ newOwner, a.instruction = .transfer k newOwner := by
  obtain ⟨signer, instruction⟩ := a
  cases instruction with
  | transfer h newOwner =>
      have hk : h = k := of_decide_eq_true hmoves
      exact .inr ⟨newOwner, by rw [hk]⟩
  | buyName | acceptOffer => exact .inl hmoves
  | _ => exact nomatch hmoves

/-- A listed name is not transferred. -/
theorem Step.not_transfer_of_listed (step : Step decoys R a R') (hlisted : R.listed k = true) :
    ∀ newOwner, a.instruction ≠ .transfer k newOwner := by
  intro newOwner hinstruction
  cases step with
  | transfer _ hunlisted =>
      cases hinstruction
      rw [hlisted] at hunlisted
      exact nomatch hunlisted
  | _ => exact nomatch hinstruction

/-- An active listing stays as it is until it ends. -/
theorem Step.listing_stays (step : Step decoys R a R') {l : Listing} (hlisting : R.listing k = some l)
    (hactive : l.active = true) (hends : a.endsListing k = false) : R'.listing k = some l := by
  cases htouches : a.touchesListing k with
  | false => rw [step.listing_kept htouches, hlisting]
  | true =>
      obtain ⟨n, terms, -, rfl, hunlisted, -⟩ | ⟨hinstruction, -⟩ := step.listing_touched htouches
      · rw [listed, hlisting, Option.any_some, hactive] at hunlisted
        exact nomatch hunlisted
      · obtain ⟨signer, instruction⟩ := a
        cases instruction with
        | listName => exact hinstruction.elim (fun h => nomatch h) fun h => nomatch h
        | cancelListing | buyName | acceptOffer => exact nomatch hends.symm.trans htouches
        | _ => exact nomatch htouches

theorem listing_stays (run : Run (Step decoys) R₁ later R₂) {l : Listing}
    (hlisting : R₁.listing k = some l) (hactive : l.active = true)
    (hends : ∀ a ∈ later, a.endsListing k = false) : R₂.listing k = some l := by
  induction run with
  | refl => exact hlisting
  | @step later R R' a _ step ih =>
      obtain ⟨ha, hlater⟩ := List.forall_mem_cons.mp hends
      exact step.listing_stays (ih hlater) hactive ha

/-- An active offer stays as it is until it is settled. -/
theorem Step.offer_stays (step : Step decoys R a R') {o : Offer}
    (hoffer : R.offer (k, buyer) = some o) (hactive : o.active = true)
    (hsettles : a.settlesOffer k buyer = false) : R'.offer (k, buyer) = some o := by
  cases htouches : a.touchesOffer k buyer with
  | false => rw [step.offer_kept htouches, hoffer]
  | true =>
      obtain ⟨terms, -, hfree, -⟩ | ⟨_, hsettled, -⟩ := step.offer_touched htouches
      · rw [offered, hoffer, Option.any_some, hactive] at hfree
        exact nomatch hfree
      · exact nomatch hsettles.symm.trans hsettled

theorem offer_stays (run : Run (Step decoys) R₁ later R₂) {o : Offer}
    (hoffer : R₁.offer (k, buyer) = some o) (hactive : o.active = true)
    (hsettles : ∀ a ∈ later, a.settlesOffer k buyer = false) : R₂.offer (k, buyer) = some o := by
  induction run with
  | refl => exact hoffer
  | @step later R R' a _ step ih =>
      obtain ⟨ha, hlater⟩ := List.forall_mem_cons.mp hsettles
      exact step.offer_stays (ih hlater) hactive ha

theorem listing_trace (run : Reached decoys history R) {l : Listing}
    (hlisting : R.listing k = some l) (hactive : l.active = true) : Listed R history k l := by
  revert l
  refine run.invariant (I := fun history R => ∀ {l : Listing}, R.listing k = some l →
    l.active = true → Listed R history k l) ?_ ?_
  · intro l hl
    exact nomatch hl
  · intro history R a R' run ih step l hl hactive
    cases htouches : a.touchesListing k with
    | false =>
        rw [step.listing_kept htouches] at hl
        have trace := ih hl hactive
        have hlisted : R.listed k = true := by simp only [listed, hl, Option.any_some, hactive]
        have hmoves : a.moves k = false := by
          cases hmoves : a.moves k with
          | false => rfl
          | true =>
              rcases touchesListing_of_moves hmoves with h | ⟨newOwner, h⟩
              · rw [htouches] at h; exact nomatch h
              · exact absurd h (step.not_transfer_of_listed hlisted newOwner)
        obtain ⟨n, hname, howner⟩ := trace.owner
        obtain ⟨⟨n', hname', howner'⟩, -⟩ :=
          owner_kept (Run.single step) hname (by simpa using hmoves)
        exact
          { written := by
              rw [newest_cons_miss htouches]; exact trace.written
            still := by
              rw [since_cons_miss htouches]
              intro b hb
              rcases List.mem_cons.mp hb with rfl | hb
              · exact hmoves
              · exact trace.still b hb
            owner := ⟨n', hname', howner'.trans howner⟩ }
    | true =>
        obtain ⟨n, terms, hname, rfl, -, hlisting⟩ | ⟨-, hlisting⟩ := step.listing_touched htouches
        · rw [hlisting, Option.some.injEq] at hl
          subst hl
          obtain ⟨⟨n', hname', howner⟩, -⟩ :=
            owner_kept (k := k) (Run.single step) hname (by simp [Action.moves])
          exact
            { written := newest_cons_hit htouches
              still := by
                rw [since_cons_hit htouches]
                exact fun b hb => nomatch hb
              owner := ⟨n', hname', howner⟩ }
        · rw [hlisting] at hl
          obtain ⟨l', -, rfl⟩ := Option.map_eq_some_iff.mp hl
          exact nomatch hactive

/-- An active offer is the one its buyer made last, not settled since. -/
theorem offer_trace (run : Reached decoys history R) {x : Offer}
    (hoffer : R.offer (k, buyer) = some x) (hactive : x.active = true) :
    newest (Action.touchesOffer k buyer) history =
      some ⟨buyer, .makeOffer k x.terms.currency x.terms.price⟩ := by
  revert x
  refine run.invariant (I := fun history R => ∀ {x : Offer}, R.offer (k, buyer) = some x →
    x.active = true → newest (Action.touchesOffer k buyer) history =
      some ⟨buyer, .makeOffer k x.terms.currency x.terms.price⟩) ?_ ?_
  · intro x hx
    exact nomatch hx
  · intro history R a R' run ih step x hx hactive
    cases htouches : a.touchesOffer k buyer with
    | false =>
        rw [step.offer_kept htouches] at hx
        rw [newest_cons_miss htouches]
        exact ih hx hactive
    | true =>
        obtain ⟨terms, rfl, -, hoffer⟩ | ⟨x', -, -, -, hoffer⟩ := step.offer_touched htouches
        · rw [hoffer, Option.some.injEq] at hx
          subst hx
          exact newest_cons_hit htouches
        · rw [hoffer, Option.some.injEq] at hx
          subst hx
          exact nomatch hactive

end ArchNameService.Registry
