import ArchNameService.Refinement.Execution
import ArchNameService.Refinement.Frame

/-!
# Names do not disturb each other

A registry instruction changes accounts of its own name, besides the token
accounts of a settlement. An IDL instruction changes no account of the registry.
-/

namespace ArchNameService
open Deployment

/-- What an account holds: its bytes, and what the token program keeps in it. -/
def Unchanged (L L' : Ledger) (k : ArchAddress) : Prop :=
  L'.data k = L.data k ∧ L'.tokens k = L.tokens k

namespace Action

/-- The hash of the name that an instruction carries. -/
def nameHash? [Crypto] (a : Action) : Option (Bytes 32) :=
  match a.instruction with
  | .register label _ | .reclaimExpired label _ => some (labelHash label.bytes)
  | .renew h _ | .transfer h _ | .setRecord h .. | .deleteRecord h .. | .setPrimary h
  | .listName h .. | .cancelListing h | .buyName h | .makeOffer h .. | .cancelOffer h
  | .acceptOffer h _ => some h
  | .initializeRegistry .. | .clearPrimary | .updateConfig .. => none

/-- The accounts of a name that an instruction on it may change. -/
inductive OfName (a : Action) (h : Bytes 32) : Site → Prop
  | name : OfName a h (.name h)
  | record {slot : RecordSlot} (hslot : a.writesRecord h slot = true) : OfName a h (.record h slot)
  | listing : OfName a h (.listing h)
  | offer {buyer : ArchAddress} (hbuyer : a.touchesOffer h buyer = true) :
      OfName a h (.offer h buyer)
  | reverse : OfName a h (.reverse a.signer)

theorem ofName_of_written [Crypto] {a : Action} {h : Bytes 32} {s : Site}
    (hname : a.nameHash? = some h) (hs : s ∈ a.written) : a.OfName h s := by
  obtain ⟨signer, instruction⟩ := a
  cases instruction with
  | initializeRegistry | clearPrimary | updateConfig => exact nomatch hname
  | renew | reclaimExpired => exact nomatch hs
  | register =>
      cases hname
      cases List.mem_singleton.mp hs
      exact .name
  | transfer =>
      cases hname
      cases List.mem_singleton.mp hs
      exact .name
  | setRecord =>
      cases hname
      cases List.mem_singleton.mp hs
      exact .record (decide_eq_true ⟨rfl, rfl⟩)
  | deleteRecord =>
      cases hname
      cases List.mem_singleton.mp hs
      exact .record (decide_eq_true ⟨rfl, rfl⟩)
  | setPrimary =>
      cases hname
      rcases List.mem_pair.mp hs with rfl | rfl
      · exact .name
      · exact .reverse
  | listName | cancelListing =>
      cases hname
      cases List.mem_singleton.mp hs
      exact .listing
  | buyName =>
      cases hname
      rcases List.mem_pair.mp hs with rfl | rfl
      · exact .name
      · exact .listing
  | makeOffer | cancelOffer =>
      cases hname
      cases List.mem_singleton.mp hs
      exact .offer (decide_eq_true ⟨rfl, rfl⟩)
  | acceptOffer =>
      cases hname
      rcases List.mem_cons.mp hs with rfl | hs
      · exact .name
      · rcases List.mem_pair.mp hs with rfl | rfl
        · exact .listing
        · exact .offer (decide_eq_true ⟨rfl, rfl⟩)

/-- An action writes accounts that it works with. -/
theorem sites_of_written [Crypto] {a : Action} {s : Site} (hs : s ∈ a.written) : s ∈ a.sites := by
  obtain ⟨signer, instruction⟩ := a
  cases instruction <;> simp only [written, sites, List.mem_cons, List.not_mem_nil, or_false] at hs ⊢
    <;> tauto

theorem cleared_of_nameHash [Crypto] {a : Action} {h : Bytes 32} (hname : a.nameHash? = some h)
    (accounts : List AccountInfo) : a.cleared accounts = [] := by
  obtain ⟨signer, instruction⟩ := a
  cases instruction with
  | clearPrimary => exact nomatch hname
  | _ => rfl

end Action

namespace Idl

/-- Bytes that an IDL instruction would take for an IDL account or for a fresh buffer. -/
def Lookalike (bytes : List UInt8) : Prop :=
  headerLen ≤ bytes.length ∧ (bytes.take 8 = accountDisc ∨ bytes.take 8 = List.replicate 8 0)

end Idl

section
variable [Deployment] {S : Scope} {L₀ L L' : Ledger} {R : Registry} {history : List Event} {c : Call}

/-- An IDL account, by its owner program and its discriminator. -/
def Ledger.IsIdl (L : Ledger) (k : ArchAddress) : Prop :=
  L.owner k = programId ∧ (L.data k).take 8 = Idl.accountDisc

instance (L : Ledger) (k : ArchAddress) : Decidable (L.IsIdl k) :=
  inferInstanceAs (Decidable (_ ∧ _))

theorem Agrees.not_isIdl (agrees : Agrees S L R.content) {s : Site} (hs : s ∈ S) :
    ¬ L.IsIdl s.address := by
  rintro ⟨howned, hdisc⟩
  have hcontent := agrees s hs
  rw [Ledger.content_of_owner howned] at hcontent
  rw [hcontent] at hdisc
  rcases R.content_discriminator s with hnil | hmem
  · rw [hnil] at hdisc
    exact absurd hdisc (by decide)
  · rw [hdisc] at hmem
    exact accountDisc_not_mem hmem

theorem Agrees.not_lookalike (agrees : Agrees S L R.content) (clean : Clean S L) {s : Site}
    (hs : s ∈ S) : ¬ Idl.Lookalike (L.data s.address) := by
  rintro ⟨hlength, hdisc⟩
  rcases clean s hs with howned | ⟨-, hblank⟩
  · refine Idl.not_derived agrees howned hlength ?_ ⟨s, hs, rfl⟩
    rcases hdisc with hdisc | hzeros
    · rw [hdisc]
      exact accountDisc_not_mem
    · rw [hzeros]
      exact zeros_not_mem
  · rw [hblank] at hlength
    exact absurd hlength (by decide)

/-- The traces of an accepted registry instruction. -/
theorem Ledger.Step.touches {a : Action} (step : Ledger.Step S L (.accepted c) L')
    (haction : c.action? = some a) :
    Touches (a.spends c.accounts) (a.writes c.accounts) (a.credits c.accounts L) L L' := by
  obtain ⟨-, -, hsigner, hdispatch⟩ := step.dispatched haction
  obtain ⟨signer, hsigner', touches⟩ := dispatch_traces hdispatch
  cases hsigner.symm.trans hsigner'
  exact touches

/-- The bytes of an account that is not one of the name's are not changed. -/
theorem Ledger.Step.data_kept {a : Action} {h : Bytes 32} {k : ArchAddress}
    (step : Ledger.Step S L (.accepted c) L') (haction : c.action? = some a)
    (hname : a.nameHash? = some h) (hk : ∀ s ∈ S, a.OfName h s → s.address ≠ k) :
    L'.data k = L.data k := by
  apply (step.touches haction).data
  rintro (⟨s, hs, hkey⟩ | ⟨info, hinfo, -⟩)
  · have hsites := List.forall_iff_forall_mem.mp (step.dispatched haction).1
    exact hk s (hsites s (Action.sites_of_written hs)) (Action.ofName_of_written hname hs) hkey
  · rw [Action.cleared_of_nameHash hname] at hinfo
    exact nomatch hinfo

/-- In every reachable ledger: a registry instruction changes only accounts of its
own name and the token accounts of an aBTC settlement, and no IDL account; an IDL
instruction changes no account of the registry, since none looks like an IDL account. -/
theorem names_isolated (genesis : Genesis L₀) (untouched : Untouched S L₀)
    (run : Run (Ledger.Step S) L₀ history L) :
    (∀ s ∈ S, ¬ Idl.Lookalike (L.data s.address)) ∧
    (∀ c L' a h, Ledger.Step S L (.accepted c) L' → c.action? = some a → a.nameHash? = some h →
      (∀ k, ¬ Unchanged L L' k →
        (∃ s ∈ S, a.OfName h s ∧ s.address = k) ∨ k ∈ a.credits c.accounts L) ∧
      (∀ s ∈ S, ¬ a.OfName h s → L'.data s.address = L.data s.address) ∧
      (∀ k, L.IsIdl k → L'.data k = L.data k)) ∧
    (∀ c L' payload, Ledger.Step S L (.accepted c) L' → Idl.payload? c.data = some payload →
      ∀ s ∈ S, L'.data s.address = L.data s.address) := by
  obtain ⟨R, -, corresponds⟩ := genesis.reached run
  have agrees := corresponds.agrees
  refine ⟨fun s hs => agrees.not_lookalike (corresponds.clean untouched.clean) hs, ?_, ?_⟩
  · intro c L' a h step haction hname
    refine ⟨fun k hchanged => ?_, fun s hs hother => ?_, fun k hidl => ?_⟩
    · by_contra hnone
      obtain ⟨hsite, hcredit⟩ := not_or.mp hnone
      refine hchanged ⟨step.data_kept haction hname fun s hs hof hkey => ?_,
        (step.touches haction).tokens k hcredit⟩
      exact hsite ⟨s, hs, hof, hkey⟩
    · refine step.data_kept haction hname fun t ht hof hkey => ?_
      exact hother (S.distinct ht hs hkey ▸ hof)
    · refine step.data_kept haction hname fun s hs _ hkey => ?_
      subst hkey
      exact agrees.not_isIdl hs hidl
  · intro c L' payload step hpayload s hs
    cases step with
    | accepted h =>
        simp only [processInstruction, hpayload] at h
        exact (Idl.process_effect agrees h).data s hs

end

open Testnet in
/-- Ben's offer on `alice` leaves Ann's pointer as it is. -/
theorem offer_isolated : ∃ (history : List Event) (L L' : Ledger),
    Run (Ledger.Step scope) start history L ∧ Ledger.Step scope L (.accepted (offering 300)) L' ∧
      L'.data (Site.reverse ann).address = L.data (Site.reverse ann).address := by
  obtain ⟨L, run, -, -, hp⟩ := reached opening
    (fun L => (processInstruction L (offering 300).accounts (offering 300).data).toOption.any
      fun _ => true) (by decide +kernel) (by decide +kernel)
  obtain ⟨L', step, -⟩ := stepped (offering 300) hp (by decide +kernel)
  obtain ⟨-, hregistry, -⟩ := names_isolated start_genesis start_untouched run
  obtain ⟨-, hothers, -⟩ := hregistry _ L' _ alice step (call_action ..) rfl
  refine ⟨_, L, L', run, step, hothers (.reverse ann) (by decide : .reverse ann ∈ sites) ?_⟩
  intro hof
  cases hof

open Testnet in
/-- A sale in aBTC changes what the token program keeps in Ben's purse, which is
no account of the name. -/
theorem abtc_sale_changes_purse : ∃ (history : List Event) (L L' : Ledger) (c : Call) (a : Action),
    Run (Ledger.Step scope) start history L ∧ Ledger.Step scope L (.accepted c) L' ∧
      c.action? = some a ∧ a.nameHash? = some alice ∧
      ∃ k, ¬ Unchanged L L' k ∧ ∀ s, a.OfName alice s → s.address ≠ k := by
  let sale := purchase [benPurse, annPurse, testnetAbtcMint, tokenProgramIdBytes]
  obtain ⟨L, L₁, L', run, rest, step, -, -, hmoved⟩ := interleaved (opening ++ [listing .btc 500]) []
    sale (fun _ => true) (fun _ => true)
    (fun L L' => decide (L'.tokens benPurse ≠ L.tokens benPurse)) (by decide +kernel)
    (by decide +kernel)
  refine ⟨_, L₁, L', sale, ⟨ben, .buyName alice⟩, run.append rest, step, call_action .., rfl,
    benPurse, fun h => of_decide_eq_true hmoved h.2, ?_⟩
  intro s hof
  cases hof with
  | name => decide +kernel
  | listing => decide +kernel
  | reverse => decide +kernel
  | record hslot => exact nomatch hslot
  | offer hbuyer => exact nomatch hbuyer

end ArchNameService
