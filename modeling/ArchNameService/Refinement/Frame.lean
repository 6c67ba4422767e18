import ArchNameService.Refinement.Runs
import Mathlib.Logic.Relation

/-!
# What a call touches

In any ledger at all, and for any account list: which balances a call may lower,
which accounts it may write, and through which pieces of balance arithmetic it
passes on the way.
-/

namespace ArchNameService
open Borsh (Str)
open Crypto Deployment

/-- The accounts of the list that sign. -/
def signers (accounts : List AccountInfo) : Set ArchAddress :=
  {k | ∃ info ∈ accounts, info.isSigner = true ∧ info.key = k}

namespace Action

/-- The entries an action rewrites. -/
def written [Crypto] (a : Action) : List Site :=
  match a.instruction with
  | .initializeRegistry .. => [.config]
  | .register label _ => [.name (labelHash label.bytes)]
  | .transfer h _ => [.name h]
  | .setRecord h recordType value _ => [.record h (slotOfValue recordType value)]
  | .deleteRecord h recordType textKey _ => [.record h (.of recordType textKey.bytes)]
  | .setPrimary h => [.name h, .reverse a.signer]
  | .listName h .. | .cancelListing h => [.listing h]
  | .buyName h => [.name h, .listing h]
  | .makeOffer h .. | .cancelOffer h => [.offer h a.signer]
  | .acceptOffer h buyer => [.name h, .listing h, .offer h buyer]
  | .clearPrimary | .renew .. | .reclaimExpired .. | .updateConfig .. => []

/-- The accounts that a call writes beside the entries: `ClearPrimary` empties the
account it is given. -/
def cleared (a : Action) (accounts : List AccountInfo) : List AccountInfo :=
  match a.instruction with
  | .clearPrimary => (accounts.drop 1).take 1
  | _ => []

/-- The two token accounts of a settlement in aBTC. -/
def settled (a : Action) (accounts : List AccountInfo) : List AccountInfo :=
  match a.instruction with
  | .buyName _ => (accounts.drop 5).take 2
  | .acceptOffer _ _ => (accounts.drop 6).take 2
  | _ => []

end Action

section
variable [Deployment]

/-- The pieces an instruction consists of, as far as balances go. -/
inductive Ledger.Piece : Ledger → Ledger → Prop
  | transferLamports {L L' : Ledger} {source destination : AccountInfo} {amount : UInt64}
      (h : transferLamports L source destination amount = .ok L') : Piece L L'
  | fundRentExempt {L L' : Ledger} {payer account : AccountInfo} {space : Nat}
      (h : fundRentExempt L payer account space = .ok L') : Piece L L'
  | createAccount {L L' : Ledger} {accounts : List AccountInfo} {payer account : ArchAddress}
      {space : Nat} (h : systemCreateAccount L accounts payer account (minimumRent space) space
        programId = .ok L') : Piece L L'
  | close {L L' : Ledger} {accounts : List AccountInfo} (h : Idl.close L accounts = .ok L') :
      Piece L L'
  | other {L L' : Ledger} (h : ∀ k, L'.lamports k = L.lamports k) : Piece L L'

/-- Only balances in `spend` fall, and only accounts in `write` and token accounts
in `credit` change. -/
structure Touches (spend write credit : Set ArchAddress) (L L' : Ledger) : Prop where
  pieces : Relation.ReflTransGen Ledger.Piece L L'
  spares : ∀ k, k ∉ spend → L.lamports k ≤ L'.lamports k
  owner : ∀ k, k ∉ write → L'.owner k = L.owner k
  data : ∀ k, k ∉ write → L'.data k = L.data k
  tokens : ∀ k, k ∉ credit → L'.tokens k = L.tokens k

variable {spend write credit : Set ArchAddress} {L L' L₁ : Ledger} {payer account : AccountInfo}
  {accounts : List AccountInfo}

namespace Touches

theorem refl (L : Ledger) : Touches spend write credit L L :=
  ⟨.refl, fun _ _ => UInt64.le_refl _, fun _ _ => rfl, fun _ _ => rfl, fun _ _ => rfl⟩

theorem trans (h : Touches spend write credit L L₁) (h' : Touches spend write credit L₁ L') :
    Touches spend write credit L L' :=
  { pieces := h.pieces.trans h'.pieces
    spares := fun k hk => UInt64.le_trans (h.spares k hk) (h'.spares k hk)
    owner := fun k hk => (h'.owner k hk).trans (h.owner k hk)
    data := fun k hk => (h'.data k hk).trans (h.data k hk)
    tokens := fun k hk => (h'.tokens k hk).trans (h.tokens k hk) }

/-- The balances and the token accounts stay as they are. -/
theorem of_lamports (hlamports : ∀ k, L'.lamports k = L.lamports k) (htokens : L'.tokens = L.tokens)
    (howner : ∀ k, k ∉ write → L'.owner k = L.owner k)
    (hdata : ∀ k, k ∉ write → L'.data k = L.data k) : Touches spend write credit L L' :=
  { pieces := .single (.other hlamports)
    spares := fun k _ => by rw [hlamports k]; exact UInt64.le_refl _
    owner := howner
    data := hdata
    tokens := fun k _ => congrFun htokens k }

end Touches

omit [Deployment] in
theorem Spares.outside {p : ArchAddress} (h : Spares p L L') (hp : p ∈ spend) :
    ∀ k, k ∉ spend → L.lamports k ≤ L'.lamports k :=
  fun k hk => h k (ne_of_mem_of_not_mem hp hk).symm

/-! ## The helpers -/

theorem transferLamports_touches {source destination : AccountInfo} {amount : UInt64}
    (hsource : source.key ∈ spend) (h : transferLamports L source destination amount = .ok L') :
    Touches spend write credit L L' := by
  have paid := transferLamports_ok.mp h
  exact
    { pieces := .single (.transferLamports h)
      spares := paid.spares.outside hsource
      owner := fun k _ => paid.owner k
      data := fun k _ => paid.data k
      tokens := fun k _ => congrFun paid.tokens k }

theorem fundRentExempt_touches {space : Nat} (hpayer : payer.key ∈ spend)
    (h : fundRentExempt L payer account space = .ok L') : Touches spend write credit L L' := by
  have topped := fundRentExempt_topped h
  exact
    { pieces := .single (.fundRentExempt h)
      spares := topped.spares.outside hpayer
      owner := fun k _ => topped.owner k
      data := fun k _ => topped.data k
      tokens := fun k _ => congrFun topped.tokens k }

theorem setData_touches {k : ArchAddress} {bytes : List UInt8} (hk : k ∈ write) :
    Touches spend write credit L (L.setData k bytes) := by
  apply Touches.of_lamports
  · exact fun j => L.lamports_setData k j bytes
  · exact L.tokens_setData k bytes
  · exact fun j _ => L.owner_setData k j bytes
  · intro j hj
    rw [Ledger.data_setData, if_neg (ne_of_mem_of_not_mem hk hj).symm]

theorem realloc_touches {n : Nat} (haccount : account.key ∈ write)
    (h : realloc L account n = .ok L') : Touches spend write credit L L' := by
  obtain ⟨howner, hdata, htokens, hlamports⟩ := realloc_ok h
  apply Touches.of_lamports hlamports htokens
  · exact fun k _ => howner k
  · exact fun k hk => hdata k (ne_of_mem_of_not_mem haccount hk).symm

theorem systemCreateAccount_touches {p k : ArchAddress} {space : Nat} (hp : p ∈ spend)
    (hk : k ∈ write)
    (h : systemCreateAccount L accounts p k (minimumRent space) space programId = .ok L') :
    Touches spend write credit L L' := by
  have created := systemCreateAccount_ok h
  exact
    { pieces := .single (.createAccount h)
      spares := created.spares.outside hp
      owner := fun j hj => by rw [created.owner, if_neg (ne_of_mem_of_not_mem hk hj).symm]
      data := fun j hj => by rw [created.data, if_neg (ne_of_mem_of_not_mem hk hj).symm]
      tokens := fun j _ => congrFun created.tokens j }

theorem createPda_touches {seeds : List (List UInt8)} {space : Nat} (hpayer : payer.key ∈ spend)
    (haccount : account.key ∈ write)
    (h : createPda L payer account accounts seeds space = .ok L') :
    Touches spend write credit L L' := by
  simp only [createPda, Outcome.bind_ok] at h
  obtain ⟨_, -, h⟩ := h
  exact systemCreateAccount_touches hpayer haccount h

theorem store_touches {T : Type} [Borsh T] {state : T} (hpayer : payer.key ∈ spend)
    (haccount : account.key ∈ write) (h : store L payer account state = .ok L') :
    Touches spend write credit L L' := by
  simp only [store, Outcome.bind_ok, Outcome.pure_ok] at h
  obtain ⟨L₁, hfund, L₂, hrealloc, rfl⟩ := h
  apply (fundRentExempt_touches hpayer hfund).trans
  have hsized : Touches spend write credit L₁ L₂ := by
    split at hrealloc
    · exact realloc_touches haccount hrealloc
    · cases Outcome.pure_ok.mp hrealloc
      exact .refl _
  exact hsized.trans (setData_touches haccount)

/-- The preparation shared by the handlers. -/
theorem prepared_touches {seeds : List (List UInt8)} {space : Nat} {e : Abort ProgramError}
    (hpayer : payer.key ∈ spend) (haccount : account.key ∈ write)
    (h : (if L.owner account.key = programId then pure L
      else if L.data account.key = [] then createPda L payer account accounts seeds space
      else throw e) = .ok L₁) : Touches spend write credit L L₁ := by
  split at h
  · cases Outcome.pure_ok.mp h
    exact .refl _
  · split at h
    · exact createPda_touches hpayer haccount h
    · exact (Outcome.throw_ok.mp h).elim

theorem settleAbtc_touches {rest : List AccountInfo} {price : UInt64}
    (hcredit : ∀ info ∈ rest.take 2, info.key ∈ credit)
    (h : settleAbtc L payer rest price = .ok L') : Touches spend write credit L L' := by
  have haccounts := settleAbtc_accounts h
  obtain ⟨buyerAta, sellerAta, _, _, _, _, _, rfl, -, -, moved⟩ := settleAbtc_ok h
  have hsource : buyerAta.key ∈ credit := hcredit _ List.mem_cons_self
  have hdestination : sellerAta.key ∈ credit :=
    hcredit _ (List.mem_cons_of_mem _ List.mem_cons_self)
  exact
    { pieces := .single (.other fun k => by simp only [Ledger.lamports, haccounts])
      spares := fun k _ => by
        simp only [Ledger.lamports, haccounts]
        exact UInt64.le_refl _
      owner := fun k _ => owner_of_accounts haccounts k
      data := fun k _ => data_of_accounts haccounts k
      tokens := fun k hk => by
        have hresult := moved.result
        split at hresult
        · rw [hresult]
        · rw [hresult.2, Function.update_of_ne (ne_of_mem_of_not_mem hdestination hk).symm,
            Function.update_of_ne (ne_of_mem_of_not_mem hsource hk).symm] }

theorem settled_touches {currency : QuoteCurrency} {payee : AccountInfo} {rest : List AccountInfo}
    {price : UInt64} (hpayer : payer.key ∈ spend)
    (hcredit : currency = .btc → ∀ info ∈ rest.take 2, info.key ∈ credit) (h : (match currency with
      | .arch => transferLamports L payer payee price
      | .btc => settleAbtc L payer rest price) = .ok L₁) : Touches spend write credit L L₁ := by
  cases currency with
  | arch => exact transferLamports_touches hpayer h
  | btc => exact settleAbtc_touches (hcredit rfl) h

/-! ## The handlers -/

/-- A load names the address of what it loads. -/
theorem loadConfig_namespace {config : RegistryConfig} (h : loadConfig L account = .ok config) :
    config.namespace = testnetNamespace := (loadConfig_ok.mp h).2.2.1

theorem loadName_address {config : RegistryConfig} {k : Bytes 32} {name : NameAccount}
    (hnamespace : config.namespace = testnetNamespace)
    (h : loadName L account config k = .ok name) : account.key = (Site.name k).address := by
  rw [(loadName_ok.mp h).2.2.2, hnamespace]
  rfl

theorem loadActiveListing_address {config : RegistryConfig} {k : Bytes 32}
    {listing : ListingAccount} (hnamespace : config.namespace = testnetNamespace)
    (h : loadActiveListing L account config k = .ok listing) :
    account.key = (Site.listing k).address := by
  rw [(loadActiveListing_ok.mp h).2.2.2.2, hnamespace]
  rfl

theorem loadActiveOffer_address {config : RegistryConfig} {k : Bytes 32} {buyer : ArchAddress}
    {offer : OfferAccount} (hnamespace : config.namespace = testnetNamespace)
    (h : loadActiveOffer L account config k buyer = .ok offer) :
    account.key = (Site.offer k buyer).address := by
  rw [(loadActiveOffer_ok.mp h).2.2.2.2.2, hnamespace]
  rfl

/-- The balances an action may lower: those of signers, and of the offer it settles. -/
def Action.spends (a : Action) (accounts : List AccountInfo) : Set ArchAddress :=
  {k | k ∈ signers accounts ∨
    ∃ h buyer, a.settlesOffer h buyer = true ∧ (Site.offer h buyer).address = k}

/-- The accounts an action may write. -/
def Action.writes (a : Action) (accounts : List AccountInfo) : Set ArchAddress :=
  {k | (∃ s ∈ a.written, s.address = k) ∨ ∃ info ∈ a.cleared accounts, info.key = k}

/-- The listing or offer that an action settles is quoted in aBTC. -/
def Action.inAbtc (a : Action) (L : Ledger) : Prop :=
  match a.instruction with
  | .buyName h => ∃ listing : ListingAccount,
      L.data (Site.listing h).address = encodeState listing ∧ listing.currency = .btc
  | .acceptOffer h buyer => ∃ offer : OfferAccount,
      L.data (Site.offer h buyer).address = encodeState offer ∧ offer.currency = .btc
  | _ => False

/-- The token accounts an action may change. -/
def Action.credits (a : Action) (accounts : List AccountInfo) (L : Ledger) : Set ArchAddress :=
  {k | a.inAbtc L ∧ ∃ info ∈ a.settled accounts, info.key = k}

/-- What an action touches at most. -/
def Action.Traces (a : Action) (accounts : List AccountInfo) (L L' : Ledger) : Prop :=
  signer? accounts = some a.signer ∧
    Touches (a.spends accounts) (a.writes accounts) (a.credits accounts L) L L'

theorem Action.spends_signer {a : Action} {info : AccountInfo} (hmem : info ∈ accounts)
    (hsigner : info.isSigner = true) : info.key ∈ a.spends accounts :=
  .inl ⟨info, hmem, hsigner, rfl⟩

theorem Action.writes_site {a : Action} {s : Site} {k : ArchAddress} (hs : s ∈ a.written)
    (hk : k = s.address) : k ∈ a.writes accounts := .inl ⟨s, hs, hk.symm⟩

theorem initializeRegistry_traces {networkId : UInt32} {authority : ArchAddress}
    (h : initializeRegistry L accounts networkId authority = .ok L') :
    ∃ signer, Action.Traces ⟨signer, .initializeRegistry networkId authority⟩ accounts L L' := by
  simp only [initializeRegistry, Outcome.bind_ok, Outcome.reject_ok, nextAccountInfo_ok,
    Prod.exists, requireSigner_ok, requireAddress_ok, exists_const, ne_eq, not_not] at h
  obtain ⟨rfl, signer, _, rfl, config, _, rfl, hsigner, hkey, rfl, L₁, hprepare, hstore⟩ := h
  have htouches {spend write credit : Set ArchAddress} (hpayer : signer.key ∈ spend)
      (hwrite : config.key ∈ write) : Touches spend write credit L L' := by
    refine Touches.trans ?_ (store_touches hpayer hwrite hstore)
    split at hprepare
    · simp only [Outcome.bind_ok, Outcome.pure_ok] at hprepare
      obtain ⟨_, -, rfl⟩ := hprepare
      exact .refl _
    · split at hprepare
      · exact createPda_touches hpayer hwrite hprepare
      · exact (Outcome.throw_ok.mp hprepare).elim
  exact ⟨signer.key, signer?_cons hsigner, htouches (Action.spends_signer List.mem_cons_self hsigner)
    (Action.writes_site (s := .config) List.mem_cons_self hkey)⟩

theorem register_traces {label : Str} {duration : UInt64}
    (h : register L accounts label = .ok L') :
    ∃ signer, Action.Traces ⟨signer, .register label duration⟩ accounts L L' := by
  simp only [register, Outcome.bind_ok, Outcome.mapError_ok, nextAccountInfo_ok, Prod.exists,
    requireSigner_ok, requireAddress_ok, ensureUnpaused_ok, exists_const] at h
  obtain ⟨_, hvalid, signer, _, rfl, cfg, _, rfl, account, _, rfl, hsigner, config, hconfig, -,
    name, hregister, hkey, L₁, hprepare, hstore⟩ := h
  have htouches {spend write credit : Set ArchAddress} (hpayer : signer.key ∈ spend)
      (hwrite : account.key ∈ write) : Touches spend write credit L L' := by
    refine Touches.trans ?_ (store_touches hpayer hwrite hstore)
    split at hprepare
    · split at hprepare
      · cases Outcome.pure_ok.mp hprepare
        exact .refl _
      · exact (Outcome.throw_ok.mp hprepare).elim
      · exact (Outcome.throw_ok.mp hprepare).elim
    · split at hprepare
      · exact createPda_touches hpayer hwrite hprepare
      · exact (Outcome.throw_ok.mp hprepare).elim
  rw [register_account hvalid hregister, loadConfig_namespace hconfig] at hkey
  exact ⟨signer.key, signer?_cons hsigner, htouches (Action.spends_signer List.mem_cons_self hsigner)
    (Action.writes_site (s := .name (labelHash label.bytes)) List.mem_cons_self hkey)⟩

theorem transfer_traces {k : Bytes 32} {newOwner : ArchAddress}
    (h : transfer L accounts k newOwner = .ok L') :
    ∃ signer, Action.Traces ⟨signer, .transfer k newOwner⟩ accounts L L' := by
  simp only [transfer, Outcome.bind_ok, Outcome.reject_ok, nextAccountInfo_ok, Prod.exists,
    requireSigner_ok, requireAddress_ok, requireOwner_ok, ensureUnpaused_ok, exists_const] at h
  obtain ⟨-, signer, _, rfl, cfg, _, rfl, account, _, rfl, listing, _, rfl, hsigner, config,
    hconfig, -, name, hload, -, -, active, -, -, hstore⟩ := h
  refine ⟨signer.key, signer?_cons hsigner, ?_⟩
  have hkey := loadName_address (loadConfig_namespace hconfig) hload
  exact store_touches (Action.spends_signer List.mem_cons_self hsigner)
    (Action.writes_site (s := .name k) List.mem_cons_self hkey) hstore

theorem setRecord_traces {k : Bytes 32} {recordType : RecordType} {value : RecordValue}
    {expected : UInt64} (h : setRecord L accounts k recordType value expected = .ok L') :
    ∃ signer, Action.Traces ⟨signer, .setRecord k recordType value expected⟩ accounts L L' := by
  simp only [setRecord, Outcome.bind_ok, Outcome.reject_ok, Outcome.mapError_ok,
    Outcome.orElseError_ok, nextAccountInfo_ok, Prod.exists, requireSigner_ok, requireAddress_ok,
    requireOwner_ok, exists_const] at h
  obtain ⟨signer, _, rfl, cfg, _, rfl, account, _, rfl, slotAccount, _, rfl, hsigner, config,
    hconfig, name, hload, -, -, address, hderive, hkey, existing, -, record, -, L₁, hprepare,
    hstore⟩ := h
  have htouches {spend write credit : Set ArchAddress} (hpayer : signer.key ∈ spend)
      (hwrite : slotAccount.key ∈ write) : Touches spend write credit L L' := by
    refine Touches.trans ?_ (store_touches hpayer hwrite hstore)
    split at hprepare
    · split at hprepare
      · cases Outcome.pure_ok.mp hprepare
        exact .refl _
      · split at hprepare
        · split at hprepare
          · exact createPda_touches hpayer hwrite hprepare
          · exact createPda_touches hpayer hwrite hprepare
        · exact (Outcome.throw_ok.mp hprepare).elim
    · cases Outcome.pure_ok.mp hprepare
      exact .refl _
  rw [loadConfig_namespace hconfig] at hderive
  rw [address_of_derived hderive] at hkey
  exact ⟨signer.key, signer?_cons hsigner, htouches (Action.spends_signer List.mem_cons_self hsigner)
    (Action.writes_site (s := .record k (Action.slotOfValue recordType value)) List.mem_cons_self
      hkey)⟩

theorem deleteRecord_traces {k : Bytes 32} {recordType : RecordType} {textKey : Str}
    {expected : UInt64} (h : deleteRecord L accounts k recordType textKey expected = .ok L') :
    ∃ signer, Action.Traces ⟨signer, .deleteRecord k recordType textKey expected⟩ accounts L L' := by
  simp only [deleteRecord, Outcome.bind_ok, Outcome.reject_ok, Outcome.orElseError_ok,
    nextAccountInfo_ok, Prod.exists, requireSigner_ok, requireAddress_ok, requireOwner_ok,
    exists_const] at h
  obtain ⟨signer, _, rfl, cfg, _, rfl, account, _, rfl, slotAccount, _, rfl, hsigner, config,
    hconfig, name, hload, -, key, hdeletion, address, hderive, hkey, -, existing, -, -, -,
    hrealloc⟩ := h
  rw [loadConfig_namespace hconfig] at hderive
  rw [address_of_derived hderive, deletionKey_ok hdeletion] at hkey
  exact ⟨signer.key, signer?_cons hsigner,
    realloc_touches (Action.writes_site List.mem_cons_self hkey) hrealloc⟩

theorem setPrimary_traces {k : Bytes 32} (h : setPrimary L accounts k = .ok L') :
    ∃ signer, Action.Traces ⟨signer, .setPrimary k⟩ accounts L L' := by
  simp only [setPrimary, Outcome.bind_ok, nextAccountInfo_ok, Prod.exists, requireSigner_ok,
    requireAddress_ok, requireOwner_ok, exists_const] at h
  obtain ⟨signer, _, rfl, cfg, _, rfl, account, _, rfl, pointer, _, rfl, hsigner, config,
    hconfig, name, hload, howner, hpointer, L₁, hprepare, L₂, hstore, hstore'⟩ := h
  have hnamespace := loadConfig_namespace hconfig
  rw [hnamespace, ← howner] at hpointer
  have htouches {spend write credit : Set ArchAddress} (hpayer : signer.key ∈ spend)
      (hname : account.key ∈ write) (hreverse : pointer.key ∈ write) :
      Touches spend write credit L L' :=
    ((prepared_touches hpayer hreverse hprepare).trans (store_touches hpayer hname hstore)).trans
      (store_touches hpayer hreverse hstore')
  exact ⟨signer.key, signer?_cons hsigner, htouches (Action.spends_signer List.mem_cons_self hsigner)
    (Action.writes_site List.mem_cons_self (loadName_address hnamespace hload))
    (Action.writes_site (s := .reverse signer.key) (List.mem_cons_of_mem _ List.mem_cons_self)
      hpointer)⟩

theorem clearPrimary_traces (h : clearPrimary L accounts = .ok L') :
    ∃ signer, Action.Traces ⟨signer, .clearPrimary⟩ accounts L L' := by
  simp only [clearPrimary, Outcome.bind_ok, nextAccountInfo_ok, Prod.exists, requireSigner_ok,
    exists_const] at h
  obtain ⟨signer, _, rfl, pointer, _, rfl, hsigner, _, -, reverse, -, _, -, hrealloc⟩ := h
  refine ⟨signer.key, signer?_cons hsigner, realloc_touches ?_ hrealloc⟩
  exact .inr ⟨pointer, List.mem_cons_self, rfl⟩

theorem listName_traces {k : Bytes 32} {currency : QuoteCurrency} {price : UInt64}
    (h : listName L accounts k currency price = .ok L') :
    ∃ signer, Action.Traces ⟨signer, .listName k currency price⟩ accounts L L' := by
  simp only [listName, Outcome.bind_ok, Outcome.reject_ok, nextAccountInfo_ok, Prod.exists,
    requireSigner_ok, requireAddress_ok, requireOwner_ok, ensureUnpaused_ok, exists_const] at h
  obtain ⟨-, signer, _, rfl, cfg, _, rfl, account, _, rfl, listing, _, rfl, hsigner, config,
    hconfig, -, name, -, -, hkey, active, -, -, L₁, hprepare, hstore⟩ := h
  rw [loadConfig_namespace hconfig] at hkey
  have htouches {spend write credit : Set ArchAddress} (hpayer : signer.key ∈ spend)
      (hwrite : listing.key ∈ write) : Touches spend write credit L L' :=
    (prepared_touches hpayer hwrite hprepare).trans (store_touches hpayer hwrite hstore)
  exact ⟨signer.key, signer?_cons hsigner, htouches (Action.spends_signer List.mem_cons_self hsigner)
    (Action.writes_site (s := .listing k) List.mem_cons_self hkey)⟩

theorem cancelListing_traces {k : Bytes 32} (h : cancelListing L accounts k = .ok L') :
    ∃ signer, Action.Traces ⟨signer, .cancelListing k⟩ accounts L L' := by
  simp only [cancelListing, Outcome.bind_ok, Outcome.reject_ok, nextAccountInfo_ok, Prod.exists,
    requireSigner_ok, requireOwner_ok, ensureUnpaused_ok, exists_const] at h
  obtain ⟨signer, _, rfl, cfg, _, rfl, account, _, rfl, listing, _, rfl, hsigner, config,
    hconfig, -, name, -, -, state, hactive, -, hstore⟩ := h
  have hkey := loadActiveListing_address (loadConfig_namespace hconfig) hactive
  exact ⟨signer.key, signer?_cons hsigner,
    store_touches (Action.spends_signer List.mem_cons_self hsigner)
      (Action.writes_site List.mem_cons_self hkey) hstore⟩

theorem buyName_traces {k : Bytes 32} (h : buyName L accounts k = .ok L') :
    ∃ signer, Action.Traces ⟨signer, .buyName k⟩ accounts L L' := by
  simp only [buyName, Outcome.bind_ok, Outcome.reject_ok, nextAccountInfo_ok, Prod.exists,
    requireSigner_ok, ensureUnpaused_ok, exists_const] at h
  obtain ⟨signer, _, rfl, seller, _, rfl, cfg, _, rfl, account, _, rfl, listing, rest, rfl, hsigner,
    config, hconfig, -, name, hload, state, hactive, -, -, -, L₁, hsettle, L₂, hstore, hstore'⟩ := h
  have hnamespace := loadConfig_namespace hconfig
  have htouches {spend write credit : Set ArchAddress} (hpayer : signer.key ∈ spend)
      (hcredit : state.currency = .btc → ∀ info ∈ rest.take 2, info.key ∈ credit)
      (hname : account.key ∈ write) (hlisting : listing.key ∈ write) :
      Touches spend write credit L L' :=
    ((settled_touches hpayer hcredit hsettle).trans (store_touches hpayer hname hstore)).trans
      (store_touches hpayer hlisting hstore')
  have hkey := loadActiveListing_address hnamespace hactive
  have hstored := (loadActiveListing_ok.mp hactive).1.2
  rw [hkey] at hstored
  exact ⟨signer.key, signer?_cons hsigner, htouches (Action.spends_signer List.mem_cons_self hsigner)
    (fun hbtc info hinfo => ⟨⟨state, hstored, hbtc⟩, info, hinfo, rfl⟩)
    (Action.writes_site List.mem_cons_self (loadName_address hnamespace hload))
    (Action.writes_site (List.mem_cons_of_mem _ List.mem_cons_self) hkey)⟩

theorem makeOffer_traces {k : Bytes 32} {currency : QuoteCurrency} {price : UInt64}
    (h : makeOffer L accounts k currency price = .ok L') :
    ∃ signer, Action.Traces ⟨signer, .makeOffer k currency price⟩ accounts L L' := by
  simp only [makeOffer, Outcome.bind_ok, Outcome.reject_ok, nextAccountInfo_ok, Prod.exists,
    requireSigner_ok, requireAddress_ok, ensureUnpaused_ok, exists_const] at h
  obtain ⟨-, signer, _, rfl, cfg, _, rfl, account, _, rfl, offer, _, rfl, hsigner, config,
    hconfig, -, name, -, -, hkey, active, -, -, L₁, hprepare, L₂, hstore, hpay⟩ := h
  rw [loadConfig_namespace hconfig] at hkey
  have htouches {spend write credit : Set ArchAddress} (hpayer : signer.key ∈ spend)
      (hwrite : offer.key ∈ write) : Touches spend write credit L L' := by
    refine ((prepared_touches hpayer hwrite hprepare).trans
      (store_touches hpayer hwrite hstore)).trans ?_
    split at hpay
    · exact transferLamports_touches hpayer hpay
    · cases Outcome.pure_ok.mp hpay
      exact .refl _
  exact ⟨signer.key, signer?_cons hsigner, htouches (Action.spends_signer List.mem_cons_self hsigner)
    (Action.writes_site (s := .offer k signer.key) List.mem_cons_self hkey)⟩

theorem cancelOffer_traces {k : Bytes 32} (h : cancelOffer L accounts k = .ok L') :
    ∃ signer, Action.Traces ⟨signer, .cancelOffer k⟩ accounts L L' := by
  simp only [cancelOffer, Outcome.bind_ok, nextAccountInfo_ok, Prod.exists, requireSigner_ok,
    ensureUnpaused_ok, exists_const] at h
  obtain ⟨signer, _, rfl, cfg, _, rfl, offer, _, rfl, hsigner, config, hconfig, -, state, hactive,
    L₁, hpay, hstore⟩ := h
  have hkey := loadActiveOffer_address (loadConfig_namespace hconfig) hactive
  have htouches {spend write credit : Set ArchAddress} (hpayer : signer.key ∈ spend)
      (hoffer : offer.key ∈ spend) (hwrite : offer.key ∈ write) :
      Touches spend write credit L L' := by
    refine Touches.trans ?_ (store_touches hpayer hwrite hstore)
    split at hpay
    · exact transferLamports_touches hoffer hpay
    · cases Outcome.pure_ok.mp hpay
      exact .refl _
  exact ⟨signer.key, signer?_cons hsigner, htouches (Action.spends_signer List.mem_cons_self hsigner)
    (.inr ⟨k, signer.key, decide_eq_true ⟨rfl, rfl⟩, hkey.symm⟩)
    (Action.writes_site List.mem_cons_self hkey)⟩

theorem acceptOffer_traces {k : Bytes 32} {buyer : ArchAddress}
    (h : acceptOffer L accounts k buyer = .ok L') :
    ∃ signer, Action.Traces ⟨signer, .acceptOffer k buyer⟩ accounts L L' := by
  simp only [acceptOffer, Outcome.bind_ok, Outcome.reject_ok, nextAccountInfo_ok, Prod.exists,
    requireSigner_ok, requireOwner_ok, requireAddress_ok, ensureUnpaused_ok, exists_const] at h
  obtain ⟨signer, _, rfl, buyerInfo, _, rfl, cfg, _, rfl, account, _, rfl, offer, _, rfl, listing,
    rest, rfl, hsigner, config, hconfig, -, name, hload, -, -, state, hactive, L₁, hpay, hlistingKey,
    active, -, L₂, hunlist, L₃, hstore, hstore'⟩ := h
  have hnamespace := loadConfig_namespace hconfig
  have hofferKey := loadActiveOffer_address hnamespace hactive
  have hstored := (loadActiveOffer_ok.mp hactive).1.2
  rw [hofferKey] at hstored
  rw [hnamespace] at hlistingKey
  have htouches {spend write credit : Set ArchAddress} (hpayer : signer.key ∈ spend)
      (hspend : offer.key ∈ spend)
      (hcredit : state.currency = .btc → ∀ info ∈ rest.take 2, info.key ∈ credit)
      (hname : account.key ∈ write) (hlisting : listing.key ∈ write)
      (hoffer : offer.key ∈ write) : Touches spend write credit L L' := by
    have hpaid : Touches spend write credit L L₁ := by
      split at hpay
      · exact transferLamports_touches hspend hpay
      · rename_i hbtc
        simp only [Outcome.bind_ok] at hpay
        obtain ⟨_, -, hpay⟩ := hpay
        exact settleAbtc_touches (hcredit hbtc) hpay
    have hunlisted : Touches spend write credit L₁ L₂ := by
      split at hunlist
      · simp only [Outcome.bind_ok] at hunlist
        obtain ⟨state, -, hunlist⟩ := hunlist
        exact store_touches hpayer hlisting hunlist
      · cases Outcome.pure_ok.mp hunlist
        exact .refl _
    exact ((hpaid.trans hunlisted).trans (store_touches hpayer hname hstore)).trans
      (store_touches hpayer hoffer hstore')
  exact ⟨signer.key, signer?_cons hsigner, htouches (Action.spends_signer List.mem_cons_self hsigner)
    (.inr ⟨k, buyer, decide_eq_true ⟨rfl, rfl⟩, hofferKey.symm⟩)
    (fun hbtc info hinfo => ⟨⟨state, hstored, hbtc⟩, info, hinfo, rfl⟩)
    (Action.writes_site List.mem_cons_self (loadName_address hnamespace hload))
    (Action.writes_site (s := .listing k) (List.mem_cons_of_mem _ List.mem_cons_self) hlistingKey)
    (Action.writes_site (List.mem_cons_of_mem _ (List.mem_cons_of_mem _ List.mem_cons_self))
      hofferKey)⟩

/-- An accepted instruction leaves no traces beside its own. -/
theorem dispatch_traces {instruction : NameInstruction}
    (h : dispatch L accounts instruction = .ok L') :
    ∃ signer, Action.Traces ⟨signer, instruction⟩ accounts L L' := by
  cases instruction with
  | initializeRegistry => exact initializeRegistry_traces h
  | register => exact register_traces h
  | transfer => exact transfer_traces h
  | setRecord => exact setRecord_traces h
  | deleteRecord => exact deleteRecord_traces h
  | setPrimary => exact setPrimary_traces h
  | clearPrimary => exact clearPrimary_traces h
  | listName => exact listName_traces h
  | cancelListing => exact cancelListing_traces h
  | buyName => exact buyName_traces h
  | makeOffer => exact makeOffer_traces h
  | cancelOffer => exact cancelOffer_traces h
  | acceptOffer => exact acceptOffer_traces h
  | renew | reclaimExpired | updateConfig => exact (Outcome.throw_ok.mp h).elim

/-! ## IDL instructions -/

namespace Idl

/-- The account that a `Close` drains. -/
def closed (accounts : List AccountInfo) : List UInt8 → List AccountInfo
  | [] => []
  | tag :: _ => if tag = 5 then accounts.take 1 else []

/-- The accounts an IDL instruction may write: the canonical account while it is
unused, a blank account of the program, and an IDL account whose authority signs. -/
inductive Target (L : Ledger) (accounts : List AccountInfo) : ArchAddress → Prop
  | canonical {k : ArchAddress} (hcanonical : createWithSeed baseAddress seed programId = some k)
      (hunused : L.owner k = systemProgram) (hblank : L.data k = []) : Target L accounts k
  | blank {k : ArchAddress} (howned : L.owner k = programId) (hlength : headerLen ≤ (L.data k).length)
      (hzeros : (L.data k).take 8 = List.replicate 8 0) : Target L accounts k
  | authorized {idl signer : AccountInfo} {n : Nat} {body : List UInt8} (hmem : signer ∈ accounts)
      (h : Authorized L idl signer n body) : Target L accounts idl.key

/-- The balances an IDL instruction may lower. -/
def spends (accounts : List AccountInfo) (payload : List UInt8) : Set ArchAddress :=
  {k | k ∈ signers accounts ∨ ∃ info ∈ closed accounts payload, info.key = k}

/-- What an IDL instruction touches at most: one account. -/
def Traces (accounts : List AccountInfo) (spend : Set ArchAddress) (L L' : Ledger) : Prop :=
  ∃ k, Target L accounts k ∧ Touches spend {k} ∅ L L'

omit [Deployment] in
theorem signer_mem {idl signer : AccountInfo} {rest : List AccountInfo} :
    signer ∈ idl :: signer :: rest := List.mem_cons_of_mem _ List.mem_cons_self

theorem createAccount_traces {dataLen : Nat} (hspend : signers accounts ⊆ spend)
    (h : createAccount L accounts dataLen = .ok L') : Traces accounts spend L L' := by
  obtain ⟨payer, target, base, system, program, rest, L₁, rfl, hsigner, -, -, -, -, hexpected, hcreate,
    hheader⟩ := createAccount_ok.mp h
  have created := systemCreateAccount_ok hcreate
  obtain ⟨-, rfl⟩ := writeHeader_ok.mp hheader
  refine ⟨target.key, .canonical hexpected created.unused created.blank, ?_⟩
  have hpayer : payer.key ∈ spend := hspend ⟨payer, List.mem_cons_self, hsigner, rfl⟩
  exact (systemCreateAccount_touches hpayer (Set.mem_singleton _) hcreate).trans
    (setData_touches (Set.mem_singleton _))

theorem createBuffer_traces (h : createBuffer L accounts = .ok L') : Traces accounts spend L L' := by
  obtain ⟨buffer, signer, rest, rfl, -, -, howned, hlength, hzeros, rfl⟩ := createBuffer_ok.mp h
  exact ⟨buffer.key, .blank howned hlength hzeros, setData_touches (Set.mem_singleton _)⟩

theorem write_traces {chunk : List UInt8} (h : Idl.write L accounts chunk = .ok L') :
    Traces accounts spend L L' := by
  obtain ⟨idl, signer, rest, n, body, rfl, authorized, -, rfl⟩ := write_ok.mp h
  exact ⟨idl.key, .authorized signer_mem authorized, setData_touches (Set.mem_singleton _)⟩

theorem setBuffer_traces (h : setBuffer L accounts = .ok L') : Traces accounts spend L L' := by
  obtain ⟨buffer, idl, signer, rest, n, body, m, target, rfl, -, authorized, -, -, -, rfl⟩ :=
    setBuffer_ok.mp h
  exact ⟨idl.key, .authorized (List.mem_cons_of_mem _ signer_mem) authorized, setData_touches (Set.mem_singleton _)⟩

theorem setAuthority_traces {newAuthority : ArchAddress}
    (h : setAuthority L accounts newAuthority = .ok L') : Traces accounts spend L L' := by
  obtain ⟨idl, signer, rest, n, body, rfl, authorized, rfl⟩ := setAuthority_ok.mp h
  exact ⟨idl.key, .authorized signer_mem authorized, setData_touches (Set.mem_singleton _)⟩

theorem close_traces (hspend : ∀ info ∈ accounts.take 1, info.key ∈ spend)
    (h : close L accounts = .ok L') : Traces accounts spend L L' := by
  obtain ⟨idl, signer, destination, rest, n, body, rfl, authorized, hfits, hlamports, howner, hdata,
    htokens⟩ := close_ok h
  refine ⟨idl.key, .authorized signer_mem authorized, ?_⟩
  have hidl : idl.key ∈ spend := hspend idl List.mem_cons_self
  exact
    { pieces := .single (.close h)
      spares := fun k hk => by
        have hne : k ≠ idl.key := (ne_of_mem_of_not_mem hidl hk).symm
        rw [hlamports, Ledger.lamports_setLamports]
        split
        · rename_i hdestination
          rw [UInt64.le_iff_toNat_le, toNat_add_of_lt hfits, ← hdestination,
            Ledger.lamports_setLamports, if_neg hne]
          omega
        · rw [Ledger.lamports_setLamports, if_neg hne]
          exact UInt64.le_refl _
      owner := fun k _ => howner k
      data := fun k hk => by rw [hdata, if_neg (Set.mem_singleton_iff.not.mp hk)]
      tokens := fun k _ => congrFun htokens k }

theorem resize_traces {dataLen : Nat} (hspend : signers accounts ⊆ spend)
    (h : resize L accounts dataLen = .ok L') : Traces accounts spend L L' := by
  obtain ⟨idl, signer, system, rest, body, rfl, -, authorized, h⟩ := resize_ok.mp h
  refine ⟨idl.key, .authorized signer_mem authorized, ?_⟩
  split at h
  · rw [h]
    exact .refl _
  · obtain ⟨L₁, hfund, hrealloc⟩ := h
    have hpayer : signer.key ∈ spend := hspend ⟨signer, signer_mem, authorized.signs, rfl⟩
    exact (fundRentExempt_touches hpayer hfund).trans 
      (realloc_touches (Set.mem_singleton _) hrealloc)

omit [Deployment] in
/-- The payload of a `Close` begins with its tag. -/
theorem closed_of_decode {payload : List UInt8} (h : Instruction.decode payload = .ok .close) :
    closed accounts payload = accounts.take 1 := by
  cases payload with
  | nil => exact (Outcome.throw_ok.mp h).elim
  | cons tag rest =>
      have hother {α : Type} {x : ProgramResult α} {f : α → Instruction} (hf : ∀ a, f a ≠ .close) :
          (do let a ← x; pure (f a)) ≠ (.ok .close : ProgramResult Instruction) := by
        intro h
        obtain ⟨a, -, h⟩ := Outcome.bind_ok.mp h
        exact hf a (Outcome.pure_ok.mp h)
      simp only [Instruction.decode] at h
      repeat' split at h
      · exact absurd h (hother (by rintro _ ⟨⟩))
      · cases Outcome.pure_ok.mp h
      · exact absurd h (hother (by rintro _ ⟨⟩))
      · cases Outcome.pure_ok.mp h
      · exact absurd h (hother (by rintro _ ⟨⟩))
      · rename_i htag
        rw [closed, if_pos htag]
      · exact absurd h (hother (by rintro _ ⟨⟩))
      · exact (Outcome.throw_ok.mp h).elim

theorem process_traces {payload : List UInt8} (h : process L accounts payload = .ok L') :
    Traces accounts (spends accounts payload) L L' := by
  have hsigners : signers accounts ⊆ spends accounts payload := fun k hk => .inl hk
  obtain ⟨instruction, hdecode, h⟩ := process_ok.mp h
  cases instruction with
  | create => exact createAccount_traces hsigners h
  | createBuffer => exact createBuffer_traces h
  | write => exact write_traces h
  | setBuffer => exact setBuffer_traces h
  | setAuthority => exact setAuthority_traces h
  | close =>
      refine close_traces (fun info hinfo => .inr ⟨info, ?_, rfl⟩) h
      rwa [closed_of_decode hdecode]
  | resize => exact resize_traces hsigners h

end Idl

/-- What a call touches, as an instruction of the registry or of the IDL account. -/
theorem processInstruction_traces {c : Call} (h : processInstruction L c.accounts c.data = .ok L') :
    (∃ a, c.action? = some a ∧ a.Traces c.accounts L L') ∨
      ∃ payload, Idl.payload? c.data = some payload ∧
        Idl.Traces c.accounts (Idl.spends c.accounts payload) L L' := by
  unfold processInstruction at h
  cases hpayload : Idl.payload? c.data with
  | some payload =>
      rw [hpayload] at h
      exact .inr ⟨payload, rfl, Idl.process_traces h⟩
  | none =>
      rw [hpayload] at h
      simp only [Outcome.bind_ok, Outcome.orElseError_ok] at h
      obtain ⟨instruction, hdeserialize, hdispatch⟩ := h
      obtain ⟨signer, traces⟩ := dispatch_traces hdispatch
      refine .inl ⟨_, ?_, traces⟩
      simp only [Call.action?, hpayload, hdeserialize, traces.1, Option.bind_some, Option.map_some]

end

end ArchNameService
