import ArchNameService.Lib.Balance
import ArchNameService.Refinement.Site
import Mathlib.Data.FinEnum
import Mathlib.Data.Fintype.Vector

/-!
# What the account helpers do to a ledger

Each helper has one lemma that says all it does when it succeeds; the handlers
are followed through these and never through the helpers' bodies.
-/

namespace ArchNameService
open Deployment

variable {L L' L₁ : Ledger} {payer account : AccountInfo}

/-- No account but the payer loses lamports. -/
def Spares (payer : ArchAddress) (L L' : Ledger) : Prop :=
  ∀ k, k ≠ payer → L.lamports k ≤ L'.lamports k

theorem Spares.trans {p : ArchAddress} (h : Spares p L L₁) (h' : Spares p L₁ L') :
    Spares p L L' := fun k hk => UInt64.le_trans (h k hk) (h' k hk)

theorem Spares.of_eq {p : ArchAddress} (h : ∀ k, L'.lamports k = L.lamports k) : Spares p L L' :=
  fun k _ => by rw [h k]; exact UInt64.le_refl _

/-! ## Lamports -/

/-- All the lamports there are. -/
def Ledger.total (L : Ledger) : Nat := Balance.sum (fun a => a.lamports.toNat) L.accounts

theorem Ledger.total_of_eq (h : ∀ k, L'.lamports k = L.lamports k) : L'.total = L.total :=
  Balance.sum_congr fun k => congrArg UInt64.toNat (h k)

theorem Ledger.total_setLamports (k : ArchAddress) (n : UInt64) :
    (L.setLamports k n).total + (L.lamports k).toNat = L.total + n.toNat :=
  Balance.sum_update ..

theorem Ledger.lamports_move {p k : ArchAddress} (hne : p ≠ k) (n : UInt64) (j : ArchAddress) :
    (L.move p k n).lamports j =
      if j = k then L.lamports k + n else if j = p then L.lamports p - n else L.lamports j := by
  simp only [Ledger.move, Ledger.lamports_setLamports, if_neg hne.symm]

theorem toNat_add_of_lt {a b : UInt64} (h : a.toNat + b.toNat < 2 ^ 64) :
    (a + b).toNat = a.toNat + b.toNat := by
  rw [UInt64.toNat_add, Nat.mod_eq_of_lt h]

theorem toNat_sub_of_le {a b : UInt64} (h : b ≤ a) : (a - b).toNat = a.toNat - b.toNat :=
  UInt64.toNat_sub_of_le _ _ h

theorem add_missing {required current : UInt64} (h : current ≤ required) :
    current + (required - current) = required := by
  apply UInt64.toNat_inj.mp
  have hle : current.toNat ≤ required.toNat := UInt64.le_iff_toNat_le.mp h
  have hlt := required.toNat_lt
  rw [toNat_add_of_lt] <;> rw [toNat_sub_of_le h] <;> omega

theorem spares_move {p k : ArchAddress} {n : UInt64}
    (hfits : p ≠ k → (L.lamports k).toNat + n.toNat < 2 ^ 64) : Spares p L (L.move p k n) := by
  intro j hj
  by_cases hpk : p = k
  · subst hpk
    simp only [Ledger.move, Ledger.lamports_setLamports, if_neg hj]
    exact UInt64.le_refl _
  · rw [Ledger.lamports_move hpk, if_neg hj]
    split
    · rename_i hjk
      subst hjk
      rw [UInt64.le_iff_toNat_le, toNat_add_of_lt (hfits hpk)]
      omega
    · exact UInt64.le_refl _

theorem Ledger.total_move {p k : ArchAddress} {n : UInt64} (hcovered : n ≤ L.lamports p)
    (hfits : p ≠ k → (L.lamports k).toNat + n.toNat < 2 ^ 64) : (L.move p k n).total = L.total := by
  have hdebit := Ledger.total_setLamports (L := L) p (L.lamports p - n)
  have hcredit := Ledger.total_setLamports (L := L.setLamports p (L.lamports p - n)) k
    ((L.setLamports p (L.lamports p - n)).lamports k + n)
  have hle : n.toNat ≤ (L.lamports p).toNat := UInt64.le_iff_toNat_le.mp hcovered
  have hsub := toNat_sub_of_le hcovered
  have hadd : ((L.setLamports p (L.lamports p - n)).lamports k + n).toNat =
      ((L.setLamports p (L.lamports p - n)).lamports k).toNat + n.toNat := by
    apply toNat_add_of_lt
    rw [Ledger.lamports_setLamports]
    split
    · have hlt := (L.lamports p).toNat_lt
      omega
    · rename_i hne
      exact hfits (Ne.symm hne)
  change ((L.setLamports p (L.lamports p - n)).setLamports k _).total = L.total
  omega

/-- A transfer of lamports between two accounts. -/
structure Paid (source destination : ArchAddress) (amount : UInt64) (L L' : Ledger) : Prop where
  ne : source ≠ destination
  covered : amount ≤ L.lamports source
  fits : (L.lamports destination).toNat + amount.toNat < 2 ^ 64
  result : L' = L.move source destination amount

theorem transferLamports_ok {source destination : AccountInfo} {amount : UInt64} :
    transferLamports L source destination amount = .ok L' ↔
      Paid source.key destination.key amount L L' := by
  simp only [transferLamports, Outcome.bind_ok, Outcome.reject_ok, Outcome.orElseError_ok,
    Outcome.pure_ok, checkedAdd_eq_some, Ledger.lamports_setLamports]
  constructor
  · rintro ⟨_, hne, _, hcovered, credited, ⟨hfits, rfl⟩, rfl⟩
    rw [if_neg (Ne.symm hne)] at hfits
    exact
      { ne := hne
        covered := UInt64.not_lt.mp hcovered
        fits := hfits
        result := by simp only [Ledger.move, Ledger.lamports_setLamports] }
  · rintro ⟨hne, hcovered, hfits, rfl⟩
    refine ⟨(), hne, (), UInt64.not_lt.mpr hcovered, _, ⟨?_, rfl⟩, ?_⟩
    · rwa [if_neg (Ne.symm hne)]
    · simp only [Ledger.move, Ledger.lamports_setLamports]

namespace Paid

variable {source destination : ArchAddress} {amount : UInt64}
  (paid : Paid source destination amount L L')
include paid

theorem owner (k : ArchAddress) : L'.owner k = L.owner k := by
  rw [paid.result, Ledger.owner_move]

theorem data (k : ArchAddress) : L'.data k = L.data k := by
  rw [paid.result, Ledger.data_move]

theorem tokens : L'.tokens = L.tokens := by rw [paid.result, Ledger.tokens_move]

theorem content [Deployment] (k : ArchAddress) : L'.content k = L.content k := by
  simp only [Ledger.content, paid.owner, paid.data]

theorem debited : (L'.lamports source).toNat = (L.lamports source).toNat - amount.toNat := by
  rw [paid.result, Ledger.lamports_move paid.ne, if_neg paid.ne, if_pos rfl,
    toNat_sub_of_le paid.covered]

theorem credited : (L'.lamports destination).toNat = (L.lamports destination).toNat + amount.toNat := by
  rw [paid.result, Ledger.lamports_move paid.ne, if_pos rfl, toNat_add_of_lt paid.fits]

theorem others {k : ArchAddress} (hs : k ≠ source) (hd : k ≠ destination) :
    L'.lamports k = L.lamports k := by
  rw [paid.result, Ledger.lamports_move paid.ne, if_neg hd, if_neg hs]

theorem spares : Spares source L L' := by
  rw [paid.result]
  exact spares_move fun _ => paid.fits

theorem total : L'.total = L.total := by
  rw [paid.result]
  exact Ledger.total_move paid.covered fun _ => paid.fits

end Paid

variable [Deployment]

theorem fundRentExempt_ok {space : Nat} (h : fundRentExempt L payer account space = .ok L') :
    (minimumRent space ≤ L.lamports account.key ∧ L' = L) ∨
    (L.lamports account.key < minimumRent space ∧
      Paid payer.key account.key (minimumRent space - L.lamports account.key) L L') := by
  simp only [fundRentExempt] at h
  split at h
  · rename_i hrent
    exact .inl ⟨hrent, (Outcome.pure_ok.mp h).symm⟩
  · rename_i hrent
    simp only [Outcome.bind_ok, Outcome.reject_ok, Outcome.pure_ok] at h
    obtain ⟨_, hne, _, hcovered, rfl⟩ := h
    have hless := UInt64.not_le.mp hrent
    refine .inr ⟨hless, hne, UInt64.not_lt.mp hcovered, ?_, rfl⟩
    have hle := UInt64.le_iff_toNat_le.mp (UInt64.le_of_lt hless)
    have hlt := (minimumRent space).toNat_lt
    rw [toNat_sub_of_le (UInt64.le_of_lt hless)]
    omega

theorem fundRentExempt_enough {space : Nat} (h : minimumRent space ≤ L.lamports account.key) :
    fundRentExempt L payer account space = .ok L := by
  simp only [fundRentExempt, if_pos h]
  rfl

/-- Topping up an account leaves it its rent, and costs nobody but the payer. -/
structure Topped (payer k : ArchAddress) (space : Nat) (L L' : Ledger) : Prop where
  owner : ∀ j, L'.owner j = L.owner j
  data : ∀ j, L'.data j = L.data j
  tokens : L'.tokens = L.tokens
  spares : Spares payer L L'
  total : L'.total = L.total
  rent : minimumRent space ≤ L'.lamports k

theorem fundRentExempt_topped {space : Nat} (h : fundRentExempt L payer account space = .ok L') :
    Topped payer.key account.key space L L' := by
  obtain ⟨hrent, rfl⟩ | ⟨hless, paid⟩ := fundRentExempt_ok h
  · exact ⟨fun _ => rfl, fun _ => rfl, rfl, .of_eq fun _ => rfl, rfl, hrent⟩
  · refine ⟨paid.owner, paid.data, paid.tokens, paid.spares, paid.total, ?_⟩
    rw [paid.result, Ledger.lamports_move paid.ne, if_pos rfl, add_missing (UInt64.le_of_lt hless)]
    exact UInt64.le_refl _

/-! ## Storing -/

/-- An account receives its bytes, and the rent for them out of the payer. -/
structure Stored (payer k : ArchAddress) (bytes : List UInt8) (L L' : Ledger) : Prop where
  owner : ∀ j, L'.owner j = L.owner j
  data : ∀ j, L'.data j = if j = k then bytes else L.data j
  tokens : L'.tokens = L.tokens
  spares : Spares payer L L'
  total : L'.total = L.total
  rent : minimumRent bytes.length ≤ L'.lamports k
  exact : minimumRent bytes.length ≤ L.lamports k → ∀ j, L'.lamports j = L.lamports j

theorem realloc_ok {n : Nat} (h : realloc L account n = .ok L') :
    (∀ k, L'.owner k = L.owner k) ∧ (∀ k, k ≠ account.key → L'.data k = L.data k) ∧
      L'.tokens = L.tokens ∧ ∀ k, L'.lamports k = L.lamports k := by
  unfold realloc at h
  split at h
  · simp only [Outcome.pure_ok] at h
    subst h
    exact ⟨fun _ => rfl, fun _ _ => rfl, rfl, fun _ => rfl⟩
  · simp only [Outcome.bind_ok, Outcome.pure_ok] at h
    obtain ⟨_, _, rfl⟩ := h
    exact ⟨fun k => by simp, fun k hk => by rw [Ledger.data_setData, if_neg hk], rfl,
      fun k => by simp⟩

theorem realloc_data {n : Nat} (h : realloc L account n = .ok L') :
    L'.data account.key = resizeData (L.data account.key) n := by
  unfold realloc at h
  split at h
  · rename_i hlength
    cases Outcome.pure_ok.mp h
    rw [resizeData, hlength, List.take_length, Nat.sub_self, List.replicate_zero, List.append_nil]
  · obtain ⟨-, -, hset⟩ := Outcome.bind_ok.mp h
    cases Outcome.pure_ok.mp hset
    rw [Ledger.data_setData, if_pos rfl]

theorem store_ok {T : Type} [Borsh T] {state : T} (h : store L payer account state = .ok L') :
    Stored payer.key account.key (encodeState state) L L' := by
  simp only [store, Outcome.bind_ok, Outcome.pure_ok] at h
  obtain ⟨L₁, hfund, L₂, hrealloc, rfl⟩ := h
  obtain ⟨howner, hdata, htokens, hspares, htotal, hrent⟩ := fundRentExempt_topped hfund
  have hframe : (∀ k, L₂.owner k = L₁.owner k) ∧
      (∀ k, k ≠ account.key → L₂.data k = L₁.data k) ∧ L₂.tokens = L₁.tokens ∧
      ∀ k, L₂.lamports k = L₁.lamports k := by
    split at hrealloc
    · exact realloc_ok hrealloc
    · simp only [Outcome.pure_ok] at hrealloc
      subst hrealloc
      exact ⟨fun _ => rfl, fun _ _ => rfl, rfl, fun _ => rfl⟩
  obtain ⟨howner', hdata', htokens', hlamports'⟩ := hframe
  exact
    { owner := fun j => by rw [Ledger.owner_setData, howner', howner]
      data := fun j => by
        rw [Ledger.data_setData]
        split
        · rfl
        · rename_i hj
          rw [hdata' j hj, hdata]
      tokens := by rw [Ledger.tokens_setData, htokens', htokens]
      spares := hspares.trans (.of_eq fun k => by rw [Ledger.lamports_setData, hlamports'])
      total := by
        rw [← htotal]
        exact Ledger.total_of_eq fun k => by rw [Ledger.lamports_setData, hlamports']
      rent := by rw [Ledger.lamports_setData, hlamports']; exact hrent
      exact := fun henough j => by
        obtain ⟨-, rfl⟩ | ⟨hless, -⟩ := fundRentExempt_ok hfund
        · rw [Ledger.lamports_setData, hlamports']
        · exact absurd henough (UInt64.not_le.mpr hless) }

/-- Storing over bytes of the same length, in an account that has its rent, takes nothing. -/
theorem store_in_place {T : Type} [Borsh T] {state : T}
    (hlength : (L.data account.key).length = (encodeState state).length)
    (hrent : minimumRent (encodeState state).length ≤ L.lamports account.key) :
    store L payer account state = .ok (L.setData account.key (encodeState state)) := by
  simp only [store, fundRentExempt_enough hrent, Outcome.bind_ok, Except.ok.injEq, exists_eq_left',
    hlength, ne_eq, not_true_eq_false, if_false, Outcome.pure_ok]

/-! ## Creating -/

/-- An unused account becomes an account of the program, of zero bytes. -/
structure Created (payer k : ArchAddress) (space : Nat) (L L' : Ledger) : Prop where
  unused : L.owner k = systemProgram
  blank : L.data k = []
  owner : ∀ j, L'.owner j = if j = k then programId else L.owner j
  data : ∀ j, L'.data j = if j = k then List.replicate space 0 else L.data j
  tokens : L'.tokens = L.tokens
  spares : Spares payer L L'
  total : L'.total = L.total
  rent : payer ≠ k → minimumRent space ≤ L'.lamports k

theorem systemCreateAccount_ok {accounts : List AccountInfo} {p k : ArchAddress} {space : Nat}
    (h : systemCreateAccount L accounts p k (minimumRent space) space programId = .ok L') :
    Created p k space L L' := by
  simp only [systemCreateAccount, Outcome.bind_ok, Outcome.reject_ok, Outcome.pure_ok, not_or,
    not_not] at h
  obtain ⟨_, _, _, ⟨hunused, hblank⟩, _, hcovered, _, hfits, rfl⟩ := h
  exact
    { unused := hunused
      blank := hblank
      owner := fun j => by simp only [Ledger.owner_setOwner, Ledger.owner_setData, Ledger.owner_move]
      data := fun j => by simp only [Ledger.data_setOwner, Ledger.data_setData, Ledger.data_move]
      tokens := rfl
      spares := fun j hj => by
        simp only [Ledger.lamports_setOwner, Ledger.lamports_setData]
        exact spares_move (fun _ => Nat.not_le.mp hfits) j hj
      total := by
        rw [← Ledger.total_move (UInt64.not_lt.mp hcovered) fun _ => Nat.not_le.mp hfits]
        exact Ledger.total_of_eq fun j => by
          rw [Ledger.lamports_setOwner, Ledger.lamports_setData]
      rent := fun hne => by
        simp only [Ledger.lamports_setOwner, Ledger.lamports_setData, Ledger.lamports_move hne,
          if_true, UInt64.le_iff_toNat_le, toNat_add_of_lt (Nat.not_le.mp hfits)]
        omega }

theorem createPda_ok {accounts : List AccountInfo} {seeds : List (List UInt8)} {space : Nat}
    (h : createPda L payer account accounts seeds space = .ok L') :
    Created payer.key account.key space L L' := by
  simp only [createPda, Outcome.bind_ok] at h
  obtain ⟨_, _, h⟩ := h
  exact systemCreateAccount_ok h

/-- An account of the program, created where it was unused, holds the bytes and
has the rent for them. -/
structure Put (payer k : ArchAddress) (bytes : List UInt8) (L L' : Ledger) : Prop where
  owner : ∀ j, L'.owner j = if j = k then programId else L.owner j
  data : ∀ j, L'.data j = if j = k then bytes else L.data j
  tokens : L'.tokens = L.tokens
  spares : Spares payer L L'
  total : L'.total = L.total
  rent : minimumRent bytes.length ≤ L'.lamports k

theorem Stored.put {p k : ArchAddress} {bytes : List UInt8} (stored : Stored p k bytes L L')
    (howned : L.owner k = programId) : Put p k bytes L L' :=
  { owner := fun j => by
      rw [stored.owner]
      split
      · rename_i hj
        rw [hj, howned]
      · rfl
    data := stored.data
    tokens := stored.tokens
    spares := stored.spares
    total := stored.total
    rent := stored.rent }

theorem Created.put {p k : ArchAddress} {space : Nat} {bytes : List UInt8}
    (created : Created p k space L L₁) (stored : Stored p k bytes L₁ L') : Put p k bytes L L' :=
  { owner := fun j => by rw [stored.owner, created.owner]
    data := fun j => by
      rw [stored.data, created.data]
      split <;> rfl
    tokens := stored.tokens.trans created.tokens
    spares := created.spares.trans stored.spares
    total := stored.total.trans created.total
    rent := stored.rent }

/-- The preparation shared by the handlers: the account is the program's already,
or it is created. -/
theorem prepared_ok {accounts : List AccountInfo} {seeds : List (List UInt8)} {space : Nat}
    {e : Abort ProgramError}
    (h : (if L.owner account.key = programId then pure L
      else if L.data account.key = [] then createPda L payer account accounts seeds space
      else throw e) = .ok L₁) :
    (L.owner account.key = programId ∧ L₁ = L) ∨ Created payer.key account.key space L L₁ := by
  split at h
  · rename_i howned
    exact .inl ⟨howned, (Outcome.pure_ok.mp h).symm⟩
  · split at h
    · exact .inr (createPda_ok h)
    · exact (Outcome.throw_ok.mp h).elim

theorem prepared_put {T : Type} [Borsh T] {state : T} {space : Nat}
    (h : (L.owner account.key = programId ∧ L₁ = L) ∨ Created payer.key account.key space L L₁)
    (hstore : store L₁ payer account state = .ok L') :
    Put payer.key account.key (encodeState state) L L' := by
  obtain ⟨howned, rfl⟩ | created := h
  · exact (store_ok hstore).put howned
  · exact created.put (store_ok hstore)

theorem Put.content {p k : ArchAddress} {bytes : List UInt8} (put : Put p k bytes L L')
    (j : ArchAddress) : L'.content j = if j = k then bytes else L.content j := by
  simp only [Ledger.content, put.owner, put.data]
  split <;> simp

/-- Only accounts of the program are written. -/
def Yields (L L' : Ledger) : Prop :=
  ∀ k, L'.owner k = programId ∨ (L'.owner k = L.owner k ∧ L'.data k = L.data k)

theorem Yields.of_eq (howner : ∀ k, L'.owner k = L.owner k) (hdata : ∀ k, L'.data k = L.data k) :
    Yields L L' := fun k => .inr ⟨howner k, hdata k⟩

theorem Yields.trans (h : Yields L L₁) (h' : Yields L₁ L') : Yields L L' := by
  intro k
  rcases h' k with howned | ⟨howner, hdata⟩
  · exact .inl howned
  · rw [howner, hdata]
    exact h k

theorem Put.yields {p k : ArchAddress} {bytes : List UInt8} (put : Put p k bytes L L') :
    Yields L L' := by
  intro j
  rw [put.owner, put.data]
  split
  · exact .inl rfl
  · exact .inr ⟨rfl, rfl⟩

theorem Created.yields {p k : ArchAddress} {space : Nat} (created : Created p k space L L') :
    Yields L L' := by
  intro j
  rw [created.owner, created.data]
  split
  · exact .inl rfl
  · exact .inr ⟨rfl, rfl⟩

theorem realloc_yields {n : Nat} (howned : L.owner account.key = programId)
    (h : realloc L account n = .ok L') : Yields L L' := by
  obtain ⟨howner, hdata, -, -⟩ := realloc_ok h
  intro k
  by_cases hk : k = account.key
  · exact .inl (by rw [howner, hk, howned])
  · exact .inr ⟨howner k, hdata k hk⟩

theorem Clean.yields {S : Scope} (clean : Clean S L) (h : Yields L L') : Clean S L' := by
  intro s hs
  rcases h s.address with howned | ⟨howner, hdata⟩
  · exact .inl howned
  · rw [howner, hdata]
    exact clean s hs

theorem content_of_eq (howner : ∀ k, L'.owner k = L.owner k) (hdata : ∀ k, L'.data k = L.data k)
    (k : ArchAddress) : L'.content k = L.content k := by
  simp only [Ledger.content, howner, hdata]

/-! ## What the accounts in play hold -/

theorem Created.content {p k : ArchAddress} {space : Nat} (created : Created p k space L L')
    (j : ArchAddress) : L'.content j = if j = k then List.replicate space 0 else L.content j := by
  simp only [Ledger.content, created.owner, created.data]
  split <;> simp

section Scope
variable {S : Scope} {C : Site → List UInt8} {E : Site → Nat} {s : Site}

theorem Agrees.of_content (agrees : Agrees S L C) (h : ∀ k, L'.content k = L.content k) :
    Agrees S L' C := fun t ht => by rw [h, agrees t ht]

/-- One account in play is rewritten, and no other account of the program. -/
theorem Agrees.update {bytes : List UInt8} (agrees : Agrees S L C) (hs : s ∈ S)
    (hcontent : ∀ j, L'.content j = if j = s.address then bytes else L.content j) :
    Agrees S L' (Function.update C s bytes) := by
  intro t ht
  rw [hcontent]
  by_cases hts : t = s
  · subst hts
    rw [if_pos rfl, Function.update_self]
  · rw [if_neg (Scope.address_ne ht hs hts), Function.update_of_ne hts, agrees t ht]

theorem Enclosed.of_content (enclosed : Enclosed S L) (h : ∀ k, L'.content k = L.content k) :
    Enclosed S L' := fun k hk => enclosed k (by rwa [h] at hk)

theorem Enclosed.update {bytes : List UInt8} (enclosed : Enclosed S L) (hs : s ∈ S)
    (hcontent : ∀ j, L'.content j = if j = s.address then bytes else L.content j) :
    Enclosed S L' := by
  intro k hk
  rw [hcontent] at hk
  split at hk
  · rename_i hks
    exact ⟨s, hs, hks.symm⟩
  · exact enclosed k hk

/-- Nobody in play pays. -/
theorem Funded.spared {p : ArchAddress} (funded : Funded S L C E) (hspares : Spares p L L')
    (hpayer : ¬ S.Derived p) : Funded S L' C E := fun t ht hne =>
  Nat.le_trans (funded t ht hne)
    (UInt64.le_iff_toNat_le.mp (hspares t.address fun h => hpayer ⟨t, ht, h⟩))

theorem Funded.update {p : ArchAddress} {bytes : List UInt8} (funded : Funded S L C E)
    (hspares : Spares p L L') (hpayer : ¬ S.Derived p) (hescrow : E s = 0)
    (hrent : bytes ≠ [] → minimumRent bytes.length ≤ L'.lamports s.address) :
    Funded S L' (Function.update C s bytes) E := by
  intro t ht hne
  by_cases hts : t = s
  · subst hts
    rw [Function.update_self] at hne ⊢
    rw [hescrow, Nat.add_zero]
    exact UInt64.le_iff_toNat_le.mp (hrent hne)
  · rw [Function.update_of_ne hts] at hne ⊢
    exact funded.spared hspares hpayer t ht hne

theorem Funded.put {p : ArchAddress} {bytes : List UInt8} (funded : Funded S L C E)
    (put : Put p s.address bytes L L') (hpayer : ¬ S.Derived p) (hescrow : E s = 0) :
    Funded S L' (Function.update C s bytes) E :=
  funded.update put.spares hpayer hescrow fun _ => put.rent

theorem Funded.created {p : ArchAddress} {space : Nat} (funded : Funded S L C E) (hs : s ∈ S)
    (created : Created p s.address space L L') (hpayer : ¬ S.Derived p) (hescrow : E s = 0) :
    Funded S L' (Function.update C s (List.replicate space 0)) E :=
  funded.update created.spares hpayer hescrow fun _ => by
    rw [List.length_replicate]
    exact created.rent fun h => hpayer ⟨s, hs, h.symm⟩

theorem Funded.deposit {source : ArchAddress} {amount : UInt64} (funded : Funded S L C E)
    (hs : s ∈ S) (paid : Paid source s.address amount L L') (hsource : ¬ S.Derived source) :
    Funded S L' C (Function.update E s (E s + amount.toNat)) := by
  intro t ht hne
  by_cases hts : t = s
  · subst hts
    have hbefore := funded t ht hne
    rw [Function.update_self, paid.credited]
    omega
  · rw [Function.update_of_ne hts]
    exact funded.spared paid.spares hsource t ht hne

theorem Funded.withdraw {destination : ArchAddress} {amount : UInt64} (funded : Funded S L C E)
    (hs : s ∈ S) (paid : Paid s.address destination amount L L') (hescrow : amount.toNat ≤ E s) :
    Funded S L' C (Function.update E s (E s - amount.toNat)) := by
  intro t ht hne
  by_cases hts : t = s
  · subst hts
    have hbefore := funded t ht hne
    rw [Function.update_self, paid.debited]
    omega
  · rw [Function.update_of_ne hts]
    have hspared := paid.spares t.address (Scope.address_ne ht hs hts)
    exact Nat.le_trans (funded t ht hne) (UInt64.le_iff_toNat_le.mp hspared)

end Scope

end ArchNameService
