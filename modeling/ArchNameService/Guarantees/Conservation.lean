import ArchNameService.Refinement.Frame
import ArchNameService.Refinement.Execution

/-!
# Lamports are conserved

The balance arithmetic of the program is compared with the same code in a build
with overflow checks. In a ledger whose lamports all fit in one word the two
agree, and no piece of an instruction leads out of such ledgers.
-/

namespace ArchNameService
open Crypto Deployment

/-! ## The arithmetic with overflow checks -/

def addOrPanic (a b : UInt64) : ProgramResult UInt64 := orElseError .panic (checkedAdd a b)

def subOrPanic (a b : UInt64) : ProgramResult UInt64 :=
  if b ≤ a then .ok (a - b) else .error .panic

theorem addOrPanic_ok {a b : UInt64} (h : a.toNat + b.toNat < 2 ^ 64) :
    addOrPanic a b = .ok (a + b) := Outcome.orElseError_ok.mpr (checkedAdd_eq_some.mpr ⟨h, rfl⟩)

theorem subOrPanic_ok {a b : UInt64} (h : b ≤ a) : subOrPanic a b = .ok (a - b) := if_pos h

section
variable [Deployment] (L : Ledger)

/-- `transferLamports`, where a sum or a difference that does not fit is a panic. -/
def transferLamportsChecked (source destination : AccountInfo) (amount : UInt64) :
    ProgramResult Ledger := do
  reject (source.key = destination.key) (.error .accountBorrowFailed)
  reject (L.lamports source.key < amount) (.error .insufficientFunds)
  let debit ← subOrPanic (L.lamports source.key) amount
  let debited := L.setLamports source.key debit
  let credit ← addOrPanic (debited.lamports destination.key) amount
  pure (debited.setLamports destination.key credit)

def fundRentExemptChecked (payer account : AccountInfo) (space : Nat) : ProgramResult Ledger := do
  let required := minimumRent space
  let current := L.lamports account.key
  if required ≤ current then pure L
  else do
    let needed ← subOrPanic required current
    reject (payer.key = account.key) (.error .accountBorrowFailed)
    reject (L.lamports payer.key < needed) (.error .insufficientFunds)
    let debit ← subOrPanic (L.lamports payer.key) needed
    let debited := L.setLamports payer.key debit
    let credit ← addOrPanic (debited.lamports account.key) needed
    pure (debited.setLamports account.key credit)

namespace Idl

def closeChecked (accounts : List AccountInfo) : ProgramResult Ledger := do
  let (account, iterator) ← nextAccountInfo accounts
  let (authority, iterator) ← nextAccountInfo iterator
  let (destination, _) ← nextAccountInfo iterator
  requireSigner authority
  requireIdlAccount L account
  requireAuthority L account authority
  reject (¬ destination.isWritable) (.error .invalidAccountData)
  let lamports := L.lamports account.key
  let drained := L.setLamports account.key 0
  let credited ← addOrPanic (drained.lamports destination.key) lamports
  realloc (drained.setLamports destination.key credited) account 0

def resizeChecked (accounts : List AccountInfo) (dataLen : Nat) : ProgramResult Ledger := do
  let (idl, iterator) ← nextAccountInfo accounts
  let (authority, iterator) ← nextAccountInfo iterator
  let (systemProgramInfo, _) ← nextAccountInfo iterator
  requireSigner authority
  reject (systemProgramInfo.key ≠ systemProgram) (.error .incorrectProgramId)
  requireIdlAccount L idl
  requireAuthority L idl authority
  let stored ← readDataLen (L.data idl.key)
  reject (stored ≠ 0) (.error .invalidAccountData)
  let current := (L.data idl.key).length
  if dataLen ≤ current then pure L
  else do
    let growBy := min (dataLen - current) createMaxSpace
    let newSpace := min (current + growBy) dataLen
    let L ← fundRentExemptChecked L authority idl newSpace
    realloc L idl newSpace

end Idl

/-- Overflow checks change nothing: no sum or difference of lamports wraps. -/
structure ArithmeticSafe : Prop where
  transferLamports : ∀ source destination amount,
    transferLamportsChecked L source destination amount =
      transferLamports L source destination amount
  fundRentExempt : ∀ payer account space,
    fundRentExemptChecked L payer account space = fundRentExempt L payer account space
  close : ∀ accounts, Idl.closeChecked L accounts = Idl.close L accounts
  resize : ∀ accounts dataLen, Idl.resizeChecked L accounts dataLen = Idl.resize L accounts dataLen

variable {L} {L' : Ledger}

/-! ## Where the lamports fit in one word -/

omit [Deployment] in
theorem lamports_fit (hbound : L.total < 2 ^ 64) {j k : ArchAddress} (hne : j ≠ k) :
    (L.lamports j).toNat + (L.lamports k).toNat < 2 ^ 64 :=
  Nat.lt_of_le_of_lt (Balance.add_le_sum hne) hbound

omit [Deployment] in
theorem transferLamports_checked (hbound : L.total < 2 ^ 64) (source destination : AccountInfo)
    (amount : UInt64) :
    transferLamportsChecked L source destination amount =
      transferLamports L source destination amount := by
  unfold transferLamportsChecked transferLamports
  by_cases hsame : source.key = destination.key
  · simp only [reject, if_pos hsame]
    rfl
  · by_cases hless : L.lamports source.key < amount
    · simp only [reject, if_neg hsame, if_pos hless]
      rfl
    · have hcovered := UInt64.not_lt.mp hless
      have hle := UInt64.le_iff_toNat_le.mp hcovered
      have hfit := lamports_fit hbound hsame
      have hsum : ((L.setLamports source.key (L.lamports source.key - amount)).lamports
          destination.key).toNat + amount.toNat < 2 ^ 64 := by
        rw [Ledger.lamports_setLamports, if_neg (Ne.symm hsame)]
        omega
      have hcredit := checkedAdd_eq_some.mpr ⟨hsum, rfl⟩
      simp only [reject, if_neg hsame, if_neg hless, subOrPanic_ok hcovered]
      change (addOrPanic _ amount >>= _) = (orElseError _ (checkedAdd _ amount) >>= _)
      rw [addOrPanic_ok hsum, hcredit]
      rfl

theorem fundRentExempt_checked (payer account : AccountInfo) (space : Nat) :
    fundRentExemptChecked L payer account space = fundRentExempt L payer account space := by
  unfold fundRentExemptChecked fundRentExempt
  by_cases hrent : minimumRent space ≤ L.lamports account.key
  · simp only [if_pos hrent]
  · have hless := UInt64.le_of_lt (UInt64.not_le.mp hrent)
    simp only [if_neg hrent, subOrPanic_ok hless]
    change (reject (payer.key = account.key) _ >>= _) = _
    by_cases hsame : payer.key = account.key
    · simp only [reject, if_pos hsame]
      rfl
    · by_cases hshort : L.lamports payer.key < minimumRent space - L.lamports account.key
      · simp only [reject, if_neg hsame, if_pos hshort]
        rfl
      · have hcovered := UInt64.not_lt.mp hshort
        have hsum : ((L.setLamports payer.key (L.lamports payer.key -
            (minimumRent space - L.lamports account.key))).lamports account.key).toNat +
            (minimumRent space - L.lamports account.key).toNat < 2 ^ 64 := by
          rw [Ledger.lamports_setLamports, if_neg (Ne.symm hsame), toNat_sub_of_le hless]
          have hle := UInt64.le_iff_toNat_le.mp hless
          have hlt := (minimumRent space).toNat_lt
          omega
        simp only [reject, if_neg hsame, if_neg hshort, subOrPanic_ok hcovered]
        change (addOrPanic _ _ >>= _) = _
        rw [addOrPanic_ok hsum]
        rfl

omit [Deployment] in
theorem drain_fits (hbound : L.total < 2 ^ 64) (k destination : ArchAddress) :
    ((L.setLamports k 0).lamports destination).toNat + (L.lamports k).toNat < 2 ^ 64 := by
  have hlt := (L.lamports k).toNat_lt
  rw [Ledger.lamports_setLamports]
  split
  · rw [UInt64.toNat_zero]
    omega
  · rename_i hne
    exact lamports_fit hbound hne

theorem close_checked (hbound : L.total < 2 ^ 64) (accounts : List AccountInfo) :
    Idl.closeChecked L accounts = Idl.close L accounts := by
  have hcredit (k destination : ArchAddress) :
      addOrPanic ((L.setLamports k 0).lamports destination) (L.lamports k) =
        orElseError (.error .insufficientFunds)
          (checkedAdd ((L.setLamports k 0).lamports destination) (L.lamports k)) := by
    have hfits := drain_fits hbound k destination
    rw [addOrPanic_ok hfits, checkedAdd_eq_some.mpr ⟨hfits, rfl⟩]
    rfl
  simp only [Idl.closeChecked, Idl.close, hcredit]

/-- A ledger whose lamports fit in one word is safe for the arithmetic of the program. -/
theorem arithmeticSafe (hbound : L.total < 2 ^ 64) : ArithmeticSafe L :=
  { transferLamports := transferLamports_checked hbound
    fundRentExempt := fundRentExempt_checked
    close := close_checked hbound
    resize := fun accounts dataLen => by
      simp only [Idl.resizeChecked, Idl.resize, fundRentExempt_checked] }

/-! ## Instructions -/

theorem Ledger.Piece.total (piece : Ledger.Piece L L') : L'.total = L.total := by
  cases piece with
  | transferLamports h => exact (transferLamports_ok.mp h).total
  | fundRentExempt h => exact (fundRentExempt_topped h).total
  | createAccount h => exact (systemCreateAccount_ok h).total
  | close h =>
      obtain ⟨idl, signer, destination, rest, n, body, -, -, hfits, hlamports, -⟩ := Idl.close_ok h
      rw [Ledger.total_of_eq hlamports, Idl.total_drain hfits]
  | other h => exact Ledger.total_of_eq h

theorem total_of_pieces (pieces : Relation.ReflTransGen Ledger.Piece L L') : L'.total = L.total := by
  induction pieces with
  | refl => rfl
  | tail _ piece ih => rw [piece.total, ih]

/-- The accounts a call may take lamports from. -/
inductive Debtor (c : Call) : ArchAddress → Prop
  | signer {info : AccountInfo} (hmem : info ∈ c.accounts) (hsigner : info.isSigner = true) :
      Debtor c info.key
  | settledOffer {a : Action} {h : Bytes 32} {buyer : ArchAddress} (haction : c.action? = some a)
      (hsettles : a.settlesOffer h buyer = true) : Debtor c (Site.offer h buyer).address
  | closedIdl {operands : List UInt8} {info : AccountInfo} {rest : List AccountInfo}
      (hpayload : Idl.payload? c.data = some (5 :: operands)) (haccounts : c.accounts = info :: rest) :
      Debtor c info.key

theorem debtor_of_action {c : Call} {a : Action} {k : ArchAddress} (haction : c.action? = some a)
    (hk : k ∈ a.spends c.accounts) : Debtor c k := by
  obtain ⟨info, hmem, hsigner, rfl⟩ | ⟨h, buyer, hsettles, rfl⟩ := hk
  · exact .signer hmem hsigner
  · exact .settledOffer haction hsettles

theorem debtor_of_idl {c : Call} {payload : List UInt8} {k : ArchAddress}
    (hpayload : Idl.payload? c.data = some payload) (hk : k ∈ Idl.spends c.accounts payload) :
    Debtor c k := by
  obtain ⟨info, hmem, hsigner, rfl⟩ | ⟨info, hclosed, rfl⟩ := hk
  · exact .signer hmem hsigner
  · cases payload with
    | nil => cases hclosed
    | cons tag operands =>
        simp only [Idl.closed] at hclosed
        split at hclosed
        · rename_i htag
          subst htag
          cases haccounts : c.accounts with
          | nil =>
              rw [haccounts] at hclosed
              cases hclosed
          | cons first rest =>
              rw [haccounts, List.take_succ_cons, List.take_zero, List.mem_singleton] at hclosed
              subst hclosed
              exact .closedIdl hpayload haccounts
        · cases hclosed

/-- A successful instruction neither mints nor burns lamports, its arithmetic
never wraps, and it takes lamports from nobody but its debtors. -/
theorem lamports_conserved {c : Call} (hbound : L.total < 2 ^ 64)
    (h : processInstruction L c.accounts c.data = .ok L') :
    L'.total = L.total ∧ Relation.ReflTransGen Ledger.Piece L L' ∧
      (∀ M, Relation.ReflTransGen Ledger.Piece L M → ArithmeticSafe M) ∧
      ∀ k, L'.lamports k < L.lamports k → Debtor c k := by
  have hpieces : Relation.ReflTransGen Ledger.Piece L L' := by
    obtain ⟨a, -, -, traces⟩ | ⟨payload, -, k, -, traces⟩ := processInstruction_traces h
    · exact traces.pieces
    · exact traces.pieces
  refine ⟨total_of_pieces hpieces, hpieces, ?_, ?_⟩
  · intro M pieces
    exact arithmeticSafe (by rwa [total_of_pieces pieces])
  · intro k hless
    obtain ⟨a, haction, -, traces⟩ | ⟨payload, hpayload, j, -, traces⟩ :=
      processInstruction_traces h
    · apply debtor_of_action haction
      by_contra hk
      exact UInt64.not_le.mpr hless (traces.spares k hk)
    · apply debtor_of_idl hpayload
      by_contra hk
      exact UInt64.not_le.mpr hless (traces.spares k hk)

end

open Testnet in
/-- Ben's offer moves 300 lamports and the rent of its account out of Ben's balance alone. -/
theorem offer_conserves : ∃ L L' : Ledger, L.total < 2 ^ 64 ∧
    L'.total = L.total ∧ ∀ k, L'.lamports k < L.lamports k → Debtor (offering 300) k := by
  obtain ⟨L, -, hbound, -, hp⟩ := reached opening
    (fun L => (processInstruction L (offering 300).accounts (offering 300).data).toOption.isSome)
    (by decide +kernel) (by decide +kernel)
  obtain ⟨L', hcall⟩ := Option.isSome_iff_exists.mp hp
  obtain ⟨htotal, -, -, hdebtors⟩ := lamports_conserved hbound (Outcome.toOption_eq_some.mp hcall)
  exact ⟨L, L', hbound, htotal, hdebtors⟩

end ArchNameService
