import ArchNameService.Protocol.Resolve
import Mathlib.Logic.Function.Basic

/-!
# The ledger and the programs outside the repository

An account list may name one account several times: the infos of a list are
views of one ledger, so writes through any of them are seen through all. The
system program and the token program are given by what they are documented to
do to the ledger when they accept a request.
-/

namespace ArchNameService

structure Account where
  lamports : UInt64
  owner : ArchAddress
  data : List UInt8
  executable : Bool

/-- What the token program keeps of one of its accounts. -/
structure TokenAccount where
  mint : ArchAddress
  owner : ArchAddress
  amount : UInt64
  deriving DecidableEq

structure Ledger where
  accounts : ArchAddress → Account
  tokens : ArchAddress → Option TokenAccount

/-- One entry of the account list of an instruction. -/
structure AccountInfo where
  key : ArchAddress
  isSigner : Bool
  isWritable : Bool
  deriving DecidableEq

inductive ProgramError where
  | custom (code : UInt32)
  | invalidArgument
  | invalidInstructionData
  | invalidAccountData
  | accountDataTooSmall
  | insufficientFunds
  | incorrectProgramId
  | missingRequiredSignature
  | accountAlreadyInitialized
  | uninitializedAccount
  | notEnoughAccountKeys
  | accountBorrowFailed
  | invalidSeeds
  | invalidRealloc
  deriving DecidableEq, Repr

abbrev ProgramResult := Except (Abort ProgramError)

/-- The deployed program in its surroundings. `createAccountAccepts` stands for
every further condition under which the system program creates an account. -/
class Deployment extends Crypto where
  programId : ArchAddress
  systemProgram : ArchAddress
  programId_ne_systemProgram : programId ≠ systemProgram
  minimumRent : Nat → UInt64
  maxPermittedDataIncrease : Nat
  createAccountAccepts : Ledger → List AccountInfo → ArchAddress → ArchAddress → UInt64 → Nat → Bool

namespace Ledger

def lamports (L : Ledger) (k : ArchAddress) : UInt64 := (L.accounts k).lamports
def owner (L : Ledger) (k : ArchAddress) : ArchAddress := (L.accounts k).owner
def data (L : Ledger) (k : ArchAddress) : List UInt8 := (L.accounts k).data
def executable (L : Ledger) (k : ArchAddress) : Bool := (L.accounts k).executable

def setLamports (L : Ledger) (k : ArchAddress) (n : UInt64) : Ledger :=
  { L with accounts := Function.update L.accounts k { L.accounts k with lamports := n } }

def setData (L : Ledger) (k : ArchAddress) (bytes : List UInt8) : Ledger :=
  { L with accounts := Function.update L.accounts k { L.accounts k with data := bytes } }

def setOwner (L : Ledger) (k owner : ArchAddress) : Ledger :=
  { L with accounts := Function.update L.accounts k { L.accounts k with owner } }

variable (L : Ledger) (k j : ArchAddress)

theorem lamports_setLamports (n : UInt64) :
    (L.setLamports k n).lamports j = if j = k then n else L.lamports j := by
  by_cases h : j = k
  · subst h; simp [setLamports, lamports]
  · simp [setLamports, lamports, h]

@[simp] theorem owner_setLamports (n : UInt64) : (L.setLamports k n).owner j = L.owner j := by
  by_cases h : j = k
  · subst h; simp [setLamports, owner]
  · simp [setLamports, owner, h]

@[simp] theorem data_setLamports (n : UInt64) : (L.setLamports k n).data j = L.data j := by
  by_cases h : j = k
  · subst h; simp [setLamports, data]
  · simp [setLamports, data, h]

@[simp] theorem tokens_setLamports (n : UInt64) : (L.setLamports k n).tokens = L.tokens := rfl

@[simp] theorem lamports_setData (bytes : List UInt8) :
    (L.setData k bytes).lamports j = L.lamports j := by
  by_cases h : j = k
  · subst h; simp [setData, lamports]
  · simp [setData, lamports, h]

@[simp] theorem owner_setData (bytes : List UInt8) : (L.setData k bytes).owner j = L.owner j := by
  by_cases h : j = k
  · subst h; simp [setData, owner]
  · simp [setData, owner, h]

theorem data_setData (bytes : List UInt8) :
    (L.setData k bytes).data j = if j = k then bytes else L.data j := by
  by_cases h : j = k
  · subst h; simp [setData, data]
  · simp [setData, data, h]

@[simp] theorem tokens_setData (bytes : List UInt8) : (L.setData k bytes).tokens = L.tokens := rfl

@[simp] theorem lamports_setOwner (o : ArchAddress) :
    (L.setOwner k o).lamports j = L.lamports j := by
  by_cases h : j = k
  · subst h; simp [setOwner, lamports]
  · simp [setOwner, lamports, h]

theorem owner_setOwner (o : ArchAddress) :
    (L.setOwner k o).owner j = if j = k then o else L.owner j := by
  by_cases h : j = k
  · subst h; simp [setOwner, owner]
  · simp [setOwner, owner, h]

@[simp] theorem data_setOwner (o : ArchAddress) : (L.setOwner k o).data j = L.data j := by
  by_cases h : j = k
  · subst h; simp [setOwner, data]
  · simp [setOwner, data, h]

@[simp] theorem tokens_setOwner (o : ArchAddress) : (L.setOwner k o).tokens = L.tokens := rfl

/-- A debit, then a credit that reads the balance the debit left. The words wrap. -/
def move (source destination : ArchAddress) (n : UInt64) : Ledger :=
  let debited := L.setLamports source (L.lamports source - n)
  debited.setLamports destination (debited.lamports destination + n)

variable (source destination : ArchAddress) (n : UInt64)

@[simp] theorem owner_move : (L.move source destination n).owner j = L.owner j := by simp [move]
@[simp] theorem data_move : (L.move source destination n).data j = L.data j := by simp [move]
@[simp] theorem tokens_move : (L.move source destination n).tokens = L.tokens := rfl

end Ledger

open Deployment

/-- `a + b`, or nothing where the word overflows. -/
def checkedAdd (a b : UInt64) : Option UInt64 :=
  if a.toNat + b.toNat < 2 ^ 64 then some (a + b) else none

/-- `a + b`, clamped at `u64::MAX`. -/
def saturatingAdd (a b : UInt64) : UInt64 :=
  if a.toNat + b.toNat < 2 ^ 64 then a + b else UInt64.ofNat (2 ^ 64 - 1)

theorem checkedAdd_eq_some {a b c : UInt64} :
    checkedAdd a b = some c ↔ a.toNat + b.toNat < 2 ^ 64 ∧ a + b = c := by
  simp only [checkedAdd, Option.ite_none_right_eq_some, Option.some.injEq]

theorem toNat_saturatingAdd_one (a : UInt64) :
    (saturatingAdd a 1).toNat = min (a.toNat + 1) (2 ^ 64 - 1) := by
  have ha := a.toNat_lt
  unfold saturatingAdd
  split
  · rename_i h
    rw [UInt64.toNat_add, Nat.mod_eq_of_lt h]
    simp only [UInt64.toNat_one] at h ⊢
    omega
  · rename_i h
    simp only [UInt64.toNat_one] at h
    rw [UInt64.toNat_ofNat_of_lt' (by decide)]
    omega

/-! ## Account handles -/

def nextAccountInfo : List AccountInfo → ProgramResult (AccountInfo × List AccountInfo)
  | [] => .error (.error .notEnoughAccountKeys)
  | a :: rest => .ok (a, rest)

@[simp] theorem nextAccountInfo_ok {accounts rest : List AccountInfo} {a : AccountInfo} :
    nextAccountInfo accounts = .ok (a, rest) ↔ accounts = a :: rest := by
  cases accounts with
  | nil => exact ⟨fun h => (nomatch h), fun h => (nomatch h)⟩
  | cons b bs => simp only [nextAccountInfo, Except.ok.injEq, Prod.mk.injEq, List.cons.injEq]

/-- Truncates, or extends with zero bytes. -/
def resizeData (bytes : List UInt8) (newLen : Nat) : List UInt8 :=
  bytes.take newLen ++ List.replicate (newLen - bytes.length) 0

def realloc [Deployment] (L : Ledger) (account : AccountInfo) (newLen : Nat) :
    ProgramResult Ledger := do
  if newLen = (L.data account.key).length then pure L
  else do
    reject (maxPermittedDataIncrease < newLen - (L.data account.key).length) (.error .invalidRealloc)
    pure (L.setData account.key (resizeData (L.data account.key) newLen))

theorem realloc_zero_ok [Deployment] {L L' : Ledger} {account : AccountInfo}
    (h : realloc L account 0 = .ok L') : L' = L.setData account.key [] ∨
      L.data account.key = [] ∧ L' = L := by
  unfold realloc at h
  split at h
  · rename_i hlen
    simp only [Outcome.pure_ok] at h
    exact .inr ⟨List.length_eq_zero_iff.mp hlen.symm, h.symm⟩
  · simp only [Outcome.bind_ok, Outcome.pure_ok, resizeData, List.take_zero, Nat.zero_sub,
      List.replicate_zero, List.append_nil] at h
    obtain ⟨_, _, rfl⟩ := h
    exact .inl rfl

/-! ## Programs outside the repository -/

/-- `system_instruction::create_account`, run by the system program: the account
must be unused, and receives the funding, `space` zero bytes and the owner. -/
def systemCreateAccount [Deployment] (L : Ledger) (accounts : List AccountInfo)
    (payer account : ArchAddress) (lamports : UInt64) (space : Nat) (owner : ArchAddress) :
    ProgramResult Ledger := do
  reject (¬ createAccountAccepts L accounts payer account lamports space) (.error (.custom 0))
  reject (L.owner account ≠ systemProgram ∨ L.data account ≠ []) (.error .accountAlreadyInitialized)
  reject (L.lamports payer < lamports) (.error .insufficientFunds)
  reject (2 ^ 64 ≤ (L.lamports account).toNat + lamports.toNat) (.error .insufficientFunds)
  pure (((L.move payer account lamports).setData account (List.replicate space 0)).setOwner
    account owner)

/-- `Transfer { amount }` of the token program: both accounts are of one mint and
the signing authority owns the source; a transfer to itself changes nothing. -/
def tokenTransfer (L : Ledger) (source destination authority : AccountInfo) (amount : UInt64) :
    ProgramResult Ledger := do
  let s ← orElseError (.error .invalidAccountData) (L.tokens source.key)
  let d ← orElseError (.error .invalidAccountData) (L.tokens destination.key)
  reject (s.amount < amount) (.error .insufficientFunds)
  reject (s.mint ≠ d.mint) (.error .invalidAccountData)
  reject (s.owner ≠ authority.key ∨ ¬ authority.isSigner) (.error .missingRequiredSignature)
  if source.key = destination.key then pure L
  else do
    let credited ← orElseError (.error .insufficientFunds) (checkedAdd d.amount amount)
    let debits := Function.update L.tokens source.key (some { s with amount := s.amount - amount })
    pure { L with tokens :=
      Function.update debits destination.key (some { d with amount := credited }) }

end ArchNameService
