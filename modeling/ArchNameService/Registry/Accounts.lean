import ArchNameService.Registry.Transition

/-! Loading, checking, creating and storing accounts (the helpers of `lib.rs`). -/

namespace ArchNameService
open Borsh (Str)
open Crypto Deployment

def testnetNamespace : Str := ⟨ascii ".arch", by decide, by decide⟩
def testnetNetworkId : UInt32 := 2

/-- The Arch Token program. -/
def tokenProgramIdBytes : ArchAddress :=
  ⟨[6, 221, 246, 225, 185, 234, 132, 65, 44, 16, 184, 223, 2, 28, 16, 15, 200, 135, 25, 7, 195, 9,
    195, 53, 53, 222, 32, 156, 52, 23, 99, 191], rfl⟩

/-- The aBTC mint of the testnet. -/
def testnetAbtcMint : ArchAddress :=
  ⟨[0x72, 0x61, 0x79, 0xcf, 0x49, 0xb6, 0xdc, 0x40, 0x7c, 0x14, 0x38, 0xce, 0xc9, 0x88, 0x15, 0xd9,
    0x22, 0x77, 0xb6, 0x25, 0xb0, 0x9d, 0xe8, 0x18, 0x18, 0xf5, 0xf3, 0xa5, 0x79, 0x89, 0xf1, 0xf1],
    rfl⟩

def requireSigner (account : AccountInfo) : ProgramResult Unit :=
  reject (¬ account.isSigner) (.error .missingRequiredSignature)

def requireOwner (signer : AccountInfo) (owner : ArchAddress) : ProgramResult Unit :=
  reject (signer.key ≠ owner) (.error .missingRequiredSignature)

def requireAddress (account : AccountInfo) (expected : ArchAddress) : ProgramResult Unit :=
  reject (account.key ≠ expected) (.error .invalidSeeds)

def ensureUnpaused (config : RegistryConfig) : ProgramResult Unit :=
  reject config.paused (.error (.custom 1))

@[simp] theorem requireSigner_ok {a : AccountInfo} {u : Unit} :
    requireSigner a = .ok u ↔ a.isSigner = true := by
  simp only [requireSigner, Outcome.reject_ok, not_not]

@[simp] theorem requireOwner_ok {a : AccountInfo} {owner : ArchAddress} {u : Unit} :
    requireOwner a owner = .ok u ↔ a.key = owner := by
  simp only [requireOwner, Outcome.reject_ok, not_not]

@[simp] theorem requireAddress_ok {a : AccountInfo} {expected : ArchAddress} {u : Unit} :
    requireAddress a expected = .ok u ↔ a.key = expected := by
  simp only [requireAddress, Outcome.reject_ok, not_not]

@[simp] theorem ensureUnpaused_ok {config : RegistryConfig} {u : Unit} :
    ensureUnpaused config = .ok u ↔ config.paused = false := by
  simp only [ensureUnpaused, Outcome.reject_ok, Bool.not_eq_true]

section
variable [Deployment] (L : Ledger)

/-! ## Lamports -/

/-- Two mutable borrows of one account fail. -/
def transferLamports (source destination : AccountInfo) (amount : UInt64) :
    ProgramResult Ledger := do
  reject (source.key = destination.key) (.error .accountBorrowFailed)
  reject (L.lamports source.key < amount) (.error .insufficientFunds)
  let debited := L.setLamports source.key (L.lamports source.key - amount)
  let credited ← orElseError (.error .insufficientFunds)
    (checkedAdd (debited.lamports destination.key) amount)
  pure (debited.setLamports destination.key credited)

def fundRentExempt (payer account : AccountInfo) (space : Nat) : ProgramResult Ledger := do
  let required := minimumRent space
  let current := L.lamports account.key
  if required ≤ current then pure L
  else do
    let needed := required - current
    reject (payer.key = account.key) (.error .accountBorrowFailed)
    reject (L.lamports payer.key < needed) (.error .insufficientFunds)
    pure (L.move payer.key account.key needed)

/-! ## Creating, loading and storing -/

def createPda (payer account : AccountInfo) (accounts : List AccountInfo)
    (seeds : List (List UInt8)) (space : Nat) : ProgramResult Ledger := do
  reject (account.key ≠ (findProgramAddress seeds programId).1) (.error .invalidSeeds)
  systemCreateAccount L accounts payer.key account.key (minimumRent space) space programId

def load (T : Type) [Borsh T] (account : AccountInfo) : ProgramResult T := do
  reject (L.owner account.key = systemProgram) (.error .uninitializedAccount)
  orElseError (.error .invalidAccountData) (decodeState (L.data account.key))

def store {T : Type} [Borsh T] (payer account : AccountInfo) (state : T) :
    ProgramResult Ledger := do
  let bytes := encodeState state
  let L ← fundRentExempt L payer account bytes.length
  let L ← (if (L.data account.key).length ≠ bytes.length then realloc L account bytes.length
    else pure L)
  pure (L.setData account.key bytes)

def configIsInitialized (account : AccountInfo) : Bool :=
  match load L RegistryConfig account with
  | .ok config => (config.header.validate registryConfigDiscriminator).isOk
  | .error _ => false

def loadConfig (account : AccountInfo) : ProgramResult RegistryConfig := do
  reject (L.owner account.key ≠ programId) (.error .incorrectProgramId)
  let config ← load L RegistryConfig account
  (config.header.validate registryConfigDiscriminator).mapError fun _ => .error .invalidAccountData
  reject (config.namespace ≠ testnetNamespace ∨ config.networkId ≠ testnetNetworkId)
    (.error .invalidAccountData)
  requireAddress account (deriveConfigAddress programId config.networkId config.namespace.bytes)
  pure config

def loadName (account : AccountInfo) (config : RegistryConfig) (nameHash : Bytes 32) :
    ProgramResult NameAccount := do
  reject (L.owner account.key ≠ programId) (.error .incorrectProgramId)
  let name ← load L NameAccount account
  (name.header.validate nameAccountDiscriminator).mapError fun _ => .error .invalidAccountData
  reject (name.nameHash ≠ nameHash) (.error .invalidAccountData)
  requireAddress account (deriveNameAddress programId config.namespace.bytes nameHash)
  pure name

def listingIsActive (account : AccountInfo) : ProgramResult Bool :=
  if L.owner account.key = systemProgram ∨ L.data account.key = [] then pure false
  else do
    let listing ← load L ListingAccount account
    (listing.header.validate listingAccountDiscriminator).mapError fun _ => .error .invalidAccountData
    pure listing.active

def offerIsActive (account : AccountInfo) : ProgramResult Bool :=
  if L.owner account.key = systemProgram ∨ L.data account.key = [] then pure false
  else do
    let offer ← load L OfferAccount account
    (offer.header.validate offerAccountDiscriminator).mapError fun _ => .error .invalidAccountData
    pure offer.active

def loadActiveListing (account : AccountInfo) (config : RegistryConfig) (nameHash : Bytes 32) :
    ProgramResult ListingAccount := do
  reject (L.owner account.key ≠ programId) (.error .incorrectProgramId)
  let listing ← load L ListingAccount account
  (listing.header.validate listingAccountDiscriminator).mapError fun _ => .error .invalidAccountData
  reject (listing.nameHash ≠ nameHash ∨ ¬ listing.active) (.error (.custom 3))
  requireAddress account (deriveListingAddress programId config.namespace.bytes nameHash)
  pure listing

def loadActiveOffer (account : AccountInfo) (config : RegistryConfig) (nameHash : Bytes 32)
    (buyer : ArchAddress) : ProgramResult OfferAccount := do
  reject (L.owner account.key ≠ programId) (.error .incorrectProgramId)
  let offer ← load L OfferAccount account
  (offer.header.validate offerAccountDiscriminator).mapError fun _ => .error .invalidAccountData
  reject (offer.nameHash ≠ nameHash ∨ offer.buyer ≠ buyer ∨ ¬ offer.active) (.error (.custom 3))
  requireAddress account (deriveOfferAddress programId config.namespace.bytes nameHash buyer)
  pure offer

/-- The transfer of the token program, signed by the authority. The mint is not
among the accounts of the invocation. -/
def transferAbtc (authority source destination _mint _tokenProgram : AccountInfo)
    (amount : UInt64) : ProgramResult Ledger :=
  tokenTransfer L source destination authority amount

end

end ArchNameService
