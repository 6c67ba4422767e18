import ArchNameService.Registry.Accounts
import ArchNameService.Protocol.Instruction

/-! The instruction handlers of the registry program (`lib.rs`). -/

namespace ArchNameService
open Borsh (Str Vec)
open Crypto Deployment

/-! ## The seeds that the handlers create their accounts with -/

section
variable [Crypto]

def initializeRegistrySeeds (networkId : UInt32) : List (List UInt8) :=
  [ascii "ans:config:v1", leBytes 4 networkId.toNat, (namespaceHash testnetNamespace.bytes).toList]

def registerSeeds (nameHash : Bytes 32) : List (List UInt8) :=
  [ascii "ans:name:v1", (namespaceHash testnetNamespace.bytes).toList, nameHash.toList]

def setRecordSeeds (nameHash : Bytes 32) (recordType : RecordType) : List (List UInt8) :=
  [ascii "ans:record:v1", (namespaceHash testnetNamespace.bytes).toList, nameHash.toList,
    [recordType.byte]]

def setRecordKeySeeds (nameHash : Bytes 32) (recordType : RecordType) (keyHash : Bytes 32) :
    List (List UInt8) :=
  [ascii "ans:record:v1", (namespaceHash testnetNamespace.bytes).toList, nameHash.toList,
    [recordType.byte], keyHash.toList]

def setPrimarySeeds (owner : ArchAddress) : List (List UInt8) :=
  [ascii "ans:reverse:v1", (namespaceHash testnetNamespace.bytes).toList, owner.toList]

def listNameSeeds (nameHash : Bytes 32) : List (List UInt8) :=
  [ascii "ans:listing:v1", (namespaceHash testnetNamespace.bytes).toList, nameHash.toList]

def makeOfferSeeds (nameHash : Bytes 32) (buyer : ArchAddress) : List (List UInt8) :=
  [ascii "ans:offer:v1", (namespaceHash testnetNamespace.bytes).toList, nameHash.toList,
    buyer.toList]

end

section
variable [Deployment] (L : Ledger) (accounts : List AccountInfo)

def initialConfig (networkId : UInt32) (namespaceAuthority : ArchAddress) : RegistryConfig :=
  { header := .fresh registryConfigDiscriminator
    programVersion := 1
    networkId
    «namespace» := testnetNamespace
    namespaceAuthority
    gracePeriodSlots := 0
    minRegistrationSlots := 0
    maxRegistrationSlots := 0
    bitcoinNetwork := .testnet
    tokenPrograms := Vec.empty
    paused := false
    mainnetEnabled := false }

def initializeRegistry (networkId : UInt32) (namespaceAuthority : ArchAddress) :
    ProgramResult Ledger := do
  reject (networkId ≠ testnetNetworkId) (.error .invalidInstructionData)
  let (authority, iterator) ← nextAccountInfo accounts
  let (config, _) ← nextAccountInfo iterator
  requireSigner authority
  requireAddress config (deriveConfigAddress programId networkId testnetNamespace.bytes)
  let state := initialConfig networkId namespaceAuthority
  reject (authority.key ≠ state.namespaceAuthority) (.error .missingRequiredSignature)
  let bytes := encodeState state
  let seeds := initializeRegistrySeeds networkId
  let L ←
    (if L.owner config.key = programId then do
       reject (configIsInitialized L config) (.error .accountAlreadyInitialized)
       pure L
     else if L.data config.key = [] then createPda L authority config accounts seeds bytes.length
     else throw (.error .incorrectProgramId))
  store L authority config state

def register (label : Str) : ProgramResult Ledger := do
  (validateLabel label.bytes).mapError fun _ => .error .invalidInstructionData
  let (owner, iterator) ← nextAccountInfo accounts
  let (configAccount, iterator) ← nextAccountInfo iterator
  let (nameAccount, _) ← nextAccountInfo iterator
  requireSigner owner
  let config ← loadConfig L configAccount
  ensureUnpaused config
  let name ← (Transition.register label owner.key).mapError fun _ => .error .invalidInstructionData
  requireAddress nameAccount (deriveNameAddress programId config.namespace.bytes name.nameHash)
  let seeds := registerSeeds name.nameHash
  let bytes := encodeState name
  let L ←
    (if L.owner nameAccount.key = programId then do
       match Availability.ensureProgramOwnedNameAvailable (L.data nameAccount.key) with
       | .ok () => pure L
       | .error .nameTaken => throw (.error .accountAlreadyInitialized)
       | .error _ => throw (.error .invalidAccountData)
     else if L.data nameAccount.key = [] then createPda L owner nameAccount accounts seeds bytes.length
     else throw (.error .incorrectProgramId))
  store L owner nameAccount name

def transfer (nameHash : Bytes 32) (newOwner : ArchAddress) : ProgramResult Ledger := do
  reject (newOwner = Bytes.fill 32 0) (.error .invalidInstructionData)
  let (owner, iterator) ← nextAccountInfo accounts
  let (configAccount, iterator) ← nextAccountInfo iterator
  let (nameAccount, iterator) ← nextAccountInfo iterator
  let (listingAccount, _) ← nextAccountInfo iterator
  requireSigner owner
  let config ← loadConfig L configAccount
  ensureUnpaused config
  let name ← loadName L nameAccount config nameHash
  requireOwner owner name.owner
  requireAddress listingAccount (deriveListingAddress programId config.namespace.bytes nameHash)
  let active ← listingIsActive L listingAccount
  reject active (.error (.custom 2))
  store L owner nameAccount (Transition.transfer name newOwner)

def setRecord (nameHash : Bytes 32) (recordType : RecordType) (value : RecordValue)
    (expectedRevision : UInt64) : ProgramResult Ledger := do
  let (owner, iterator) ← nextAccountInfo accounts
  let (configAccount, iterator) ← nextAccountInfo iterator
  let (nameAccount, iterator) ← nextAccountInfo iterator
  let (recordAccount, _) ← nextAccountInfo iterator
  requireSigner owner
  let config ← loadConfig L configAccount
  let name ← loadName L nameAccount config nameHash
  requireOwner owner name.owner
  let textKey := value.textKey
  reject (recordType = .text ∧ textKey = none) (.error .invalidInstructionData)
  let expected ← orElseError .panic
    (deriveRecordAddressForValue programId config.namespace.bytes nameHash recordType textKey)
  requireAddress recordAccount expected
  let existing ←
    (if L.data recordAccount.key = [] then pure none
     else do
       reject (L.owner recordAccount.key ≠ programId) (.error .incorrectProgramId)
       let record ← load L RecordAccount recordAccount
       pure (some record))
  let record ← (Transition.setRecord config name existing recordType value expectedRevision).mapError
    fun _ => .error .invalidInstructionData
  let L ←
    (if existing = none then do
       let keyHash := textKey.map recordKeyHash
       let bytes := encodeState record
       if L.owner recordAccount.key = programId then pure L
       else if L.data recordAccount.key = [] then
         match keyHash with
         | some keyHash =>
             createPda L owner recordAccount accounts
               (setRecordKeySeeds nameHash recordType keyHash) bytes.length
         | none =>
             createPda L owner recordAccount accounts (setRecordSeeds nameHash recordType)
               bytes.length
       else throw (.error .incorrectProgramId)
     else pure L)
  store L owner recordAccount record

/-- The text key a deletion addresses: one for text records, none for the others. -/
def deletionKey (recordType : RecordType) (textKey : List UInt8) :
    ProgramResult (Option (List UInt8)) :=
  match recordType with
  | .text => do
      reject (textKey = []) (.error .invalidInstructionData)
      pure (some textKey)
  | _ => do
      reject (textKey ≠ []) (.error .invalidInstructionData)
      pure none

def deleteRecord (nameHash : Bytes 32) (recordType : RecordType) (textKey : Str)
    (expectedRevision : UInt64) : ProgramResult Ledger := do
  let (owner, iterator) ← nextAccountInfo accounts
  let (configAccount, iterator) ← nextAccountInfo iterator
  let (nameAccount, iterator) ← nextAccountInfo iterator
  let (recordAccount, _) ← nextAccountInfo iterator
  requireSigner owner
  let config ← loadConfig L configAccount
  let name ← loadName L nameAccount config nameHash
  requireOwner owner name.owner
  let keyOpt ← deletionKey recordType textKey.bytes
  let expected ← orElseError .panic
    (deriveRecordAddressForValue programId config.namespace.bytes nameHash recordType keyOpt)
  requireAddress recordAccount expected
  reject (L.owner recordAccount.key ≠ programId ∨ L.data recordAccount.key = [])
    (.error .uninitializedAccount)
  let existing ← load L RecordAccount recordAccount
  reject (existing.revision ≠ expectedRevision ∨ existing.recordType ≠ recordType ∨
      existing.nameHash ≠ nameHash ∨ existing.ownerSnapshot ≠ name.owner ∨
      existing.recordEpoch ≠ name.recordEpoch)
    (.error .invalidAccountData)
  reject (recordType = .text ∧ existing.value.textKey ≠ some textKey.bytes)
    (.error .invalidAccountData)
  realloc L recordAccount 0

def setPrimary (nameHash : Bytes 32) : ProgramResult Ledger := do
  let (owner, iterator) ← nextAccountInfo accounts
  let (configAccount, iterator) ← nextAccountInfo iterator
  let (nameAccount, iterator) ← nextAccountInfo iterator
  let (reverseAccount, _) ← nextAccountInfo iterator
  requireSigner owner
  let config ← loadConfig L configAccount
  let name ← loadName L nameAccount config nameHash
  requireOwner owner name.owner
  requireAddress reverseAccount (deriveReverseAddress programId config.namespace.bytes name.owner)
  let (name, reverse) := Transition.setPrimary name
  let L ←
    (if L.owner reverseAccount.key = programId then pure L
     else if L.data reverseAccount.key = [] then
       createPda L owner reverseAccount accounts (setPrimarySeeds name.owner)
         (encodeState reverse).length
     else throw (.error .incorrectProgramId))
  let L ← store L owner nameAccount name
  store L owner reverseAccount reverse

def clearPrimary : ProgramResult Ledger := do
  let (owner, iterator) ← nextAccountInfo accounts
  let (reverseAccount, _) ← nextAccountInfo iterator
  requireSigner owner
  reject (L.owner reverseAccount.key ≠ programId) (.error .incorrectProgramId)
  let reverse ← load L ReverseAccount reverseAccount
  requireOwner owner reverse.owner
  realloc L reverseAccount 0

def listName (nameHash : Bytes 32) (currency : QuoteCurrency) (price : UInt64) :
    ProgramResult Ledger := do
  reject (price = 0) (.error .invalidInstructionData)
  let (seller, iterator) ← nextAccountInfo accounts
  let (configAccount, iterator) ← nextAccountInfo iterator
  let (nameAccount, iterator) ← nextAccountInfo iterator
  let (listingAccount, _) ← nextAccountInfo iterator
  requireSigner seller
  let config ← loadConfig L configAccount
  ensureUnpaused config
  let name ← loadName L nameAccount config nameHash
  requireOwner seller name.owner
  requireAddress listingAccount (deriveListingAddress programId config.namespace.bytes nameHash)
  let active ← listingIsActive L listingAccount
  reject active (.error (.custom 2))
  let listing := Marketplace.createListing nameHash name.owner currency price
  let L ←
    (if L.owner listingAccount.key = programId then pure L
     else if L.data listingAccount.key = [] then
       createPda L seller listingAccount accounts (listNameSeeds nameHash)
         (encodeState listing).length
     else throw (.error .incorrectProgramId))
  store L seller listingAccount listing

def cancelListing (nameHash : Bytes 32) : ProgramResult Ledger := do
  let (seller, iterator) ← nextAccountInfo accounts
  let (configAccount, iterator) ← nextAccountInfo iterator
  let (nameAccount, iterator) ← nextAccountInfo iterator
  let (listingAccount, _) ← nextAccountInfo iterator
  requireSigner seller
  let config ← loadConfig L configAccount
  ensureUnpaused config
  let name ← loadName L nameAccount config nameHash
  requireOwner seller name.owner
  let listing ← loadActiveListing L listingAccount config nameHash
  reject (listing.seller ≠ name.owner) (.error .invalidAccountData)
  store L seller listingAccount (Marketplace.deactivateListing listing)

/-- The four trailing accounts of an aBTC settlement, and its token transfer. -/
def settleAbtc (payer : AccountInfo) (iterator : List AccountInfo) (price : UInt64) :
    ProgramResult Ledger := do
  let (buyerAta, iterator) ← nextAccountInfo iterator
  let (sellerAta, iterator) ← nextAccountInfo iterator
  let (mint, iterator) ← nextAccountInfo iterator
  let (tokenProgram, _) ← nextAccountInfo iterator
  reject (mint.key ≠ testnetAbtcMint) (.error .invalidAccountData)
  reject (tokenProgram.key ≠ tokenProgramIdBytes) (.error .incorrectProgramId)
  transferAbtc L payer buyerAta sellerAta mint tokenProgram price

def buyName (nameHash : Bytes 32) : ProgramResult Ledger := do
  let (buyer, iterator) ← nextAccountInfo accounts
  let (seller, iterator) ← nextAccountInfo iterator
  let (configAccount, iterator) ← nextAccountInfo iterator
  let (nameAccount, iterator) ← nextAccountInfo iterator
  let (listingAccount, iterator) ← nextAccountInfo iterator
  requireSigner buyer
  let config ← loadConfig L configAccount
  ensureUnpaused config
  let name ← loadName L nameAccount config nameHash
  let listing ← loadActiveListing L listingAccount config nameHash
  reject (name.owner ≠ listing.seller) (.error .invalidAccountData)
  reject (seller.key ≠ listing.seller) (.error .invalidAccountData)
  reject (buyer.key = listing.seller) (.error .invalidInstructionData)
  let L ←
    (match listing.currency with
     | .arch => transferLamports L buyer seller listing.price
     | .btc => settleAbtc L buyer iterator listing.price)
  let L ← store L buyer nameAccount (Transition.transfer name buyer.key)
  store L buyer listingAccount (Marketplace.deactivateListing listing)

def makeOffer (nameHash : Bytes 32) (currency : QuoteCurrency) (price : UInt64) :
    ProgramResult Ledger := do
  reject (price = 0) (.error .invalidInstructionData)
  let (buyer, iterator) ← nextAccountInfo accounts
  let (configAccount, iterator) ← nextAccountInfo iterator
  let (nameAccount, iterator) ← nextAccountInfo iterator
  let (offerAccount, _) ← nextAccountInfo iterator
  requireSigner buyer
  let config ← loadConfig L configAccount
  ensureUnpaused config
  let name ← loadName L nameAccount config nameHash
  reject (name.owner = buyer.key) (.error .invalidInstructionData)
  requireAddress offerAccount
    (deriveOfferAddress programId config.namespace.bytes nameHash buyer.key)
  let active ← offerIsActive L offerAccount
  reject active (.error (.custom 2))
  let offer := Marketplace.createOffer nameHash buyer.key currency price
  let L ←
    (if L.owner offerAccount.key = programId then pure L
     else if L.data offerAccount.key = [] then
       createPda L buyer offerAccount accounts (makeOfferSeeds nameHash buyer.key)
         (encodeState offer).length
     else throw (.error .incorrectProgramId))
  let L ← store L buyer offerAccount offer
  if currency = .arch then transferLamports L buyer offerAccount price else pure L

def cancelOffer (nameHash : Bytes 32) : ProgramResult Ledger := do
  let (buyer, iterator) ← nextAccountInfo accounts
  let (configAccount, iterator) ← nextAccountInfo iterator
  let (offerAccount, _) ← nextAccountInfo iterator
  requireSigner buyer
  let config ← loadConfig L configAccount
  ensureUnpaused config
  let offer ← loadActiveOffer L offerAccount config nameHash buyer.key
  let L ←
    (if offer.currency = .arch then transferLamports L offerAccount buyer offer.price else pure L)
  store L buyer offerAccount (Marketplace.deactivateOffer offer)

def acceptOffer (nameHash : Bytes 32) (buyerKey : ArchAddress) : ProgramResult Ledger := do
  let (seller, iterator) ← nextAccountInfo accounts
  let (buyer, iterator) ← nextAccountInfo iterator
  let (configAccount, iterator) ← nextAccountInfo iterator
  let (nameAccount, iterator) ← nextAccountInfo iterator
  let (offerAccount, iterator) ← nextAccountInfo iterator
  let (listingAccount, iterator) ← nextAccountInfo iterator
  requireSigner seller
  let config ← loadConfig L configAccount
  ensureUnpaused config
  let name ← loadName L nameAccount config nameHash
  requireOwner seller name.owner
  reject (buyer.key ≠ buyerKey) (.error .invalidAccountData)
  let offer ← loadActiveOffer L offerAccount config nameHash buyerKey
  let L ←
    (match offer.currency with
     | .arch => transferLamports L offerAccount seller offer.price
     | .btc => do
         requireSigner buyer
         settleAbtc L buyer iterator offer.price)
  requireAddress listingAccount (deriveListingAddress programId config.namespace.bytes nameHash)
  let active ← listingIsActive L listingAccount
  let L ←
    (if active then do
       let listing ← load L ListingAccount listingAccount
       store L seller listingAccount (Marketplace.deactivateListing listing)
     else pure L)
  let L ← store L seller nameAccount (Transition.transfer name buyerKey)
  store L seller offerAccount (Marketplace.deactivateOffer offer)

/-- The registry half of `process_instruction`; expiry and governance are not deployed. -/
def dispatch : NameInstruction → ProgramResult Ledger
  | .initializeRegistry networkId namespaceAuthority =>
      initializeRegistry L accounts networkId namespaceAuthority
  | .register label _ => register L accounts label
  | .transfer nameHash newOwner => transfer L accounts nameHash newOwner
  | .setRecord nameHash recordType value expectedRevision =>
      setRecord L accounts nameHash recordType value expectedRevision
  | .deleteRecord nameHash recordType textKey expectedRevision =>
      deleteRecord L accounts nameHash recordType textKey expectedRevision
  | .setPrimary nameHash => setPrimary L accounts nameHash
  | .clearPrimary => clearPrimary L accounts
  | .listName nameHash currency price => listName L accounts nameHash currency price
  | .cancelListing nameHash => cancelListing L accounts nameHash
  | .buyName nameHash => buyName L accounts nameHash
  | .makeOffer nameHash currency price => makeOffer L accounts nameHash currency price
  | .cancelOffer nameHash => cancelOffer L accounts nameHash
  | .acceptOffer nameHash buyer => acceptOffer L accounts nameHash buyer
  | .renew .. | .reclaimExpired .. | .updateConfig .. => throw (.error .invalidInstructionData)

end

end ArchNameService
