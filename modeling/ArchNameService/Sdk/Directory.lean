import Mathlib.Data.Rat.Floor
import ArchNameService.Lib.Comparator
import ArchNameService.Lib.Hex
import ArchNameService.Sdk.Client

/-!
# The directory

What `ans-client.ts` finds among the accounts of the program: the names, those of one
owner, the newest, the listings and the offers; and its reads of one listing, offer or
pointer.
-/

namespace ArchNameService

namespace Sdk
open JsString

/-! ## Scans -/

/-- `DataContent`: the data holds these bytes at this place. -/
structure AccountFilter where
  offset : Nat
  bytes : List UInt8

structure ProgramAccountEntry where
  pubkey : List UInt8
  account : AccountInfo

/-- `getProgramAccounts`, of a transport that has it. -/
abbrev ProgramScan := ArchAddress → List AccountFilter → Except Thrown (List ProgramAccountEntry)

structure NamedAccount where
  name : JsString
  account : NameAccount

structure NamedListing where
  name : JsString
  listing : ListingAccount

/-- `AnsClient` needs scans for these. -/
def requireScan (scan : Option ProgramScan) : Except Thrown ProgramScan :=
  orElseError (codecError "transport does not support getProgramAccounts") scan

def hasDiscriminator (discriminator : Bytes 8) : AccountFilter :=
  { offset := 0, bytes := discriminator.toList }

/-! ## Newest first -/

def compareRecent : Comparator NamedAccount := fun a b =>
  if a.account.registeredAtSlot = b.account.registeredAtSlot then
    if b.name < a.name then -1 else if a.name < b.name then 1 else 0
  else if b.account.registeredAtSlot < a.account.registeredAtSlot then -1 else 1

/-- A limit that is not finite, `none`, counts as zero. -/
def selectRecentNames (entries : List NamedAccount) (limit : Option ℚ) : List NamedAccount :=
  let capped := match limit with
    | some limit => (max 0 ⌊limit⌋).toNat
    | none => 0
  (compareRecent.sort entries).take capped

namespace AnsClient
variable [Crypto] [Platform] (client : AnsClient) (scan : Option ProgramScan)

/-! ## One account -/

def resolveOwner (name : JsString) : Except Thrown ArchAddress := do
  let config ← client.fetchRegistryConfig
  let hash ← nameHash name
  let address := deriveNameAddress client.programId client.namespace hash
  let account ← client.transport.readAccountInfo address
  let account ← orElseError
    (.ansError .accountNotFound (some ("name account for " ++ display name))) account
  let slot ← client.transport.getCurrentSlot
  let state ← decodeNameAccount account.data
  Sdk.resolveOwner client.programId ⟨client.registryConfigAddress, config⟩ name ⟨address, state⟩ slot

def fetchReverse (owner : List UInt8) : Except Thrown (Option ReverseAccount) := do
  let address := deriveReverseAddress client.programId client.namespace owner
  match ← client.transport.readAccountInfo address with
  | none => pure none
  | some account =>
      if account.data = [] then pure none
      else do
        let decoded ← decodeReverseAccount account.data
        validateHeader decoded.header reverseAccountDiscriminator
        pure (some decoded)

/-- The listing in the data, if it is one and active. -/
def activeListing (data : List UInt8) : Option ListingAccount :=
  let attempt := do
    let listing ← decodeListingAccount data
    validateHeader listing.header listingAccountDiscriminator
    pure listing
  attempt.toOption.filter (·.active)

def activeOffer (data : List UInt8) : Option OfferAccount :=
  let attempt := do
    let offer ← decodeOfferAccount data
    validateHeader offer.header offerAccountDiscriminator
    pure offer
  attempt.toOption.filter (·.active)

def fetchListing (name : JsString) : Except Thrown (Option ListingAccount) := do
  let canonical ← canonicalizeName name
  let hash ← nameHash canonical
  let address := deriveListingAddress client.programId client.namespace hash
  match ← client.transport.readAccountInfo address with
  | none => pure none
  | some info => pure (if info.data = [] then none else activeListing info.data)

def fetchOffer (name : JsString) (buyer : List UInt8) : Except Thrown (Option OfferAccount) := do
  let canonical ← canonicalizeName name
  let hash ← nameHash canonical
  let address := deriveOfferAddress client.programId client.namespace hash buyer
  match ← client.transport.readAccountInfo address with
  | none => pure none
  | some info => pure (if info.data = [] then none else activeOffer info.data)

/-! ## All accounts -/

/-- The name that an entry is; what throws is passed over. -/
def namedEntry (entry : ProgramAccountEntry) : Option NamedAccount :=
  if entry.account.owner ≠ client.programId.toList then none
  else
    let attempt := do
      let account ← decodeNameAccount entry.account.data
      validateHeader account.header nameAccountDiscriminator
      let name ← canonicalizeName (account.canonicalLabel ++ archSuffix)
      pure { name, account : NamedAccount }
    attempt.toOption.filter fun named =>
      (deriveNameAddress client.programId client.namespace named.account.nameHash).toList =
        entry.pubkey

def listNameAccounts : Except Thrown (List NamedAccount) := do
  let getProgramAccounts ← requireScan scan
  let entries ← getProgramAccounts client.programId [hasDiscriminator nameAccountDiscriminator]
  pure (entries.filterMap client.namedEntry)

def listOwnedNames (owner : List UInt8) : Except Thrown (List NamedAccount) := do
  let names ← client.listNameAccounts scan
  pure (names.filter fun entry => entry.account.owner.toList = owner)

/-- The default limit is 12. -/
def listRecentNames (limit : Option (Option ℚ)) : Except Thrown (List NamedAccount) := do
  let names ← client.listNameAccounts scan
  pure (selectRecentNames names (limit.getD (some 12)))

/-- The active offer for a name that an entry is. -/
def offerEntry (hash : Bytes 32) (entry : ProgramAccountEntry) : Option OfferAccount :=
  if entry.account.owner ≠ client.programId.toList then none
  else
    (activeOffer entry.account.data).filter fun offer =>
      offer.nameHash = hash ∧
        (deriveOfferAddress client.programId client.namespace hash offer.buyer.toList).toList =
          entry.pubkey

def listOffersForName (name : JsString) : Except Thrown (List OfferAccount) := do
  let getProgramAccounts ← requireScan scan
  let canonical ← canonicalizeName name
  let hash ← nameHash canonical
  let entries ← getProgramAccounts client.programId
    [hasDiscriminator offerAccountDiscriminator, { offset := 11, bytes := hash.toList }]
  pure (entries.filterMap (client.offerEntry hash))

/-- The active listing that an entry is, under the name of its hash. -/
def listingEntry (byHash : List (JsString × JsString)) (entry : ProgramAccountEntry) :
    Option NamedListing :=
  if entry.account.owner ≠ client.programId.toList then none
  else do
    let listing ← activeListing entry.account.data
    if (deriveListingAddress client.programId client.namespace listing.nameHash).toList ≠
        entry.pubkey then none
    else do
      let name ← (byHash.lookup (bytesToHex listing.nameHash.toList)).filter (· ≠ [])
      pure { name, listing }

/-- The names are scanned after the listings. -/
def listActiveListings : Except Thrown (List NamedListing) := do
  let getProgramAccounts ← requireScan scan
  let entries ←
    getProgramAccounts client.programId [hasDiscriminator listingAccountDiscriminator]
  let names ← client.listNameAccounts scan
  -- a later entry of a `Map` replaces an earlier one
  let byHash := names.reverse.map fun entry =>
    (bytesToHex entry.account.nameHash.toList, entry.name)
  pure (entries.filterMap (client.listingEntry byHash))

end AnsClient

end Sdk

end ArchNameService
