import ArchNameService.Lib.Comparator
import ArchNameService.Manager.Quote

/-! The entries of the marketplace, how they are sorted, and the floors (`marketplace.ts`). -/

namespace ArchNameService

namespace Manager
open JsString
open Sdk (Platform Thrown toLowerCase)

/-- `String.prototype.localeCompare`, in the locale of the browser. -/
class Locale where
  localeCompare : Comparator JsString
  consistent : localeCompare.Consistent

/-- Times are in milliseconds, where the explorer knows one. -/
structure MarketplaceListing where
  currency : QuoteCurrency
  price : Int
  listedAtSlot : Option Int
  listedAt : Option Int
  deriving DecidableEq

structure MarketplaceEntry where
  name : JsString
  ownerDisplay : JsString
  registeredAtSlot : Int
  registeredAt : Option Int
  listing : Option MarketplaceListing
  deriving DecidableEq

inductive CollectionId where
  | all
  | oneChar
  | twoChar
  | threeChar
  | fourChar
  | fivePlus
  deriving DecidableEq

inductive MarketplaceSort where
  | priceAsc
  | priceDesc
  | listedRecent
  | nameAsc
  | nameDesc
  | lengthAsc
  | lengthDesc
  | recent
  deriving DecidableEq

/-- The ids of `MARKETPLACE_COLLECTIONS`, in order. -/
def marketplaceCollections : List CollectionId :=
  [.all, .oneChar, .twoChar, .threeChar, .fourChar, .fivePlus]

/-! ## Labels and collections -/

def labelFromCanonical [Platform] (canonical : JsString) : Except Thrown JsString := do
  let normalized ← Sdk.canonicalizeName canonical
  pure (dropEnd Sdk.archSuffix.length normalized)

def labelLength [Platform] (name : JsString) : Nat :=
  match labelFromCanonical name with
  | .ok label => label.length
  | .error _ =>
      let trimmed := toLowerCase name.trim
      if endsWith Sdk.archSuffix trimmed then trimmed.length - Sdk.archSuffix.length
      else trimmed.length

def entryMatchesCollection [Platform] (entry : MarketplaceEntry) : CollectionId → Bool
  | .all => true
  | .oneChar => labelLength entry.name == 1
  | .twoChar => labelLength entry.name == 2
  | .threeChar => labelLength entry.name == 3
  | .fourChar => labelLength entry.name == 4
  | .fivePlus => 5 ≤ labelLength entry.name

/-! ## Sorting -/

/-- The displayed amount with eight decimals; the division of a `bigint` truncates. -/
def listingPriceSortKey (listing : MarketplaceListing) : Int :=
  (listing.price * 100000000).tdiv (10 ^ quoteDecimals listing.currency)

def compareBigint : Comparator Int := fun a b => if a = b then 0 else if a < b then -1 else 1

/-- Newest first, and the unknown times last. -/
def compareRecency : Comparator (Option Int)
  | none, none => 0
  | none, some _ => 1
  | some _, none => -1
  | some a, some b => b - a

section
variable [Platform] [Locale]

/-- The closure that `sortMarketplaceEntries` passes to `sort`. -/
def compareEntries (sort : MarketplaceSort) : Comparator MarketplaceEntry := fun a b =>
  let byName := Locale.localeCompare a.name b.name
  match sort with
  | .priceAsc | .priceDesc =>
      match a.listing.map listingPriceSortKey, b.listing.map listingPriceSortKey with
      | none, none => byName
      | none, some _ => 1
      | some _, none => -1
      | some aKey, some bKey =>
          let d := compareBigint aKey bKey
          if d ≠ 0 then if sort = .priceAsc then d else -d else byName
  | .listedRecent =>
      let byTime := compareRecency (a.listing.bind (·.listedAt)) (b.listing.bind (·.listedAt))
      if byTime ≠ 0 then byTime
      else
        match a.listing.bind (·.listedAtSlot), b.listing.bind (·.listedAtSlot) with
        | none, none => byName
        | none, some _ => 1
        | some _, none => -1
        | some aSlot, some bSlot =>
            let d := compareBigint bSlot aSlot
            if d ≠ 0 then d else byName
  | .nameDesc => if b.name < a.name then -1 else if a.name < b.name then 1 else 0
  | .lengthAsc =>
      let d : Int := labelLength a.name - labelLength b.name
      if d ≠ 0 then d else byName
  | .lengthDesc =>
      let d : Int := labelLength b.name - labelLength a.name
      if d ≠ 0 then d else byName
  | .recent =>
      let byTime := compareRecency a.registeredAt b.registeredAt
      if byTime ≠ 0 then byTime
      else
        let d := compareBigint b.registeredAtSlot a.registeredAtSlot
        if d ≠ 0 then d else byName
  | .nameAsc => byName

def sortMarketplaceEntries (entries : List MarketplaceEntry) (sort : MarketplaceSort) :
    List MarketplaceEntry := (compareEntries sort).sort entries

end

/-! ## Floors -/

def listedEntries (entries : List MarketplaceEntry) : List MarketplaceEntry :=
  entries.filter (·.listing.isSome)

abbrev Floors := QuoteCurrency → Option MarketplaceEntry

/-- One turn of the loop over the listed entries. -/
def lowerFloor (floors : Floors) (entry : MarketplaceEntry) : Floors :=
  match entry.listing with
  | none => floors
  | some listing =>
      match (floors listing.currency).bind (·.listing) with
      | none => Function.update floors listing.currency (some entry)
      | some current =>
          if listing.price < current.price then
            Function.update floors listing.currency (some entry)
          else floors

/-- The lowest ask in each currency. -/
def marketplaceFloors (entries : List MarketplaceEntry) : Floors :=
  (listedEntries entries).foldl lowerFloor fun _ => none

inductive Direction where
  | asc
  | desc
  deriving DecidableEq

section
variable [Platform] [Locale]

def topListingsByPrice (entries : List MarketplaceEntry) (direction : Direction) (limit : Int) :
    List MarketplaceEntry :=
  (sortMarketplaceEntries (listedEntries entries)
    (if direction = .asc then .priceAsc else .priceDesc)).take (max 0 limit).toNat

/-- The cheapest entry of each collection that has a listing. -/
def collectionFloors (entries : List MarketplaceEntry) : List (CollectionId × MarketplaceEntry) :=
  (marketplaceCollections.filter (· ≠ .all)).filterMap fun collection =>
    ((topListingsByPrice (entries.filter fun e => entryMatchesCollection e collection) .asc 1)[0]?).map
      fun cheapest => (collection, cheapest)

end

end Manager

end ArchNameService
