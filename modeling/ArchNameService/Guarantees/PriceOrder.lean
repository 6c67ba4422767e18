import ArchNameService.Manager.Marketplace
import ArchNameService.Guarantees.Names

/-!
# The order of the prices

The marketplace is sorted by a key with eight decimals, and the floors by the prices
themselves. An ask in ARCH has nine: two asks that differ in the last one have the same
key, and are ordered by their names.
-/

namespace ArchNameService

namespace Manager
open JsString Comparator
open Sdk (Platform)

def ask (entry : MarketplaceEntry) : Option Int := entry.listing.map (·.price)

/-- The entries without the asks in the other currency. -/
def inCurrency (currency : QuoteCurrency) (entries : List MarketplaceEntry) :
    List MarketplaceEntry :=
  entries.filter fun entry => entry.listing.all (·.currency = currency)

/-- Asks of one currency are ordered by the relation. -/
def Asks (R : Int → Int → Prop) (a b : MarketplaceEntry) : Prop :=
  ∀ l m, a.listing = some l → b.listing = some m → l.currency = m.currency → R l.price m.price

/-- No two asks in ARCH differ in the ninth decimal alone. -/
def ToldApart (entries : List MarketplaceEntry) : Prop :=
  ∀ a ∈ entries, ∀ b ∈ entries, ∀ l m, a.listing = some l → b.listing = some m →
    l.currency = .arch → m.currency = .arch → l.price.tdiv 10 = m.price.tdiv 10 →
    l.price = m.price

section
variable [Platform] [Locale]

/-- The list is sorted exactly, and the cheapest entries have the lowest prices. -/
structure PriceExact (entries : List MarketplaceEntry) : Prop where
  perm : ∀ sort, (sortMarketplaceEntries entries sort).Perm entries
  asc : (sortMarketplaceEntries entries .priceAsc).Pairwise (Asks (· ≤ ·))
  desc : (sortMarketplaceEntries entries .priceDesc).Pairwise (Asks (· ≥ ·))
  unlisted : ∀ sort, sort = .priceAsc ∨ sort = .priceDesc →
    (sortMarketplaceEntries entries sort).Pairwise fun a b => a.listing = none → b.listing = none
  floor : ∀ currency,
    ((topListingsByPrice (inCurrency currency entries) .asc 1)[0]?).map ask =
      (marketplaceFloors (inCurrency currency entries) currency).map ask
  collections : ∀ currency,
    (collectionFloors (inCurrency currency entries)).map (fun row => (row.1, ask row.2)) =
      (marketplaceCollections.filter (· ≠ .all)).filterMap fun collection =>
        (marketplaceFloors ((inCurrency currency entries).filter fun e =>
          entryMatchesCollection e collection) currency).map fun e => (collection, ask e)

end

/-! ## The keys -/

section
variable {l m : MarketplaceListing}

theorem sortKey_arch (h : l.currency = .arch) : listingPriceSortKey l = l.price.tdiv 10 := by
  have hscale : (10 : Int) ^ quoteDecimals l.currency = 10 * 100000000 := by rw [h]; rfl
  rw [listingPriceSortKey, hscale]
  exact Int.mul_tdiv_mul_of_pos_left _ _ (by decide)

theorem sortKey_btc (h : l.currency = .btc) : listingPriceSortKey l = l.price := by
  have hscale : (10 : Int) ^ quoteDecimals l.currency = 100000000 := by rw [h]; rfl
  rw [listingPriceSortKey, hscale]
  exact Int.mul_tdiv_cancel _ (by decide)

theorem sortKey_mono (hcurrency : l.currency = m.currency) (h : l.price ≤ m.price) :
    listingPriceSortKey l ≤ listingPriceSortKey m := by
  cases hm : m.currency with
  | arch =>
      rw [sortKey_arch hm, sortKey_arch (hcurrency.trans hm)]
      exact Int.tdiv_le_tdiv (by decide) h
  | btc => rwa [sortKey_btc hm, sortKey_btc (hcurrency.trans hm)]

/-- Where asks are told apart, the order of the keys is that of the prices. -/
theorem price_le_of_sortKey {entries : List MarketplaceEntry} {a b : MarketplaceEntry}
    (hapart : ToldApart entries) (ha : a ∈ entries) (hb : b ∈ entries) (hl : a.listing = some l)
    (hm : b.listing = some m) (hcurrency : l.currency = m.currency)
    (h : listingPriceSortKey l ≤ listingPriceSortKey m) : l.price ≤ m.price := by
  by_contra hlt
  have hkey := h.antisymm (sortKey_mono hcurrency.symm (Int.not_le.mp hlt).le)
  cases hbtc : m.currency with
  | arch =>
      have harch := hcurrency.trans hbtc
      rw [sortKey_arch hbtc, sortKey_arch harch] at hkey
      exact hlt (hapart a ha b hb l m hl hm harch hbtc hkey).le
  | btc =>
      rw [sortKey_btc hbtc, sortKey_btc (hcurrency.trans hbtc)] at hkey
      exact hlt hkey.le

end

/-! ## The comparator of the prices -/

theorem compareBigint_consistent : compareBigint.Consistent where
  antisymm a b := by
    simp only [compareBigint]
    split <;> split <;> (try split) <;> (try split) <;> omega
  trans a b c hab hbc := by
    simp only [compareBigint] at *
    split at hab <;> split at hbc <;> split <;> (try split at hab) <;> (try split at hbc) <;>
      (try split) <;> omega

theorem compareBigint_le {a b : Int} : compareBigint a b ≤ 0 ↔ a ≤ b := by
  unfold compareBigint
  split
  · omega
  · split <;> omega

theorem compareBigint_zero {a b : Int} : compareBigint a b = 0 ↔ a = b := by
  unfold compareBigint
  split
  · omega
  · split <;> omega

/-- The order of the keys, in the direction of the sort. -/
def byKey (sort : MarketplaceSort) : Comparator Int :=
  if sort = .priceAsc then compareBigint else compareBigint.reversed

theorem byKey_consistent (sort : MarketplaceSort) : (byKey sort).Consistent := by
  unfold byKey
  split
  · exact compareBigint_consistent
  · exact compareBigint_consistent.reversed

section
variable [Platform] [Locale] {entries : List MarketplaceEntry} {sort : MarketplaceSort}
  {a b : MarketplaceEntry} {l m : MarketplaceListing}

theorem compareEntries_price (hsort : sort = .priceAsc ∨ sort = .priceDesc) :
    compareEntries sort = ((byKey sort).missingLast.onKey (·.listing.map listingPriceSortKey)).thenBy
      (Locale.localeCompare.onKey (·.name)) := by
  funext a b
  have hkeys : (byKey sort).missingLast.onKey (·.listing.map listingPriceSortKey) a b =
      (byKey sort).missingLast (a.listing.map listingPriceSortKey)
        (b.listing.map listingPriceSortKey) := rfl
  cases ha : a.listing.map listingPriceSortKey with
  | none =>
      cases hb : b.listing.map listingPriceSortKey with
      | none =>
          have hcompare : compareEntries sort a b = Locale.localeCompare a.name b.name := by
            rcases hsort with rfl | rfl <;> simp only [compareEntries, ha, hb]
          rw [hcompare, thenBy_of_zero (by rw [hkeys, ha, hb]; rfl)]
          rfl
      | some bKey =>
          have hcompare : compareEntries sort a b = 1 := by
            rcases hsort with rfl | rfl <;> simp only [compareEntries, ha, hb]
          have hlast : (byKey sort).missingLast none (some bKey) = 1 := rfl
          rw [ha, hb, hlast] at hkeys
          rw [hcompare, thenBy_of_ne (by rw [hkeys]; decide), hkeys]
  | some aKey =>
      cases hb : b.listing.map listingPriceSortKey with
      | none =>
          have hcompare : compareEntries sort a b = -1 := by
            rcases hsort with rfl | rfl <;> simp only [compareEntries, ha, hb]
          have hfirst : (byKey sort).missingLast (some aKey) none = -1 := rfl
          rw [ha, hb, hfirst] at hkeys
          rw [hcompare, thenBy_of_ne (by rw [hkeys]; decide), hkeys]
      | some bKey =>
          have hcompare : compareEntries sort a b =
              if compareBigint aKey bKey ≠ 0 then
                if sort = .priceAsc then compareBigint aKey bKey else -compareBigint aKey bKey
              else Locale.localeCompare a.name b.name := by
            rcases hsort with rfl | rfl <;> simp only [compareEntries, ha, hb]
          have hdirection : (byKey sort).missingLast (some aKey) (some bKey) =
              if sort = .priceAsc then compareBigint aKey bKey else -compareBigint aKey bKey := by
            simp only [missingLast, byKey]
            split <;> rfl
          rw [ha, hb, hdirection] at hkeys
          rw [hcompare]
          by_cases htie : compareBigint aKey bKey = 0
          · rw [thenBy_of_zero (by rw [hkeys]; split <;> omega), if_neg (not_not.mpr htie)]
            rfl
          · rw [thenBy_of_ne (by rw [hkeys]; split <;> omega), if_pos htie, hkeys]

theorem compareEntries_consistent (hsort : sort = .priceAsc ∨ sort = .priceDesc) :
    (compareEntries sort).Consistent := by
  rw [compareEntries_price hsort]
  exact ((byKey_consistent sort).missingLast.onKey _).thenBy (Locale.consistent.onKey _)

/-- What comes first has no later key, where both have one. -/
theorem keys_of_compare (hsort : sort = .priceAsc ∨ sort = .priceDesc)
    (h : compareEntries sort a b ≤ 0) :
    (byKey sort).missingLast (a.listing.map listingPriceSortKey)
      (b.listing.map listingPriceSortKey) ≤ 0 := by
  rw [compareEntries_price hsort] at h
  have hfirst := first_of_thenBy h
  exact hfirst

theorem unlisted_of_compare (hsort : sort = .priceAsc ∨ sort = .priceDesc)
    (h : compareEntries sort a b ≤ 0) (ha : a.listing = none) : b.listing = none := by
  have hkeys := keys_of_compare hsort h
  rw [ha] at hkeys
  cases hb : b.listing with
  | none => rfl
  | some m =>
      rw [hb] at hkeys
      exact absurd hkeys (by decide : ¬ (1 : Int) ≤ 0)

theorem key_le_of_asc (h : compareEntries .priceAsc a b ≤ 0) (hl : a.listing = some l)
    (hm : b.listing = some m) : listingPriceSortKey l ≤ listingPriceSortKey m := by
  have hkeys := keys_of_compare (.inl rfl) h
  rw [hl, hm] at hkeys
  exact compareBigint_le.mp hkeys

theorem key_le_of_desc (h : compareEntries .priceDesc a b ≤ 0) (hl : a.listing = some l)
    (hm : b.listing = some m) : listingPriceSortKey m ≤ listingPriceSortKey l := by
  have hkeys := keys_of_compare (.inr rfl) h
  rw [hl, hm] at hkeys
  have hreversed : -compareBigint (listingPriceSortKey l) (listingPriceSortKey m) ≤ 0 := hkeys
  have hback := compareBigint_consistent.antisymm (listingPriceSortKey m) (listingPriceSortKey l)
  have hforth := compareBigint_consistent.antisymm (listingPriceSortKey l) (listingPriceSortKey m)
  exact compareBigint_le.mp (by omega)

/-- Two asks with one key are ordered alike in both directions. -/
theorem compare_of_key (hl : a.listing = some l) (hm : b.listing = some m)
    (hkey : listingPriceSortKey l = listingPriceSortKey m)
    (hsort : sort = .priceAsc ∨ sort = .priceDesc) :
    compareEntries sort a b = Locale.localeCompare a.name b.name := by
  have hzero := compareBigint_zero.mpr hkey
  have htie : byKey sort (listingPriceSortKey l) (listingPriceSortKey m) = 0 := by
    rcases hsort with rfl | rfl
    · exact hzero
    · exact neg_eq_zero.mpr hzero
  rw [compareEntries_price hsort, thenBy_of_zero]
  · rfl
  · simp only [onKey, hl, hm, Option.map_some]
    exact htie

/-! ## The sorted list -/

theorem sorted_perm (entries : List MarketplaceEntry) (sort : MarketplaceSort) :
    (sortMarketplaceEntries entries sort).Perm entries := sort_perm _ _

/-- What a comparison of two entries of the list implies holds in order of the sorted list. -/
theorem sorted_pairwise (hsort : sort = .priceAsc ∨ sort = .priceDesc)
    {R : MarketplaceEntry → MarketplaceEntry → Prop}
    (h : ∀ a ∈ entries, ∀ b ∈ entries, compareEntries sort a b ≤ 0 → R a b) :
    (sortMarketplaceEntries entries sort).Pairwise R := by
  have hmem := fun e => (sorted_perm entries sort).mem_iff (a := e)
  refine (sort_pairwise (compareEntries_consistent hsort) entries).imp_of_mem ?_
  exact fun ha hb hle => h _ ((hmem _).mp ha) _ ((hmem _).mp hb) hle

theorem sorted_asc (hapart : ToldApart entries) :
    (sortMarketplaceEntries entries .priceAsc).Pairwise (Asks (· ≤ ·)) := by
  apply sorted_pairwise (.inl rfl)
  intro a ha b hb hle l m hl hm hcurrency
  exact price_le_of_sortKey hapart ha hb hl hm hcurrency (key_le_of_asc hle hl hm)

theorem sorted_desc (hapart : ToldApart entries) :
    (sortMarketplaceEntries entries .priceDesc).Pairwise (Asks (· ≥ ·)) := by
  apply sorted_pairwise (.inr rfl)
  intro a ha b hb hle l m hl hm hcurrency
  exact price_le_of_sortKey hapart hb ha hm hl hcurrency.symm (key_le_of_desc hle hl hm)

/-- Asks of one key and two prices: one of the two directions has them wrong. -/
theorem toldApart_of_sorted
    (hasc : (sortMarketplaceEntries entries .priceAsc).Pairwise (Asks (· ≤ ·)))
    (hdesc : (sortMarketplaceEntries entries .priceDesc).Pairwise (Asks (· ≥ ·))) :
    ToldApart entries := by
  intro a ha b hb l m hl hm hlarch hmarch hdigits
  by_contra hne
  have hab : a ≠ b := by
    rintro rfl
    exact hne (congrArg _ (Option.some.inj (hl.symm.trans hm)))
  have hkey : listingPriceSortKey l = listingPriceSortKey m := by
    rw [sortKey_arch hlarch, sortKey_arch hmarch, hdigits]
  have hcurrency := hlarch.trans hmarch.symm
  have hsame := sort_same_order (compareEntries_consistent (.inl rfl))
    (compareEntries_consistent (.inr rfl)) ha hb hab
    ((compare_of_key hl hm hkey (.inl rfl)).trans (compare_of_key hl hm hkey (.inr rfl)).symm)
    ((compare_of_key hm hl hkey.symm (.inl rfl)).trans
      (compare_of_key hm hl hkey.symm (.inr rfl)).symm)
  rcases hsame with ⟨hup, hdown⟩ | ⟨hup, hdown⟩
  · have hle := List.pairwise_pair.mp (hasc.sublist hup) l m hl hm hcurrency
    have hge := List.pairwise_pair.mp (hdesc.sublist hdown) l m hl hm hcurrency
    exact hne (hle.antisymm hge)
  · have hle := List.pairwise_pair.mp (hasc.sublist hup) m l hm hl hcurrency.symm
    have hge := List.pairwise_pair.mp (hdesc.sublist hdown) m l hm hl hcurrency.symm
    exact hne (hge.antisymm hle)

end

/-! ## Floors -/

/-- The entry is a cheapest one of the currency, if there is one. -/
def IsFloor (entries : List MarketplaceEntry) (currency : QuoteCurrency) :
    Option MarketplaceEntry → Prop
  | none => ∀ e ∈ entries, ∀ l, e.listing = some l → l.currency ≠ currency
  | some floor => floor ∈ entries ∧ ∃ lowest, floor.listing = some lowest ∧
      lowest.currency = currency ∧
      ∀ e ∈ entries, ∀ l, e.listing = some l → l.currency = currency → lowest.price ≤ l.price

theorem IsFloor.ask_eq {entries : List MarketplaceEntry} {currency : QuoteCurrency}
    {floor floor' : Option MarketplaceEntry} (h : IsFloor entries currency floor)
    (h' : IsFloor entries currency floor') : floor.map ask = floor'.map ask := by
  cases floor with
  | none =>
      cases floor' with
      | none => rfl
      | some e' =>
          obtain ⟨hmem, l, hl, hcurrency, -⟩ := h'
          exact absurd hcurrency (h e' hmem l hl)
  | some e =>
      obtain ⟨hmem, l, hl, hcurrency, hlowest⟩ := h
      cases floor' with
      | none => exact absurd hcurrency (h' e hmem l hl)
      | some e' =>
          obtain ⟨hmem', l', hl', hcurrency', hlowest'⟩ := h'
          have hprice := (hlowest e' hmem' l' hl' hcurrency').antisymm
            (hlowest' e hmem l hl hcurrency)
          simp only [Option.map_some, ask, hl, hl', hprice]

theorem isFloor_entry {seen : List MarketplaceEntry} {entry : MarketplaceEntry}
    {listing : MarketplaceListing} (hentry : entry.listing = some listing)
    (hlowest : ∀ e ∈ seen, ∀ l, e.listing = some l → l.currency = listing.currency →
      listing.price ≤ l.price) : IsFloor (entry :: seen) listing.currency (some entry) := by
  refine ⟨List.mem_cons_self, listing, hentry, rfl, ?_⟩
  rintro e (_ | ⟨_, he⟩) l hl hcurrency
  · cases hl.symm.trans hentry
    exact le_rfl
  · exact hlowest e he l hl hcurrency

theorem IsFloor.keep {seen : List MarketplaceEntry} {entry : MarketplaceEntry}
    {currency : QuoteCurrency} {floor : Option MarketplaceEntry} (h : IsFloor seen currency floor)
    (hentry : ∀ l, entry.listing = some l → l.currency = currency →
      ∃ lowest, floor.bind (·.listing) = some lowest ∧ lowest.price ≤ l.price) :
    IsFloor (entry :: seen) currency floor := by
  cases floor with
  | none =>
      rintro e (_ | ⟨_, he⟩) l hl hcurrency
      · obtain ⟨_, hnone, -⟩ := hentry l hl hcurrency
        cases hnone
      · exact h e he l hl hcurrency
  | some e' =>
      obtain ⟨hmem, lowest, hlisting, hcurrency', hlowest⟩ := h
      refine ⟨List.mem_cons_of_mem _ hmem, lowest, hlisting, hcurrency', ?_⟩
      rintro e (_ | ⟨_, he⟩) l hl hcurrency
      · obtain ⟨lowest', hsome, hle⟩ := hentry l hl hcurrency
        cases hlisting.symm.trans hsome
        exact hle
      · exact hlowest e he l hl hcurrency

theorem lowerFloor_kept {floors : Floors} {entry : MarketplaceEntry}
    {listing current : MarketplaceListing} (hentry : entry.listing = some listing)
    (hcurrent : (floors listing.currency).bind (·.listing) = some current)
    (hle : current.price ≤ listing.price) : lowerFloor floors entry = floors := by
  simp only [lowerFloor, hentry, hcurrent, if_neg (Int.not_lt.mpr hle)]

theorem lowerFloor_updated {floors : Floors} {entry : MarketplaceEntry}
    {listing : MarketplaceListing} (hentry : entry.listing = some listing)
    (hlower : ∀ current, (floors listing.currency).bind (·.listing) = some current →
      listing.price < current.price) :
    lowerFloor floors entry = Function.update floors listing.currency (some entry) := by
  simp only [lowerFloor, hentry]
  split
  · rfl
  · rename_i current hcurrent
    exact if_pos (hlower current hcurrent)

/-- One turn of the loop. -/
theorem IsFloor.lower {seen : List MarketplaceEntry} {floors : Floors}
    (h : ∀ currency, IsFloor seen currency (floors currency)) (entry : MarketplaceEntry)
    (currency : QuoteCurrency) : IsFloor (entry :: seen) currency (lowerFloor floors entry currency) := by
  cases hentry : entry.listing with
  | none =>
      simp only [lowerFloor, hentry]
      exact (h currency).keep fun l hl => by cases hentry.symm.trans hl
  | some listing =>
      by_cases hkept : ∃ current, (floors listing.currency).bind (·.listing) = some current ∧
          current.price ≤ listing.price
      · obtain ⟨current, hcurrent, hle⟩ := hkept
        rw [lowerFloor_kept hentry hcurrent hle]
        refine (h currency).keep fun l hl hcurrency => ?_
        cases hentry.symm.trans hl
        subst hcurrency
        exact ⟨current, hcurrent, hle⟩
      · have hlower : ∀ current, (floors listing.currency).bind (·.listing) = some current →
            listing.price < current.price :=
          fun current hcurrent => Int.not_le.mp fun hle => hkept ⟨current, hcurrent, hle⟩
        rw [lowerFloor_updated hentry hlower]
        by_cases hsame : currency = listing.currency
        · subst hsame
          rw [Function.update_self]
          apply isFloor_entry hentry
          intro e he l hl hcurrency
          have hfloor := h listing.currency
          cases hfloors : floors listing.currency with
          | none =>
              rw [hfloors] at hfloor
              exact absurd hcurrency (hfloor e he l hl)
          | some floor =>
              rw [hfloors] at hfloor hlower
              obtain ⟨-, lowest, hlisting, -, hlowest⟩ := hfloor
              exact (hlower lowest hlisting).le.trans (hlowest e he l hl hcurrency)
        · rw [Function.update_of_ne hsame]
          refine (h currency).keep fun l hl hcurrency => ?_
          cases hentry.symm.trans hl
          exact absurd hcurrency.symm hsame

/-- The loop, over entries that have been seen and entries to come. -/
theorem isFloor_foldl (rest seen : List MarketplaceEntry) (floors : Floors)
    (h : ∀ currency, IsFloor seen currency (floors currency)) (currency : QuoteCurrency) :
    IsFloor (rest.reverse ++ seen) currency (rest.foldl lowerFloor floors currency) := by
  induction rest generalizing seen floors with
  | nil => exact h currency
  | cons entry rest ih =>
      rw [List.reverse_cons, List.append_assoc]
      exact ih (entry :: seen) (lowerFloor floors entry) (IsFloor.lower h entry)

theorem IsFloor.of_listed {entries : List MarketplaceEntry} {currency : QuoteCurrency}
    {floor : Option MarketplaceEntry}
    (h : IsFloor (listedEntries entries) currency floor) : IsFloor entries currency floor := by
  have hlisted : ∀ e ∈ entries, ∀ l, e.listing = some l → e ∈ listedEntries entries :=
    fun e he l hl => List.mem_filter.mpr ⟨he, by rw [hl]; rfl⟩
  cases floor with
  | none => exact fun e he l hl => h e (hlisted e he l hl) l hl
  | some e' =>
      obtain ⟨hmem, lowest, hlisting, hcurrency, hlowest⟩ := h
      exact ⟨List.mem_of_mem_filter hmem, lowest, hlisting, hcurrency,
        fun e he l hl => hlowest e (hlisted e he l hl) l hl⟩

theorem isFloor_marketplaceFloors (entries : List MarketplaceEntry) (currency : QuoteCurrency) :
    IsFloor entries currency (marketplaceFloors entries currency) := by
  apply IsFloor.of_listed
  have hall := isFloor_foldl (listedEntries entries) [] (fun _ => none)
    (fun _ e he => by cases he) currency
  rw [List.append_nil] at hall
  have hmem : ∀ e, e ∈ (listedEntries entries).reverse ↔ e ∈ listedEntries entries :=
    fun e => List.mem_reverse
  unfold marketplaceFloors
  cases hfloor : (listedEntries entries).foldl lowerFloor (fun _ => none) currency with
  | none =>
      rw [hfloor] at hall
      exact fun e he => hall e ((hmem e).mpr he)
  | some floor =>
      rw [hfloor] at hall
      obtain ⟨hfloor, lowest, hlisting, hcurrency, hlowest⟩ := hall
      exact ⟨(hmem floor).mp hfloor, lowest, hlisting, hcurrency,
        fun e he => hlowest e ((hmem e).mpr he)⟩

section
variable {entries : List MarketplaceEntry} {currency : QuoteCurrency}

theorem ToldApart.of_subset {entries' : List MarketplaceEntry} (h : ToldApart entries)
    (hsubset : ∀ e ∈ entries', e ∈ entries) : ToldApart entries' :=
  fun a ha b hb => h a (hsubset a ha) b (hsubset b hb)

theorem inCurrency_one : ∀ e ∈ inCurrency currency entries, ∀ l, e.listing = some l →
    l.currency = currency := by
  intro e he l hl
  have hall := (List.mem_filter.mp he).2
  rw [hl] at hall
  exact of_decide_eq_true hall

variable [Platform] [Locale]

/-- The first of the sorted asks of one currency is a cheapest one. -/
theorem isFloor_top (hapart : ToldApart entries)
    (hone : ∀ e ∈ entries, ∀ l, e.listing = some l → l.currency = currency) :
    IsFloor entries currency (topListingsByPrice entries .asc 1)[0]? := by
  apply IsFloor.of_listed
  have htop : (topListingsByPrice entries .asc 1)[0]? =
      (sortMarketplaceEntries (listedEntries entries) .priceAsc).head? := by
    rw [topListingsByPrice, if_pos rfl, List.head?_eq_getElem?]
    exact List.getElem?_take_of_lt (by decide)
  rw [htop]
  cases hhead : (sortMarketplaceEntries (listedEntries entries) .priceAsc).head? with
  | none =>
      intro e he
      have hempty := List.head?_eq_none_iff.mp hhead
      have hsorted := (sorted_perm _ .priceAsc).mem_iff.mpr he
      rw [hempty] at hsorted
      cases hsorted
  | some floor =>
      have hfloor : floor ∈ listedEntries entries :=
        (sorted_perm _ .priceAsc).mem_iff.mp (List.mem_of_mem_head? hhead)
      obtain ⟨hmem, hsome⟩ := List.mem_filter.mp hfloor
      obtain ⟨lowest, hlowest⟩ := Option.isSome_iff_exists.mp hsome
      refine ⟨hfloor, lowest, hlowest, hone floor hmem lowest hlowest, ?_⟩
      intro e he l hl hcurrency
      have hle := head_sort_le (compareEntries_consistent (.inl rfl)) hhead he
      exact price_le_of_sortKey hapart hmem (List.mem_of_mem_filter he) hlowest hl
        ((hone floor hmem lowest hlowest).trans hcurrency.symm) (key_le_of_asc hle hlowest hl)

theorem priceExact_of_toldApart (hapart : ToldApart entries) : PriceExact entries where
  perm := sorted_perm entries
  asc := sorted_asc hapart
  desc := sorted_desc hapart
  unlisted _ hsort := sorted_pairwise hsort fun _ _ _ _ => unlisted_of_compare hsort
  floor currency := (isFloor_top (hapart.of_subset fun _ => List.mem_of_mem_filter)
    inCurrency_one).ask_eq (isFloor_marketplaceFloors _ currency)
  collections currency := by
    rw [collectionFloors, List.map_filterMap]
    congr 1
    funext collection
    have hasks := (isFloor_top (hapart.of_subset fun e he =>
      List.mem_of_mem_filter (List.mem_of_mem_filter he))
      fun e he => inCurrency_one e (List.mem_of_mem_filter he)).ask_eq
        (isFloor_marketplaceFloors ((inCurrency currency entries).filter fun e =>
          entryMatchesCollection e collection) currency)
    rw [Option.map_map]
    have hpair := congrArg (Option.map fun price => (collection, price)) hasks
    rwa [Option.map_map, Option.map_map] at hpair

end

/-- Prices are ordered exactly, and the floors are the first of their lists, just where no
two asks in ARCH differ in the ninth decimal alone. -/
theorem prices_exact_iff [Platform] [Locale] (entries : List MarketplaceEntry) :
    PriceExact entries ↔ ToldApart entries :=
  ⟨fun h => toldApart_of_sorted h.asc h.desc, priceExact_of_toldApart⟩

/-! ## Two asks that are not told apart -/

namespace NinthDecimal

/-- Names are compared unit by unit, and no text here is outside ASCII. -/
scoped instance locale : Locale where
  localeCompare := (numbers.onKey fun u : UInt16 => (u.toNat : Int)).lex
  consistent := (numbers_consistent.onKey _).lex

scoped instance platform : Platform where
  lowerUnicode s := s
  bech32mToWords _ := []
  bech32mEncode _ _ := .error (.error "unused")

def nineteen : MarketplaceEntry :=
  ⟨Sdk.text "a.arch", [], 0, none, some ⟨.arch, 19, none, none⟩⟩

def eleven : MarketplaceEntry :=
  ⟨Sdk.text "b.arch", [], 0, none, some ⟨.arch, 11, none, none⟩⟩

/-- The dearer name comes first, and the floor is the other one. -/
theorem dearer_ask_first :
    sortMarketplaceEntries [eleven, nineteen] .priceAsc = [nineteen, eleven] ∧
      topListingsByPrice [eleven, nineteen] .asc 1 = [nineteen] ∧
      marketplaceFloors [eleven, nineteen] .arch = some eleven ∧
      ¬ PriceExact [eleven, nineteen] := by
  have hsorted : sortMarketplaceEntries [eleven, nineteen] .priceAsc = [nineteen, eleven] := by
    decide +kernel
  refine ⟨hsorted, by decide +kernel, by decide +kernel, fun h => ?_⟩
  have hasc := h.asc
  rw [hsorted] at hasc
  exact absurd (List.pairwise_pair.mp hasc _ _ rfl rfl rfl) (by decide)

end NinthDecimal

end Manager

end ArchNameService
