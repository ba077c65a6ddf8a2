/-
  PredictIQ.Markets.FeaturedReads: what `featuredMarkets` answers while the
  markets do not change.

  The views in the cache may carry the data of the blockchain as it was at any
  time; the markets in them are those that the query selects.
-/
import PredictIQ.Markets.Listings
import PredictIQ.Cache.FixedData

namespace PredictIQ.Markets

open Foundation Cache Prog

/-- A page of what is made of a payload. -/
theorem paginate_map {T U : Type} (query : PaginationQuery) (payload : List T) (f : T → U) :
    (paginate query (payload.map f)).items = (paginate query payload).items.map f
      ∧ (paginate query (payload.map f)).nextCursor = (paginate query payload).nextCursor := by
  unfold paginate
  dsimp only
  rw [List.length_map, List.map_drop, List.map_take]
  exact ⟨rfl, rfl⟩

/-- The market of a view. -/
def FeaturedMarketView.market (v : FeaturedMarketView) : FeaturedMarket := ⟨v.id, v.title, v.volume, v.endsAt⟩

section Featured

variable {P : Type} {K : Crates} {cfg : Config} {query : P → PaginationQuery} {db : MarketDb}

/-- The markets that the limit of the configuration selects. -/
def selectedMarkets (cfg : Config) (db : MarketDb) : List FeaturedMarket :=
  (selectFeaturedMarkets cfg.featuredLimit db.markets).getD []

/-- The limit is an `i64`. -/
theorem length_selectedMarkets_lt (h : cfg.featuredLimit < 2 ^ 63) : (selectedMarkets cfg db).length < 2 ^ 63 := by
  unfold selectedMarkets selectFeaturedMarkets
  dsimp only
  split
  · exact Nat.two_pow_pos 63
  · rw [Option.getD_some, List.length_map, List.length_take]
    omega

/-! ## §1. What is cached. -/

def ReadsListing (cfg : Config) (key : String) : Listing → Prop
  | .statistics => False
  | .featuredMarkets => key = keys.dbqFeaturedMarkets cfg.featuredLimit
  | .featuredViews => key = keys.apiFeaturedMarkets
  | .marketData => ∃ marketId, key = keys.chainMarket marketId

def RightListing (cfg : Config) (db : MarketDb) : (i : Listing) → Dated i.Data → Prop
  | .featuredMarkets, rows => rows.value = selectedMarkets cfg db
  | .featuredViews, views => views.value.map (·.market) = selectedMarkets cfg db
  | .statistics, _ | .marketData, _ => True

def Listing.letter : Listing → Char
  | .statistics => 's'
  | .featuredMarkets => 'd'
  | .featuredViews => 'a'
  | .marketData => 'c'

theorem Listing.letter_inj (i i' : Listing) : i.letter = i'.letter → i = i' := by
  cases i <;> cases i' <;> decide

/-- The first letter of a key tells what is read there. -/
theorem head_of_readsListing {key : String} {i : Listing} (h : ReadsListing cfg key i) :
    key.toList.head? = some i.letter ∧ i ≠ .statistics := by
  cases i with
  | statistics => exact absurd h id
  | featuredMarkets =>
      obtain rfl : key = _ := h
      unfold keys.dbqFeaturedMarkets
      rw [String.toList_append, List.head?_append]
      exact ⟨rfl, by decide⟩
  | featuredViews =>
      obtain rfl : key = _ := h
      exact ⟨rfl, by decide⟩
  | marketData =>
      obtain ⟨marketId, rfl⟩ := h
      unfold keys.chainMarket
      rw [String.toList_append, List.head?_append]
      exact ⟨rfl, by decide⟩

theorem readsListing_unique {key : String} {i i' : Listing} (h : ReadsListing cfg key i)
    (h' : ReadsListing cfg key i') : i = i' := by
  have hletter := (head_of_readsListing h).1
  rw [(head_of_readsListing h').1] at hletter
  exact (Listing.letter_inj i' i (Option.some.inj hletter)).symm

theorem not_readsListing_lockKey (key : String) (i : Listing) : ¬ReadsListing cfg (lockKey key) i := by
  intro h
  obtain ⟨hletter, hi⟩ := head_of_readsListing h
  have hlock : (lockKey key).toList.head? = some 's' := by
    unfold lockKey
    rw [String.toList_append, List.head?_append]
    rfl
  have heq : i.letter = 's' := Option.some.inj (hletter.symm.trans hlock)
  cases i <;> cases heq
  exact hi rfl

/-- What is written is read as itself. -/
def Crates.ReadsBack (K : Crates) : Prop := ∀ i, K.setting.ReadsBack i

variable (cfg db) in
def listingLayout (hK : K.ReadsBack) : Layout K.setting where
  reads := ReadsListing cfg
  right _ i v := RightListing cfg db i v
  unique _ _ _ := readsListing_unique
  lock := not_readsListing_lockKey
  readsBack := hK

/-! ## §2. The handler. -/

/-- What the database answers. -/
def AnswersListing (cfg : Config) (db : MarketDb) : (q : Question) → Answer q → Prop
  | .selectFeaturedMarkets limit, rows => limit = cfg.featuredLimit → rows.value = selectedMarkets cfg db
  | _, _ => True

/-- A page of the markets that are selected, and nothing is written. -/
def RespondsFeatured (cfg : Config) (db : MarketDb) (query : PaginationQuery) : Question → Prop
  | .respondFeaturedMarkets page =>
      page.value.items.map (·.market) = (paginate query (selectedMarkets cfg db)).items
        ∧ page.value.nextCursor = (paginate query (selectedMarkets cfg db)).nextCursor
  | .updateResolved .. => False
  | _ => True

variable {hK : K.ReadsBack} {asked : Question → Prop}

abbrev KeepsListing (cfg : Config) (db : MarketDb) (hK : K.ReadsBack) (asked : Question → Prop) {α : Type}
    (p : CacheM K.setting α) (good : α → Prop) : Prop :=
  p.Keeps ((listingLayout cfg db hK).fair (AnswersListing cfg db)) ((listingLayout cfg db hK).allowed asked) good

theorem usable_of_readsListing {i : Listing} {key : String} (h : ReadsListing cfg key i) :
    Usable (W := K.setting) ((listingLayout cfg db hK).fair (AnswersListing cfg db))
      ((listingLayout cfg db hK).allowed asked) i key (RightListing cfg db i) :=
  Layout.usable (L := listingLayout cfg db hK) (i := i) h

theorem reads_dbqFeaturedMarkets : ReadsListing cfg (keys.dbqFeaturedMarkets cfg.featuredLimit) .featuredMarkets := rfl

theorem reads_apiFeaturedMarkets : ReadsListing cfg keys.apiFeaturedMarkets .featuredViews := rfl

theorem reads_chainMarket (marketId : Int) : ReadsListing cfg (keys.chainMarket marketId) .marketData := ⟨marketId, rfl⟩

theorem keeps_featuredMarketsCached (hselect : asked (.selectFeaturedMarkets cfg.featuredLimit)) :
    KeepsListing cfg db hK asked (featuredMarketsCached K cfg cfg.featuredLimit)
      (RightListing cfg db .featuredMarkets) := by
  refine keeps_bind (keeps_getOrSetJson (usable_of_readsListing reads_dbqFeaturedMarkets) (keeps_call hselect fun rows hrows => ?_))
    fun found hfound => keeps_pure hfound
  exact hrows rfl

theorem keeps_marketDataCached {marketId : Int} (hdata : asked (.contractData marketId)) :
    KeepsListing cfg db hK asked (marketDataCached K cfg marketId) fun _ => True :=
  keeps_bind (keeps_getOrSetJson (usable_of_readsListing (reads_chainMarket marketId)) (keeps_call hdata fun _ _ => trivial))
    fun _ _ => keeps_pure trivial

/-- As many results as programs. -/
theorem keeps_joinAll {α : Type} {ps : List (CacheM K.setting α)}
    (h : ∀ p ∈ ps, KeepsListing cfg db hK asked p fun _ => True) :
    KeepsListing cfg db hK asked (joinAll K ps) fun results => results.length = ps.length := by
  induction ps with
  | nil => exact keeps_pure rfl
  | cons p ps ih =>
      refine keeps_bind (keeps_attempt (h p List.mem_cons_self)) fun r _ => ?_
      refine keeps_bind (ih fun p' hp' => h p' (List.mem_cons_of_mem _ hp')) fun results hresults => keeps_pure ?_
      rw [List.length_cons, List.length_cons, hresults]

/-- The views are of the markets, in order. -/
theorem market_of_featuredViews {markets : List FeaturedMarket} {chainData : List (Except String (Dated ChainMarketData))}
    {views : List FeaturedMarketView} (hlen : chainData.length = markets.length)
    (h : featuredViews markets chainData = .ok views) : views.map (·.market) = markets := by
  induction markets generalizing chainData views with
  | nil =>
      cases chainData with
      | nil =>
          cases h
          rfl
      | cons r rs => cases hlen
  | cons m markets ih =>
      cases chainData with
      | nil => cases hlen
      | cons r rs =>
          cases r with
          | error e => cases h
          | ok chain =>
              cases hview : featuredViews markets rs with
              | error e =>
                  unfold featuredViews at h
                  rw [hview] at h
                  cases h
              | ok view =>
                  unfold featuredViews at h
                  rw [hview] at h
                  cases h
                  rw [List.map_cons, ih (Nat.succ.inj hlen) hview]
                  rfl

theorem keeps_fetchViews (hselect : asked (.selectFeaturedMarkets cfg.featuredLimit))
    (hdata : ∀ marketId, asked (.contractData marketId)) :
    KeepsListing cfg db hK asked (fetchViews K cfg) (RightListing cfg db .featuredViews) := by
  refine keeps_bind (keeps_featuredMarketsCached hselect) fun markets hmarkets => ?_
  refine keeps_bind (keeps_joinAll fun p hp => ?_) fun chainData hlen => ?_
  · obtain ⟨m, -, rfl⟩ := List.mem_map.mp hp
    exact keeps_marketDataCached (hdata m.id)
  · rw [List.length_map] at hlen
    refine keeps_bind (keeps_done _ fun view hview => market_of_featuredViews hlen hview) fun view hview => ?_
    exact keeps_pure (hview.trans hmarkets)

theorem keeps_featuredMarkets (q : PaginationQuery) :
    KeepsListing cfg db hK (RespondsFeatured cfg db q) (featuredMarkets K cfg q) fun _ => True := by
  refine keeps_bind (keeps_getOrSetJson (usable_of_readsListing reads_apiFeaturedMarkets) (keeps_fetchViews trivial fun _ => trivial))
    fun found hfound => keeps_call ?_ fun _ _ => trivial
  have hviews : found.1.value.map (·.market) = selectedMarkets cfg db := hfound
  have hpage := paginate_map q found.1.value (·.market)
  rw [hviews] at hpage
  exact ⟨hpage.1.symm, hpage.2.symm⟩

end Featured

end PredictIQ.Markets
