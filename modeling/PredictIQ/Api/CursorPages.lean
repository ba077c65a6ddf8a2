/-
  PredictIQ.Api.CursorPages: who follows the cursors reads everything once.

  Featured markets and bets are visited in order, each once.  The payload of
  `content` is cut to the limit of its request, so that only content that fits
  one page is read to its end; and the last number of an `i64`, as the page of
  a listing in pages of one, has no successor.
-/
import PredictIQ.Api.CursorReads
import PredictIQ.Foundation.Cursor
import PredictIQ.Markets.FeaturedReads
import PredictIQ.Markets.Freshness

namespace PredictIQ.PagedReads

open Foundation Cache Markets

/-! ## §1. Pages that follow one another. -/

section Following

variable {T : Type} {payload : List T} {query : PaginationQuery}

/-- Where a cursor stands in a payload. -/
def offsetOf (len : Nat) (cursor : Option String) : Nat := min ((cursor.bind parseUsize).getD 0) len

/-- **The pages of a payload** follow one another. -/
theorem pageAt_paginate (hlen : payload.length < 2 ^ 63) :
    PageAt (offsetOf payload.length) query.limitOrDefault payload query.cursor
      (paginate query payload).items (paginate query payload).nextCursor := by
  have hstart : offsetOf payload.length query.cursor ≤ payload.length := Nat.min_le_right _ _
  refine ⟨?_, fun hnone => ?_, fun c hc => ?_⟩
  · rw [← slice_clamp, Nat.min_eq_left hstart]
    unfold slice
    rw [← List.drop_take]
    rfl
  · unfold paginate at hnone
    simp only [decide_eq_true_eq, ite_eq_right_iff, reduceCtorEq, imp_false] at hnone
    unfold offsetOf
    omega
  · unfold paginate at hc
    simp only [decide_eq_true_eq, Option.ite_none_right_eq_some, Option.some.injEq] at hc
    obtain ⟨hmore, rfl⟩ := hc
    -- where more follows, the next cursor is the end of this page
    have hend : min (offsetOf payload.length query.cursor + query.limitOrDefault) payload.length
        = offsetOf payload.length query.cursor + query.limitOrDefault := by
      unfold offsetOf
      omega
    have hlt : offsetOf payload.length query.cursor + query.limitOrDefault < payload.length := by
      rw [← hend]
      exact hmore
    refine ⟨?_, hlt⟩
    show min ((parseUnsigned (2 ^ 64) (toString (min (offsetOf payload.length query.cursor + query.limitOrDefault)
      payload.length))).getD 0) payload.length = _
    rw [hend, parseUnsigned_toString (by omega), Option.getD_some]
    omega

variable {bets : List Bet} {r : PaginatedResponse UserBet}

/-- A page that starts below the edge of `i64` is far below the clamp. -/
theorem pageNumber_toString {limit n : Nat} (hlimit : 1 ≤ limit) (h : n * limit < 2 ^ 63) :
    (pageNumber limit (some (toString n))).toNat = n := by
  have hle : n ≤ n * limit := Nat.le_mul_of_pos_right n hlimit
  have hmax : i64Max = 2 ^ 63 - 1 := rfl
  have hclamp : (n : Int) ≤ i64Max / limit := by
    rw [Int.le_ediv_iff_mul_le (by omega), ← Int.natCast_mul]
    omega
  have hone : max (limit : Int) 1 = limit := by omega
  unfold pageNumber
  rw [Option.bind_some, parseSigned_toString (by omega), Option.getD_some, hone]
  omega

/-- **The pages of bets** follow one another. -/
theorem pageAt_userBets (h : IsBetsPage bets query r) (hlen : bets.length < 2 ^ 63) :
    PageAt (fun cursor => (pageNumber query.limitOrDefault cursor).toNat * query.limitOrDefault) query.limitOrDefault bets
      query.cursor (r.items.map (·.toBet)) r.nextCursor := by
  have hlimit : 1 ≤ query.limitOrDefault := limit_pos
  obtain ⟨n, hn⟩ := Int.eq_ofNat_of_zero_le (pageOf_nonneg query)
  have hnumber : (pageNumber query.limitOrDefault query.cursor).toNat = n := by
    rw [← pageOf_eq, hn]
    rfl
  -- page numbers are `i64`s; from here on they are naturals
  have hnext : r.nextCursor = if (n + 1) * query.limitOrDefault < bets.length then some (toString (n + 1)) else none := by
    rw [h.nextCursor, hn]
    have hiff : ((n : Int) + 1) * query.limitOrDefault < bets.length ↔ (n + 1) * query.limitOrDefault < bets.length := by
      rw [← Int.natCast_one, ← Int.natCast_add, ← Int.natCast_mul, Int.ofNat_lt]
    simp only [hiff]
    rfl
  have hsum : (n + 1) * query.limitOrDefault = n * query.limitOrDefault + query.limitOrDefault := Nat.succ_mul n _
  refine ⟨?_, fun hnone => ?_, fun c hc => ?_⟩
  · rw [h.items, hn, hnumber]
    rfl
  · rw [hnext] at hnone
    simp only [ite_eq_right_iff, reduceCtorEq, imp_false] at hnone
    rw [hnumber]
    omega
  · rw [hnext] at hc
    simp only [Option.ite_none_right_eq_some, Option.some.injEq] at hc
    obtain ⟨hmore, rfl⟩ := hc
    rw [hnumber]
    refine ⟨?_, by omega⟩
    rw [pageNumber_toString hlimit (by omega), hsum]

end Following

/-! ## §2. Runs. -/

section Runs

variable {P : Type} [DecidableEq P]

/-- A question to the world has been answered. -/
def AnsweredTo {W : Setting} (m : Machine P (Reply (W := W)) String (Backend W)) (p : P) (q : W.Question) : Prop :=
  ∃ x ∈ m.log, x.1 = p ∧ x.2.question = .outside q

section Own

variable {K : Crates} {cfg : Config} {request : P → Request} {d : DataSet}

/-- After actions, from an empty cache. -/
def after (K : Crates) (cfg : Config) (request : P → Request) (b : Backend K.setting)
    (as : List (Act P Unit String (Cache.Choice K.setting) Outside)) :
    Machine P (Reply (W := K.setting)) String (Backend K.setting) :=
  run (step K cfg request) (Machine.idle b) as

variable (m : Machine P (Reply (W := K.setting)) String (Backend K.setting)) (limit : Nat)

/-- The responses of `content` to requests with a limit. -/
def ContentPages (cursor : Option String) (items : List ContentItem) (next : Option String) : Prop :=
  ∃ p query r, AnsweredTo m p (.respondContent query r) ∧ query.limitOrDefault = limit ∧ query.cursor = cursor
    ∧ r.items = items ∧ r.nextCursor = next

/-- The responses of `blockchainUserBets` to requests of a user with a limit, without the ledgers. -/
def BetsPages (user : String) (cursor : Option String) (items : List Bet) (next : Option String) : Prop :=
  ∃ p query r, AnsweredTo m p (.respondUserBets user query r) ∧ query.limitOrDefault = limit ∧ query.cursor = cursor
    ∧ r.items.map (·.toBet) = items ∧ r.nextCursor = next

variable {m limit} (hK : K.ReadsBack) {b : Backend K.setting} (hempty : b.keys = ∅)
variable (as : List (Act P Unit String (Cache.Choice K.setting) Outside))

include hK hempty

omit [DecidableEq P] hempty in
theorem serves_fixed : Machine.Serves (server K.setting) ((layout cfg request b.world hK).fair (World b.world))
    (fun _ : P => (layout cfg request b.world hK).allowed (Responds cfg b.world))
    fun b' => (layout cfg request b.world hK).Kept b' ∧ b'.world = b.world := by
  have hworld : ∀ (c : UInt32) (w : DataSet) (_ : P) q v w', w = b.world → Responds cfg b.world q →
      answer c w q = some (v, w') → World b.world q v ∧ w' = b.world := by
    intro c w _ q v w' hw _ hanswer
    subst hw
    have hsame : w' = b.world := by
      cases q with
      | selectContent limit =>
          obtain ⟨rows, -, hrows⟩ := Option.map_eq_some_iff.mp hanswer
          cases hrows
          rfl
      | _ =>
          cases hanswer
          rfl
    subst hsame
    exact ⟨⟨c, hanswer⟩, rfl⟩
  have hserves := Layout.serves_of_layout (L := layout cfg request b.world hK) (P := P) hworld
  exact hserves

/-- **Every response is right**, whatever else is going on. -/
theorem responds_of_answeredTo (hsame : SameBets K cfg request b.world) {p : P} {q : Question}
    (h : AnsweredTo (after K cfg request b as) p q) : Responds cfg b.world q := by
  have hrun := Machine.rely_run (fun p (_ : Unit) => program K cfg (request p)) Outside.apply (serves_fixed hK)
    ⟨Layout.kept_of_empty hempty, rfl⟩ (fun p _ => keeps_program hsame p) ?_ as
  · obtain ⟨x, hx, rfl, hq⟩ := h
    have hallowed := hrun.log x hx
    rw [hq] at hallowed
    exact hallowed
  · rintro w s ⟨hkept, hworld⟩
    cases w with
    | tick ms => exact ⟨hkept.tick ms, hworld⟩
    | breaker failureCount openedAtMs => exact ⟨hkept, hworld⟩

/-- **Content is visited** as far as one page goes. -/
theorem content_visitsAll (hsame : SameBets K cfg request b.world) (hlimit : limit ≤ 100) (hpos : 1 ≤ limit) :
    VisitsAll (ContentPages (after K cfg request b as) limit) ((publishedContent b.world.content).take limit) := by
  have hlen : ((publishedContent b.world.content).take limit).length < 2 ^ 63 := by
    have htake := List.length_take_le limit (publishedContent b.world.content)
    omega
  refine visitsAll_of_pageAt (offsetOf ((publishedContent b.world.content).take limit).length) hpos
    (Nat.min_eq_left (Nat.zero_le _)) fun c page next hpage => ?_
  obtain ⟨p, query, r, hanswered, rfl, rfl, rfl, rfl⟩ := hpage
  have hr : r = _ := responds_of_answeredTo hK hempty as hsame hanswered
  rw [hr]
  exact pageAt_paginate hlen

/-- **Bets are visited**, each once and in order. -/
theorem bets_visitsAll (hsame : SameBets K cfg request b.world) (hpos : 1 ≤ limit) (user : String) :
    VisitsAll (BetsPages (after K cfg request b as) limit user) (betsOf cfg b.world user) := by
  have hlen : (betsOf cfg b.world user).length < 2 ^ 63 := by
    unfold betsOf
    rw [List.length_map]
    exact b.world.fits _
  refine visitsAll_of_pageAt (fun cursor => (pageNumber limit cursor).toNat * limit) hpos ?_
    fun c page next hpage => ?_
  · have hnone : pageNumber limit none = 0 := by
      have hmax : 0 ≤ i64Max / max (limit : Int) 1 := Int.ediv_nonneg (by decide) (by omega)
      unfold pageNumber
      rw [Option.bind_none, Option.getD_none]
      omega
    rw [hnone]
    exact Nat.zero_mul limit
  · obtain ⟨p, query, r, hanswered, rfl, rfl, rfl, rfl⟩ := hpage
    exact pageAt_userBets (responds_of_answeredTo hK hempty as hsame hanswered) hlen

end Own

section Featured

variable {K : Markets.Crates} {cfg : Markets.Config} {query : P → PaginationQuery}

/-- After actions, from an empty cache; the requests are for featured markets. -/
def afterFeatured (K : Markets.Crates) (cfg : Markets.Config) (query : P → PaginationQuery) (b : Backend K.setting)
    (as : List (Act P Unit String (Cache.Choice K.setting) Outside)) :
    Machine P (Reply (W := K.setting)) String (Backend K.setting) :=
  run (Machine.step (server K.setting) (fun p (_ : Unit) => featuredMarkets K cfg (query p)) Outside.apply)
    (Machine.idle b) as

variable (query) in
/-- The responses of `featuredMarkets` to requests with a limit, without the data of the blockchain. -/
def FeaturedPages (m : Machine P (Reply (W := K.setting)) String (Backend K.setting)) (limit : Nat)
    (cursor : Option String) (items : List FeaturedMarket) (next : Option String) : Prop :=
  ∃ p page, AnsweredTo m p (.respondFeaturedMarkets page) ∧ (query p).limitOrDefault = limit ∧ (query p).cursor = cursor
    ∧ page.value.items.map (·.market) = items ∧ page.value.nextCursor = next

variable (hK : K.ReadsBack) {b : Backend K.setting} (hempty : b.keys = ∅) {limit : Nat}
variable (as : List (Act P Unit String (Cache.Choice K.setting) Outside))

include hK

variable (cfg query) in
omit [DecidableEq P] in
theorem serves_listing : Machine.Serves (server K.setting)
    ((listingLayout cfg b.world hK).fair (AnswersListing cfg b.world))
    (fun p : P => (listingLayout cfg b.world hK).allowed (RespondsFeatured cfg b.world (query p)))
    fun b' => (listingLayout cfg b.world hK).Kept b' ∧ b'.world = b.world := by
  have hworld : ∀ (c : Oracle) (w : MarketDb) (p : P) (q : Markets.Question) v w', w = b.world →
      RespondsFeatured cfg b.world (query p) q → Markets.answer c w q = some (v, w') →
      AnswersListing cfg b.world q v ∧ w' = b.world := by
    intro c w p q v w' hw hasked hanswer
    subst hw
    cases q with
    | selectFeaturedMarkets limit =>
        obtain ⟨rows, hrows, hv⟩ := Option.map_eq_some_iff.mp hanswer
        cases hv
        refine ⟨fun hlimit => ?_, rfl⟩
        unfold selectedMarkets
        rw [← hlimit, hrows]
        rfl
    | updateResolved marketId outcomeIndex => exact absurd hasked id
    | _ =>
        cases hanswer
        exact ⟨trivial, rfl⟩
  have hserves := Layout.serves_of_layout (L := listingLayout cfg b.world hK) (P := P) hworld
  exact hserves

include hempty

/-- **Featured markets are visited**, each once and in order. -/
theorem featured_visitsAll (hfeatured : cfg.featuredLimit < 2 ^ 63) (hpos : 1 ≤ limit) :
    VisitsAll (FeaturedPages query (afterFeatured K cfg query b as) limit) (selectedMarkets cfg b.world) := by
  have hrun := Machine.rely_run (fun p (_ : Unit) => featuredMarkets K cfg (query p)) Outside.apply
    (serves_listing cfg query hK) ⟨Layout.kept_of_empty hempty, rfl⟩ (fun p _ => keeps_featuredMarkets (query p)) ?_ as
  · refine visitsAll_of_pageAt (offsetOf (selectedMarkets cfg b.world).length) hpos
      (Nat.min_eq_left (Nat.zero_le _)) fun c items next hpage => ?_
    obtain ⟨p, page, ⟨x, hx, rfl, hq⟩, rfl, rfl, rfl, rfl⟩ := hpage
    have hallowed := hrun.log x hx
    rw [hq] at hallowed
    have hresponds : RespondsFeatured cfg b.world (query x.1) (.respondFeaturedMarkets page) := hallowed
    rw [hresponds.1, hresponds.2]
    exact pageAt_paginate (length_selectedMarkets_lt hfeatured)
  · rintro w s ⟨hkept, hworld⟩
    cases w with
    | tick ms => exact ⟨hkept.tick ms, hworld⟩
    | breaker failureCount openedAtMs => exact ⟨hkept, hworld⟩

end Featured

/-! ## §3. Content, featured markets and bets. -/

section All

variable {P' : Type} [DecidableEq P']
variable {K : Crates} {cfg : Config} {request : P → Request} {b : Backend K.setting}
variable {K' : Markets.Crates} {cfg' : Markets.Config} {query' : P' → PaginationQuery} {b' : Backend K'.setting}

/-- **Following `next_cursor` visits everything once**, and no arithmetic
overflows, exactly when the content fits one page and the cursor does not name
the last number of an `i64` under a limit of one. -/
theorem cursors_visit_all_iff (hK : K.ReadsBack) (hK' : K'.ReadsBack) (hempty : b.keys = ∅) (hempty' : b'.keys = ∅)
    (hfeatured : cfg'.featuredLimit < 2 ^ 63) (hsame : SameBets K cfg request b.world)
    (as : List (Act P Unit String (Cache.Choice K.setting) Outside))
    (as' : List (Act P' Unit String (Cache.Choice K'.setting) Outside)) (query : PaginationQuery)
    (hread : ∃ items n, Reading (ContentPages (after K cfg request b as) query.limitOrDefault) items n none) :
    (VisitsAll (ContentPages (after K cfg request b as) query.limitOrDefault) (publishedContent b.world.content)
      ∧ VisitsAll (FeaturedPages query' (afterFeatured K' cfg' query' b' as') query.limitOrDefault)
        (selectedMarkets cfg' b'.world)
      ∧ (∀ user, VisitsAll (BetsPages (after K cfg request b as) query.limitOrDefault user) (betsOf cfg b.world user))
      ∧ NoOverflow query)
    ↔ (publishedContent b.world.content).length ≤ query.limitOrDefault
      ∧ ¬(query.limitOrDefault = 1 ∧ AtMax query) := by
  have hcontent := content_visitsAll hK hempty as hsame (limit_le query) limit_pos
  constructor
  · rintro ⟨hall, -, -, hoverflow⟩
    refine ⟨?_, noOverflow_iff.mp hoverflow⟩
    obtain ⟨items, n, hitems⟩ := hread
    -- every reading gives the first page, so that it gives everything only if that is all
    have hcut : publishedContent b.world.content = (publishedContent b.world.content).take query.limitOrDefault :=
      (hall.complete items n hitems).symm.trans (hcontent.complete items n hitems)
    rw [hcut]
    exact List.length_take_le _ _
  · rintro ⟨hfits, hmax⟩
    rw [List.take_of_length_le hfits] at hcontent
    exact ⟨hcontent, featured_visitsAll hK' hempty' as' hfeatured limit_pos,
      bets_visitsAll hK hempty as hsame limit_pos, noOverflow_iff.mpr hmax⟩

end All

end Runs

/-! ## §4. Two items of content and three bets. -/

section Samples

/-- Texts as serde writes them. -/
inductive SampleText where
  | number (n : Int)
  | plain (i : Paged) (value : i.Data)
  | entry (i : Paged) (e : CachedEntry i.Data)

namespace SampleText

def serdePlain (i : Paged) : Serde SampleText i.Data where
  toString value := .ok (.plain i value)
  fromStr
    | .plain j value => if h : j = i then .ok (h ▸ value) else .error "missing field"
    | _ => .error "invalid type"

def serdeEntry (i : Paged) : Serde SampleText (CachedEntry i.Data) where
  toString e := .ok (.entry i e)
  fromStr
    | .entry j e => if h : j = i then .ok (h ▸ e) else .error "missing field"
    | _ => .error "invalid type"

def toInt : SampleText → Option Int
  | .number n => some n
  | _ => none

end SampleText

@[reducible] def sampleCrates : Crates :=
  ⟨SampleText, SampleText.serdePlain, SampleText.serdeEntry, .number, SampleText.toInt, String.toLower⟩

theorem markets_readsBack : Markets.sampleCrates.ReadsBack := by
  intro i
  constructor
  · rintro v text v' (h | ⟨e, h, -⟩) hread <;> cases h
    · have hv : (.ok v : Except String _) = .ok v' := by simpa [datedPlain, Markets.SampleText.serdePlain, Except.map] using hread
      exact (Except.ok.inj hv).symm
    · cases hread
  · rintro v text e (h | ⟨e', h, rfl⟩) hread <;> cases h
    · cases hread
    · have he : (.ok e' : Except String _) = .ok e := by simpa [datedEntry, Markets.SampleText.serdeEntry, Except.map] using hread
      rw [Except.ok.inj he]

theorem sampleCrates_readsBack : sampleCrates.ReadsBack := by
  intro i
  constructor
  · rintro v text v' (h | ⟨e, h, -⟩) hread <;> cases h
    · simpa [SampleText.serdePlain] using hread.symm
    · cases hread
  · rintro v text e (h | ⟨e', h, rfl⟩) hread <;> cases h
    · cases hread
    · obtain rfl : e' = e := by simpa [SampleText.serdeEntry] using hread
      rfl

def sampleApi : Config := ⟨sampleConfig, "testnet", "user_bets:\x7bid\x7d"⟩

def sampleBets : List BetEntry :=
  [⟨some 1, some 0, some "100", none⟩, ⟨some 1, some 1, some "250", none⟩, ⟨some 2, some 0, some "70", none⟩]

def sampleData : DataSet where
  content := [⟨⟨1, "Rules", "guide", 100⟩, true⟩, ⟨⟨2, "News", "blog", 200⟩, true⟩]
  bets _ := sampleBets
  fits _ := by decide

def sampleBackend : Backend sampleCrates.setting where
  nowMs := 1000
  world := sampleData

/-- Content is asked for, in pages of one or two, and the two pages of a user's bets. -/
def sampleRequest : Nat → Request
  | 0 => .content ⟨some 1, none⟩
  | 1 => .content ⟨some 2, none⟩
  | 2 => .userBets "GABC" ⟨some 2, none⟩
  | _ => .userBets "GABC" ⟨some 2, some "1"⟩

/-- Request `p` is answered to its end. -/
def sampleActions (p : Nat) : List (Act Nat Unit String (Cache.Choice sampleCrates.setting) Outside) :=
  .start p () :: List.replicate 62 (.answer p ⟨false, 7⟩)

def sampleAfter (p : Nat) : Machine Nat (Reply (W := sampleCrates.setting)) String (Backend sampleCrates.setting) :=
  after sampleCrates sampleApi sampleRequest sampleBackend (sampleActions p)

/-- Content in pages of two, and then the bets. -/
def sampleReads : List (Act Nat Unit String (Cache.Choice sampleCrates.setting) Outside) :=
  sampleActions 1 ++ sampleActions 2 ++ sampleActions 3

def sampleRead : Machine Nat (Reply (W := sampleCrates.setting)) String (Backend sampleCrates.setting) :=
  after sampleCrates sampleApi sampleRequest sampleBackend sampleReads

/-- A request for featured markets is answered to its end. -/
def sampleFeatured : List (Act Nat Unit String (Cache.Choice Markets.sampleCrates.setting) Outside) :=
  .start 0 () :: List.replicate 120 (.answer 0 ⟨false, ⟨50, ⟨1, none, none, "7", none, 3⟩⟩⟩)

/-- The responses of `content` in the log, with their requests. -/
def contentResponses (m : Machine Nat (Reply (W := sampleCrates.setting)) String (Backend sampleCrates.setting)) :
    List (Nat × Option String × List ContentItem × Option String) :=
  m.log.filterMap fun x => responseOf x.2.question
where
  responseOf : Command sampleCrates.setting → Option (Nat × Option String × List ContentItem × Option String)
    | .outside (.respondContent query r) => some (query.limitOrDefault, query.cursor, r.items, r.nextCursor)
    | _ => none

theorem contentPages_of_mem {m : Machine Nat (Reply (W := sampleCrates.setting)) String (Backend sampleCrates.setting)}
    {limit : Nat} {cursor next : Option String} {items : List ContentItem}
    (h : (limit, cursor, items, next) ∈ contentResponses m) : ContentPages m limit cursor items next := by
  obtain ⟨x, hx, hresponse⟩ := List.mem_filterMap.mp h
  unfold contentResponses.responseOf at hresponse
  split at hresponse
  · rename_i query r hquestion
    cases hresponse
    exact ⟨x.1, query, r, ⟨x, hx, rfl, hquestion⟩, rfl, rfl, rfl, rfl⟩
  · cases hresponse

/-- The responses of `blockchainUserBets` in the log, with their requests. -/
def betsResponses (m : Machine Nat (Reply (W := sampleCrates.setting)) String (Backend sampleCrates.setting)) :
    List (String × Nat × Option String × List Bet × Option String) :=
  m.log.filterMap fun x => responseOf x.2.question
where
  responseOf : Command sampleCrates.setting → Option (String × Nat × Option String × List Bet × Option String)
    | .outside (.respondUserBets user query r) =>
        some (user, query.limitOrDefault, query.cursor, r.items.map (·.toBet), r.nextCursor)
    | _ => none

theorem betsPages_of_mem {m : Machine Nat (Reply (W := sampleCrates.setting)) String (Backend sampleCrates.setting)}
    {user : String} {limit : Nat} {cursor next : Option String} {items : List Bet}
    (h : (user, limit, cursor, items, next) ∈ betsResponses m) : BetsPages m limit user cursor items next := by
  obtain ⟨x, hx, hresponse⟩ := List.mem_filterMap.mp h
  unfold betsResponses.responseOf at hresponse
  split at hresponse
  · rename_i user query r hquestion
    cases hresponse
    exact ⟨x.1, query, r, ⟨x, hx, rfl, hquestion⟩, rfl, rfl, rfl, rfl⟩
  · cases hresponse

/-- The first page of two is all the content there is, and the bets take two pages. -/
theorem sampleContent_visited :
    (VisitsAll (ContentPages sampleRead 2) (publishedContent sampleData.content)
        ∧ VisitsAll (FeaturedPages (fun _ : Nat => ⟨some 2, none⟩) (afterFeatured Markets.sampleCrates Markets.sampleApi
          (fun _ => ⟨some 2, none⟩) Markets.sampleBackend sampleFeatured) 2)
          (selectedMarkets Markets.sampleApi Markets.sampleBackend.world)
        ∧ (∀ user, VisitsAll (BetsPages sampleRead 2 user) (betsOf sampleApi sampleData user))
        ∧ NoOverflow ⟨some 2, none⟩)
      ∧ Reading (BetsPages sampleRead 2 "GABC") (sampleBets.map Bet.ofEntry) 2 none := by
  have hread : (2, none, publishedContent sampleData.content, none) ∈ contentResponses sampleRead := by
    decide +kernel
  have hbets : ("GABC", 2, none, (sampleBets.map Bet.ofEntry).take 2, some "1") ∈ betsResponses sampleRead
      ∧ ("GABC", 2, some "1", (sampleBets.map Bet.ofEntry).drop 2, none) ∈ betsResponses sampleRead := by
    decide +kernel
  refine ⟨(cursors_visit_all_iff sampleCrates_readsBack markets_readsBack rfl rfl (by decide)
    (fun _ _ _ _ _ => rfl) sampleReads sampleFeatured ⟨some 2, none⟩ ⟨_, _, .first (contentPages_of_mem hread)⟩).mpr (by decide), ?_⟩
  exact .more (.first (betsPages_of_mem hbets.1)) (betsPages_of_mem hbets.2)

/-- The only page of one is not all there is; and the last number of an `i64` has no successor. -/
theorem content_cut_and_overflow :
    ¬VisitsAll (ContentPages (sampleAfter 0) 1) (publishedContent sampleData.content)
      ∧ ¬NoOverflow ⟨some 1, some "9223372036854775807"⟩ := by
  constructor
  · intro h
    have hread : (1, none, (publishedContent sampleData.content).take 1, none) ∈ contentResponses (sampleAfter 0) := by
      decide +kernel
    have hall := h.complete _ _ (.first (contentPages_of_mem hread))
    revert hall
    decide
  · intro h
    exact noOverflow_iff.mp h (by decide)

end Samples

end PredictIQ.PagedReads
