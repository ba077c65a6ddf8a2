/-
  PredictIQ.Api.CursorReads: what the paged handlers answer over fixed data.

  The data does not change, so that whatever is cached for a key is what its
  fetcher would return; every response is then a function of the request.
  `noOverflow_iff` is about the arithmetic on the way, `keeps_program` about
  the handlers.
-/
import PredictIQ.Api.PagedReads
import PredictIQ.Cache.FixedData
import PredictIQ.Foundation.Separator

namespace PredictIQ.PagedReads

open Foundation Cache Markets Prog

/-! ## §1. Arithmetic. -/

section Arithmetic

variable {query : PaginationQuery} {T : Type}

theorem limit_pos : 1 ≤ query.limitOrDefault := by
  unfold PaginationQuery.limitOrDefault
  omega

variable (query) in
theorem limit_le : query.limitOrDefault ≤ 100 := by
  unfold PaginationQuery.limitOrDefault
  omega

theorem startIdx_le (len : Nat) : startIdx query len ≤ len := Nat.min_le_right _ _

/-- A `Vec` has fewer than 2^63 elements. -/
theorem addUsize_startIdx {len : Nat} (hlen : len < 2 ^ 63) :
    addUsize (startIdx query len) query.limitOrDefault = .ok (startIdx query len + query.limitOrDefault) := by
  have hstart : startIdx query len ≤ len := startIdx_le len
  have hlimit : query.limitOrDefault ≤ 100 := limit_le query
  exact if_pos (by omega)

/-- **A page of a payload** is the one that unbounded numbers would give. -/
theorem slicePage_eq {payload : List T} (hlen : payload.length < 2 ^ 63) :
    slicePage query payload = .ok (paginate query payload) := by
  unfold slicePage endIdx
  rw [addUsize_startIdx hlen]
  rfl

/-- The page number that a cursor names under a limit. -/
def pageNumber (limit : Nat) (cursor : Option String) : Int :=
  min (max ((cursor.bind (parseSigned (2 ^ 63))).getD 0) 0) (i64Max / max (limit : Int) 1)

theorem pageOf_eq : pageOf query = pageNumber query.limitOrDefault query.cursor := rfl

variable (query) in
theorem pageOf_nonneg : 0 ≤ pageOf query := by
  have hlimit : 1 ≤ query.limitOrDefault := limit_pos
  have hmax : 0 ≤ i64Max / max (query.limitOrDefault : Int) 1 := Int.ediv_nonneg (by decide) (by omega)
  unfold pageOf
  dsimp only
  omega

/-- The clamp keeps a page in range. -/
theorem pageOf_mul_le : pageOf query * query.limitOrDefault ≤ i64Max := by
  have hlimit : 1 ≤ query.limitOrDefault := limit_pos
  have hmax : max (query.limitOrDefault : Int) 1 = query.limitOrDefault := by omega
  have hle : pageOf query ≤ i64Max / query.limitOrDefault := by
    unfold pageOf
    dsimp only
    rw [hmax]
    omega
  exact Int.le_trans (Int.mul_le_mul_of_nonneg_right hle (by omega)) (Int.ediv_mul_le _ (by omega))

theorem mulI64_pageOf : mulI64 (pageOf query) query.limitOrDefault = .ok (pageOf query * query.limitOrDefault) := by
  have hnonneg : 0 ≤ pageOf query * query.limitOrDefault := Int.mul_nonneg (pageOf_nonneg query) (by omega)
  exact if_pos ⟨by omega, pageOf_mul_le⟩

/-- The cursor names the last number of an `i64`. -/
def AtMax (query : PaginationQuery) : Prop := query.cursor.bind (parseSigned (2 ^ 63)) = some i64Max

instance (query : PaginationQuery) : Decidable (AtMax query) := inferInstanceAs (Decidable (_ = _))

/-- **The clamp lets the last number of an `i64` through** for pages of one. -/
theorem pageOf_eq_max_iff : pageOf query = i64Max ↔ query.limitOrDefault = 1 ∧ AtMax query := by
  have hlimit : 1 ≤ query.limitOrDefault := limit_pos
  have hmul : pageOf query * query.limitOrDefault ≤ i64Max := pageOf_mul_le
  have hpos : (0 : Int) < i64Max := by decide
  constructor
  · intro hpage
    -- with pages of two or more the clamp is at most half of the maximum
    have hone : query.limitOrDefault = 1 := by
      by_contra hne
      have htwo : (2 : Int) ≤ query.limitOrDefault := by omega
      have hbig : i64Max * 2 ≤ i64Max * query.limitOrDefault := Int.mul_le_mul_of_nonneg_left htwo (by omega)
      rw [hpage] at hmul
      omega
    refine ⟨hone, ?_⟩
    unfold pageOf at hpage
    unfold AtMax
    cases hparse : query.cursor.bind (parseSigned (2 ^ 63)) with
    | none =>
        rw [hparse] at hpage
        simp only [Option.getD_none] at hpage
        omega
    | some raw =>
        obtain ⟨text, -, hraw⟩ := Option.bind_eq_some_iff.mp hparse
        have hrange := range_of_parseSigned (by decide) hraw
        rw [hparse] at hpage
        simp only [Option.getD_some] at hpage
        have hmax : i64Max = 2 ^ 63 - 1 := rfl
        congr 1
        omega
  · rintro ⟨hone, hmax⟩
    unfold AtMax at hmax
    unfold pageOf
    rw [hmax, hone]
    rfl

theorem addI64_pageOf (h : ¬(query.limitOrDefault = 1 ∧ AtMax query)) :
    addI64 (pageOf query) 1 = .ok (pageOf query + 1) := by
  have hne : pageOf query ≠ i64Max := fun hmax => h (pageOf_eq_max_iff.mp hmax)
  have hnonneg : 0 ≤ pageOf query := pageOf_nonneg query
  have hle : pageOf query ≤ i64Max := by
    have hlimit : 1 ≤ query.limitOrDefault := limit_pos
    have hmul : pageOf query * 1 ≤ pageOf query * query.limitOrDefault :=
      Int.mul_le_mul_of_nonneg_left (by omega) hnonneg
    have hmax : pageOf query * query.limitOrDefault ≤ i64Max := pageOf_mul_le
    omega
  exact if_pos ⟨by omega, by omega⟩

/-- No arithmetic of the three handlers overflows on a query. -/
structure NoOverflow (query : PaginationQuery) : Prop where
  slice : ∀ len < 2 ^ 63, addUsize (startIdx query len) query.limitOrDefault = .ok (startIdx query len + query.limitOrDefault)
  offset : mulI64 (pageOf query) query.limitOrDefault = .ok (pageOf query * query.limitOrDefault)
  nextPage : addI64 (pageOf query) 1 = .ok (pageOf query + 1)

/-- **Overflow.** -/
theorem noOverflow_iff : NoOverflow query ↔ ¬(query.limitOrDefault = 1 ∧ AtMax query) := by
  constructor
  · intro h hmax
    have hnext := h.nextPage
    rw [pageOf_eq_max_iff.mpr hmax] at hnext
    cases hnext
  · exact fun h => ⟨fun _ hlen => addUsize_startIdx hlen, mulI64_pageOf, addI64_pageOf h⟩

end Arithmetic

/-! ## §2. Keys. -/

section Keys

variable {m n : Nat}

theorem apiContent_inj (h : keys.apiContent m = keys.apiContent n) : m = n :=
  toString_nat_inj ((String.append_right_inj _).mp h)

theorem dbqContent_inj (h : keys.dbqContent m = keys.dbqContent n) : m = n :=
  toString_nat_inj ((String.append_right_inj _).mp h)

/-- Keys that begin with different letters. -/
theorem ne_of_head (a b rest rest' : String) (c c' : Char) (ha : a.toList.head? = some c)
    (hb : b.toList.head? = some c') (hne : c ≠ c') : a ++ rest ≠ b ++ rest' := by
  intro h
  have hhead := congrArg (fun s : String => s.toList.head?) h
  simp only [String.toList_append, List.head?_append, ha, hb, Option.some_or, Option.some.injEq] at hhead
  exact hne hhead

theorem apiContent_ne_dbqContent (m n : Nat) : keys.apiContent m ≠ keys.dbqContent n :=
  ne_of_head "api:v1:content:limit:" "dbq:v1:content:limit:" _ _ 'a' 'd' (by decide) (by decide) (by decide)

theorem colon : IsSeparator ":" ':' := by
  show ":".toList = [':']
  decide

theorem no_colon (n : Nat) : ':' ∉ (toString (n : Int)).toList := not_mem_toString (n := n) rfl

/-- **The key of a page** tells the page, its size, and the user in lower case. -/
theorem chainUserBetsPage_inj {lower : String → String} {network user user' : String} {page page' size size' : Nat}
    (h : keys.chainUserBetsPage lower network user page size = keys.chainUserBetsPage lower network user' page' size') :
    lower user = lower user' ∧ page = page' ∧ size = size' := by
  have hsplit : ∀ user (page size : Nat), keys.chainUserBetsPage lower network user page size
      = ((("chain:v1:user_bets:" ++ network ++ ":" ++ lower user) ++ ":page" ++ ":" ++ toString (page : Int))
        ++ ":size") ++ ":" ++ toString (size : Int) := by
    intro user page size
    unfold keys.chainUserBetsPage
    simp only [String.append_assoc]
    rfl
  rw [hsplit, hsplit] at h
  obtain ⟨h, hsize⟩ := joined_inj_right colon (no_colon _) (no_colon _) h
  obtain ⟨h, hpage⟩ := joined_inj_right colon (no_colon _) (no_colon _) ((String.append_left_inj _).mp h)
  have huser := (String.append_left_inj _).mp h
  exact ⟨(String.append_right_inj _).mp huser, toString_nat_inj hpage, toString_nat_inj hsize⟩

end Keys

/-! ## §3. What is cached. -/

section Cached

variable {P : Type} {K : Crates} {cfg : Config} {request : P → Request} {d : DataSet}

/-- The bets of a user are asked for. -/
def Asks (request : P → Request) (user : String) : Prop := ∃ p query, request p = .userBets user query

/-- The bets of a user, as the handler understands the contract's entries. -/
def betsOf (cfg : Config) (d : DataSet) (user : String) : List Bet := (d.bets (cfg.userBetsKey user)).map Bet.ofEntry

/-- A page of some bets. -/
structure IsPage (bets : List Bet) (page size : Nat) (v : UserBetsPage) : Prop where
  total : v.total = bets.length
  items : v.items.map (·.toBet) = slice (page * size) size bets

def Reads (K : Crates) (cfg : Config) (request : P → Request) (key : String) : Paged → Prop
  | .content => ∃ limit : Nat, key = keys.apiContent limit ∨ key = keys.dbqContent limit
  | .userBets => ∃ user, Asks request user ∧ ∃ page size : Nat,
      key = keys.chainUserBetsPage K.toLowercase cfg.network user page size

def Right (K : Crates) (cfg : Config) (request : P → Request) (d : DataSet) (key : String) : (i : Paged) → i.Data → Prop
  | .content, rows => ∀ limit : Nat, key = keys.apiContent limit ∨ key = keys.dbqContent limit →
      rows = (publishedContent d.content).take limit
  | .userBets, v => ∀ user, Asks request user → ∀ page size : Nat,
      key = keys.chainUserBetsPage K.toLowercase cfg.network user page size → IsPage (betsOf cfg d user) page size v

theorem reads_unique {key : String} {i i' : Paged} (h : Reads K cfg request key i) (h' : Reads K cfg request key i') :
    i = i' := by
  have hne : ∀ limit : Nat, ∀ user, ∀ page size : Nat,
      ¬(keys.chainUserBetsPage K.toLowercase cfg.network user page size = keys.apiContent limit
        ∨ keys.chainUserBetsPage K.toLowercase cfg.network user page size = keys.dbqContent limit) := by
    intro limit user page size h
    unfold keys.chainUserBetsPage at h
    simp only [String.append_assoc] at h
    rcases h with h | h
    · exact ne_of_head _ "api:v1:content:limit:" _ _ 'c' 'a' (by decide) (by decide) (by decide) h
    · exact ne_of_head _ "dbq:v1:content:limit:" _ _ 'c' 'd' (by decide) (by decide) (by decide) h
  cases i with
  | content =>
      cases i' with
      | content => rfl
      | userBets =>
          obtain ⟨limit, h⟩ := h
          obtain ⟨user, -, page, size, rfl⟩ := h'
          exact absurd h (hne limit user page size)
  | userBets =>
      cases i' with
      | content =>
          obtain ⟨limit, h'⟩ := h'
          obtain ⟨user, -, page, size, rfl⟩ := h
          exact absurd h' (hne limit user page size)
      | userBets => rfl

theorem lockKey_ne (key start rest : String) (c : Char) (hstart : start.toList.head? = some c) (hc : c ≠ 's') :
    lockKey key ≠ start ++ rest :=
  ne_of_head "stampede_lock:" _ _ _ 's' c (by decide) hstart hc.symm

theorem not_reads_lockKey (key : String) (i : Paged) : ¬Reads K cfg request (lockKey key) i := by
  cases i with
  | content =>
      rintro ⟨limit, h | h⟩
      · exact lockKey_ne key "api:v1:content:limit:" _ 'a' (by decide) (by decide) h
      · exact lockKey_ne key "dbq:v1:content:limit:" _ 'd' (by decide) (by decide) h
  | userBets =>
      rintro ⟨user, -, page, size, h⟩
      unfold keys.chainUserBetsPage at h
      simp only [String.append_assoc] at h
      exact lockKey_ne key "chain:v1:user_bets:" _ 'c' (by decide) (by decide) h

/-- What is written is read as itself. -/
def Crates.ReadsBack (K : Crates) : Prop := ∀ i, K.setting.ReadsBack i

variable (cfg request d) in
def layout (hK : K.ReadsBack) : Layout K.setting where
  reads := Reads K cfg request
  right := Right K cfg request d
  unique _ _ _ := reads_unique
  lock := not_reads_lockKey
  readsBack := hK

theorem reads_apiContent (limit : Nat) : Reads K cfg request (keys.apiContent limit) .content := ⟨limit, .inl rfl⟩

theorem reads_dbqContent (limit : Nat) : Reads K cfg request (keys.dbqContent limit) .content := ⟨limit, .inr rfl⟩

theorem reads_userBets {user : String} (huser : Asks request user) (page size : Nat) :
    Reads K cfg request (keys.chainUserBetsPage K.toLowercase cfg.network user page size) .userBets :=
  ⟨user, huser, page, size, rfl⟩

theorem right_apiContent (limit : Nat) :
    Right K cfg request d (keys.apiContent limit) .content ((publishedContent d.content).take limit) := by
  rintro limit' (h | h)
  · rw [apiContent_inj h]
  · exact absurd h (apiContent_ne_dbqContent limit limit')

theorem right_dbqContent (limit : Nat) :
    Right K cfg request d (keys.dbqContent limit) .content ((publishedContent d.content).take limit) := by
  rintro limit' (h | h)
  · exact absurd h.symm (apiContent_ne_dbqContent limit' limit)
  · rw [dbqContent_inj h]

/-- Users that are asked for and differ in letter case only have the same bets. -/
def SameBets (K : Crates) (cfg : Config) (request : P → Request) (d : DataSet) : Prop :=
  ∀ user user', Asks request user → Asks request user' → K.toLowercase user = K.toLowercase user' →
    betsOf cfg d user = betsOf cfg d user'

theorem right_userBets (hsame : SameBets K cfg request d) {user : String} (huser : Asks request user) {page size : Nat}
    {v : UserBetsPage} (h : IsPage (betsOf cfg d user) page size v) :
    Right K cfg request d (keys.chainUserBetsPage K.toLowercase cfg.network user page size) .userBets v := by
  intro user' huser' page' size' hkey
  obtain ⟨hlower, rfl, rfl⟩ := chainUserBetsPage_inj hkey
  rwa [← hsame user user' huser huser' hlower]

end Cached

/-! ## §4. The handlers. -/

section Handlers

variable {P : Type} {K : Crates} {cfg : Config} {request : P → Request} {d : DataSet}

/-- The answers of the world. -/
def World (d : DataSet) (q : Question) (v : Answer q) : Prop := ∃ latestLedger, answer latestLedger d q = some (v, d)

/-- A page of bets with its cursor. -/
structure IsBetsPage (bets : List Bet) (query : PaginationQuery) (r : PaginatedResponse UserBet) : Prop where
  items : r.items.map (·.toBet) = slice ((pageOf query).toNat * query.limitOrDefault) query.limitOrDefault bets
  nextCursor : r.nextCursor
    = if (pageOf query + 1) * query.limitOrDefault < bets.length then some (toString (pageOf query + 1)) else none

/-- Every response is a function of the request. -/
def Responds (cfg : Config) (d : DataSet) : Question → Prop
  | .respondContent query r => r = paginate query ((publishedContent d.content).take query.limitOrDefault)
  | .respondUserBets user query r => IsBetsPage (betsOf cfg d user) query r
  | _ => True

variable {hK : K.ReadsBack}

/-- What a handler may ask, and what it may be answered. -/
abbrev KeepsRight (cfg : Config) (request : P → Request) (d : DataSet) (hK : K.ReadsBack) {α : Type}
    (p : CacheM K.setting α) (good : α → Prop) : Prop :=
  p.Keeps ((layout cfg request d hK).fair (World d)) ((layout cfg request d hK).allowed (Responds cfg d)) good

/-- A key that is read can be used by a fetch-or-set. -/
theorem usable_of_reads {i : Paged} {key : String} (h : Reads K cfg request key i) :
    Usable (W := K.setting) ((layout cfg request d hK).fair (World d)) ((layout cfg request d hK).allowed (Responds cfg d))
      i key (Right K cfg request d key i) :=
  Layout.usable (L := layout cfg request d hK) (i := i) h

theorem keeps_contentCached (limit : Nat) :
    KeepsRight cfg request d hK (contentCached K cfg limit) fun rows => rows = (publishedContent d.content).take limit := by
  have hfetch : KeepsRight cfg request d hK (outside K (.selectContent limit))
      (Right K cfg request d (keys.dbqContent limit) .content) := by
    refine keeps_call trivial fun rows hrows => ?_
    obtain ⟨_, hanswer⟩ := hrows
    have hselect : selectContent limit d.content = some ((publishedContent d.content).take limit) := by
      exact if_neg (by omega)
    unfold answer at hanswer
    dsimp only at hanswer
    rw [hselect] at hanswer
    cases hanswer
    exact right_dbqContent limit
  refine keeps_bind (keeps_getOrSetJson (usable_of_reads (reads_dbqContent limit)) hfetch) ?_
  exact fun found hfound => keeps_pure (hfound limit (.inr rfl))

theorem keeps_content (query : PaginationQuery) :
    KeepsRight cfg request d hK (content K cfg query) fun _ => True := by
  have hcached : KeepsRight cfg request d hK (contentCached K cfg query.limitOrDefault) _ :=
    keeps_contentCached query.limitOrDefault
  have hfetch := hcached.mono fun rows hrows => show Right K cfg request d (keys.apiContent query.limitOrDefault) .content rows from
      hrows ▸ right_apiContent query.limitOrDefault
  refine keeps_bind (keeps_getOrSetJson (usable_of_reads (reads_apiContent query.limitOrDefault)) hfetch) fun found hfound => ?_
  have hrows := hfound query.limitOrDefault (.inl rfl)
  refine keeps_bind (keeps_done (fun r => r = paginate query found.1) fun r hr => ?_) fun r hr => ?_
  · -- the payload is no longer than the limit
    have hlen : found.1.length < 2 ^ 63 := by
      have hlimit := limit_le query
      have htake := List.length_take_le query.limitOrDefault (publishedContent d.content)
      rw [hrows]
      omega
    rw [slicePage_eq hlen] at hr
    exact (Except.ok.inj hr).symm
  · refine keeps_call ?_ fun _ _ => trivial
    show r = _
    rw [hr, hrows]

theorem keeps_fetchUserBets (user : String) (page size : Nat) :
    KeepsRight cfg request d hK (fetchUserBets K cfg user page size ((page : Int) * size))
      (IsPage (betsOf cfg d user) page size) := by
  have hledger : KeepsRight cfg request d hK (latestLedger K) fun _ => True :=
    keeps_attempt_bind (keeps_call trivial fun _ _ => trivial) (fun _ _ => keeps_pure trivial) fun _ => keeps_pure trivial
  refine keeps_bind hledger fun ledger _ => ?_
  refine keeps_bind (keeps_call trivial fun data hdata => hdata) fun data hdata => keeps_pure ?_
  obtain ⟨_, hanswer⟩ := hdata
  cases hanswer
  have hoffset : ((page : Int) * size).toNat = page * size := by
    rw [← Int.natCast_mul]
    rfl
  refine ⟨?_, ?_⟩
  · unfold betsOf
    rw [List.length_map]
    rfl
  · unfold betsOf
    rw [slice_map, List.map_map, hoffset]
    rfl

theorem keeps_userBetsPage (hsame : SameBets K cfg request d) {user : String} (huser : Asks request user)
    (query : PaginationQuery) :
    KeepsRight cfg request d hK (userBetsPage K cfg user (pageOf query) query.limitOrDefault)
      (IsPage (betsOf cfg d user) (pageOf query).toNat query.limitOrDefault) := by
  have hlimit : 1 ≤ query.limitOrDefault ∧ query.limitOrDefault ≤ 100 := ⟨limit_pos, limit_le query⟩
  have hpage : max (pageOf query) 0 = ((pageOf query).toNat : Int) := by
    have hnonneg := pageOf_nonneg query
    omega
  have hsize : min (max (query.limitOrDefault : Int) 1) 100 = query.limitOrDefault := by omega
  have hoffset : mulI64 ((pageOf query).toNat : Int) query.limitOrDefault
      = .ok (((pageOf query).toNat : Int) * query.limitOrDefault) := by
    have hpage : ((pageOf query).toNat : Int) = pageOf query := Int.toNat_of_nonneg (pageOf_nonneg query)
    rw [hpage]
    exact mulI64_pageOf
  unfold userBetsPage
  dsimp only
  rw [hpage, hsize, hoffset]
  refine keeps_bind (keeps_done (fun offset => offset = ((pageOf query).toNat : Int) * query.limitOrDefault)
    fun offset h => (Except.ok.inj h).symm) fun offset hoffset => ?_
  subst hoffset
  refine keeps_bind (keeps_getOrSetJson (usable_of_reads (reads_userBets huser _ _))
    ((keeps_fetchUserBets user _ _).mono fun v hv => right_userBets hsame huser hv)) fun found hfound => ?_
  exact keeps_pure (hfound user huser _ _ rfl)

theorem keeps_blockchainUserBets (hsame : SameBets K cfg request d) {user : String} (huser : Asks request user)
    (query : PaginationQuery) : KeepsRight cfg request d hK (blockchainUserBets K cfg user query) fun _ => True := by
  refine keeps_bind (keeps_userBetsPage hsame huser query) fun pageData hpage => ?_
  refine keeps_bind (keeps_done (fun nextPage => nextPage = pageOf query + 1) fun nextPage hnext => ?_)
    fun nextPage hnext => keeps_call ?_ fun _ _ => trivial
  · -- a sum that fits is the sum
    unfold addI64 checkedI64 at hnext
    split at hnext
    · exact (Except.ok.inj hnext).symm
    · cases hnext
  · refine ⟨hpage.items, ?_⟩
    dsimp only
    rw [hnext, hpage.total]
    have hfits : ((betsOf cfg d user).length : Int) ≤ i64Max := by
      have hlt := d.fits (cfg.userBetsKey user)
      unfold betsOf
      rw [List.length_map]
      have hmax : i64Max = 2 ^ 63 - 1 := rfl
      omega
    have hpos : 0 ≤ (pageOf query + 1) * query.limitOrDefault :=
      Int.mul_nonneg (Int.add_nonneg (pageOf_nonneg query) (by decide)) (by omega)
    -- a product that saturates is beyond every total
    have hmore : saturatingMul (pageOf query + 1) query.limitOrDefault < ((betsOf cfg d user).length : Int)
        ↔ (pageOf query + 1) * query.limitOrDefault < ((betsOf cfg d user).length : Int) := by
      unfold saturatingMul
      omega
    simp only [decide_eq_true_eq, hmore]

theorem keeps_program (hsame : SameBets K cfg request d) (p : P) :
    KeepsRight cfg request d hK (program K cfg (request p)) fun _ => True := by
  cases hrequest : request p with
  | content query => exact keeps_content query
  | userBets user query => exact keeps_blockchainUserBets hsame ⟨p, query, hrequest⟩ query

end Handlers

end PredictIQ.PagedReads
