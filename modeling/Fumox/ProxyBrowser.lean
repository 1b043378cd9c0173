import Fumox.LaneCoverage
import Fumox.MachineInt
import Fumox.ProbeCycle
import Fumox.SqlPages

/-!
The proxy browser of the admin panel: its filter, its orders and its pages, and the counts of the
check coverage that link into it.
-/

namespace ProxyBrowser

open RustText ProxyModels ProxyStore ProbeCycle MachineInt SqlPages

inductive CheckCoverage where
  | none | t1Only | t2Only | both
  deriving DecidableEq, Repr

namespace CheckCoverage

def asStr : CheckCoverage → Text
  | none => "none"
  | t1Only => "t1_only"
  | t2Only => "t2_only"
  | both => "both"

def fromBucket (bucket : Text) : Option CheckCoverage :=
  [none, t1Only, t2Only, both].find? fun coverage => coverage.asStr == bucket

end CheckCoverage

def t1Checked (s : Store) (id : ℕ) : Bool :=
  s.results.any fun x => x.proxyId == id &&
    (x.probeKind == CheckKind.tcp.asStr || x.probeKind == CheckKind.tls.asStr)

def t2Checked (s : Store) (id : ℕ) : Bool :=
  s.results.any fun x => x.proxyId == id && x.probeKind == t2Kind

def CheckCoverage.existsClause (s : Store) (id : ℕ) : CheckCoverage → Bool
  | none => !s.hasResult id
  | t1Only => t1Checked s id && !t2Checked s id
  | t2Only => t2Checked s id && !t1Checked s id
  | both => t1Checked s id && t2Checked s id

def bucketOf (s : Store) (id : ℕ) : CheckCoverage :=
  if t1Checked s id && t2Checked s id then .both
  else if t1Checked s id then .t1Only
  else if t2Checked s id then .t2Only
  else .none

def coverageCount (s : Store) (coverage : CheckCoverage) : ℕ :=
  s.proxies.countP fun r => bucketOf s r.id = coverage

def countByCheckCoverage (s : Store) : List (Text × ℕ) :=
  [CheckCoverage.none, .t1Only, .t2Only, .both].map fun coverage =>
    (coverage.asStr, coverageCount s coverage)

def statusStr : ProxyStatus → Text
  | .unknown => "unknown"
  | .alive => "alive"
  | .ready => "ready"
  | .quarantine => "quarantine"
  | .removed => "removed"

structure ProxyListFilter where
  statuses : List Text := []
  scheme : Text := []
  country : Text := []
  sourceId : Text := []
  query : Text := []
  coverage : Option CheckCoverage := none

def likeQuery (query column : Text) : Bool :=
  like Char.toLower ('%' :: (query ++ ['%'])) column

/-- The clauses of `where_filter`; an empty value sets no constraint. -/
def ProxyListFilter.whereFilter (f : ProxyListFilter) (s : Store) (r : ProxyRow) : Bool :=
  (f.statuses.isEmpty || f.statuses.contains (statusStr r.status)) &&
    (f.scheme.isEmpty || r.scheme.asStr == f.scheme) &&
    (f.country.isEmpty || r.geoCountry == some f.country) &&
    (f.sourceId.isEmpty ||
      s.links.any fun l => l.proxyId == r.id && l.sourceId == f.sourceId) &&
    (f.query.isEmpty || likeQuery f.query r.host || likeQuery f.query r.name) &&
    f.coverage.all fun coverage => coverage.existsClause s r.id

inductive ProxyListOrder where
  | updated | latency | name
  deriving DecidableEq, Repr

namespace ProxyListOrder

def fromParam (value : Text) : ProxyListOrder :=
  if value = "latency" then latency else if value = "name" then name else updated

def nocase (name : Text) : List ℕ :=
  (bytes (toAsciiLowercase name)).map UInt8.toNat

/-- The columns of the `ORDER BY`; every order ends with the newest id first. -/
def orderSql : ProxyListOrder → List ProxyRow → List ProxyRow
  | updated, rows => rows.insertionSort fun a b =>
      toLex (OrderDual.toDual a.updatedAt, OrderDual.toDual a.id) ≤
        toLex (OrderDual.toDual b.updatedAt, OrderDual.toDual b.id)
  | latency, rows => rows.insertionSort fun a b =>
      toLex (a.latencyMs.isNone, toLex (a.latencyMs.getD 0, OrderDual.toDual a.id)) ≤
        toLex (b.latencyMs.isNone, toLex (b.latencyMs.getD 0, OrderDual.toDual b.id))
  | name, rows => rows.insertionSort fun a b =>
      toLex (nocase a.name, OrderDual.toDual a.id) ≤ toLex (nocase b.name, OrderDual.toDual b.id)

theorem orderSql_perm (order : ProxyListOrder) (rows : List ProxyRow) :
    (order.orderSql rows).Perm rows := by
  cases order <;> exact List.perm_insertionSort _ rows

end ProxyListOrder

structure ProxyListRow where
  id : ℕ
  scheme : Scheme
  name : Text
  host : Text
  port : ℤ
  status : ProxyStatus
  latencyMs : Option ℤ
  geoCountry : Option Text
  t1Checked : Bool
  t2Checked : Bool

def listRow (s : Store) (r : ProxyRow) : ProxyListRow :=
  ⟨r.id, r.scheme, r.name, r.host, r.port, r.status, r.latencyMs, r.geoCountry,
    t1Checked s r.id, t2Checked s r.id⟩

def filtered (s : Store) (f : ProxyListFilter) : List ProxyRow :=
  s.proxies.filter (f.whereFilter s)

def countFiltered (s : Store) (f : ProxyListFilter) : ℤ :=
  (filtered s f).length

/-- A negative limit sets none, and a negative offset skips nothing. -/
def listFiltered (s : Store) (f : ProxyListFilter) (order : ProxyListOrder) (limit offset : ℤ) :
    List ProxyListRow :=
  let rows := ((order.orderSql (filtered s f)).drop offset.toNat).map (listRow s)
  if limit < 0 then rows else rows.take limit.toNat

def pageSize : ℤ := 50

def maxPageSize : ℤ := 200

def clampLimit (requested : Option ℤ) : ℤ :=
  max 1 (min maxPageSize (requested.getD pageSize))

def pageOffset (page perPage : ℤ) : ℤ :=
  saturateSigned (2 ^ 63) (saturateSigned (2 ^ 63) (page - 1) * perPage)

def lastPage (total perPage : ℤ) : ℤ :=
  -- `total` counts the rows of a table, so a page size of at most 200 leaves the sum within an `i64`
  max 1 ((max total 0 + max perPage 1 - 1) / max perPage 1)

/-- What the handler shows for `page` and `per_page` of the query string. -/
def proxiesList (s : Store) (f : ProxyListFilter) (order : ProxyListOrder) (page : ℤ)
    (requested : Option ℤ) : List ProxyListRow :=
  listFiltered s f order (clampLimit requested)
    (pageOffset (max 1 page) (clampLimit requested))

section Pages

variable {s : Store} {f : ProxyListFilter} {order : ProxyListOrder} {requested : Option ℤ}
  {page : ℤ}

theorem clampLimit_bounds (requested : Option ℤ) :
    1 ≤ clampLimit requested ∧ clampLimit requested ≤ 200 := by
  unfold clampLimit maxPageSize
  omega

/-- A page of the browser is a page of the ordered rows, unless the offset saturates: then there
are fewer rows than it skips. -/
theorem proxiesList_eq (hfits : countFiltered s f < 2 ^ 63) (i : ℕ)
    (hi : (i : ℤ) + 1 < 2 ^ 63) :
    proxiesList s f order (i + 1) requested =
      SqlPages.page ((order.orderSql (filtered s f)).map (listRow s))
        (clampLimit requested).toNat i := by
  obtain ⟨hlow, hhigh⟩ := clampLimit_bounds requested
  set k := clampLimit requested with hk
  have hoffset : pageOffset (max 1 ((i : ℤ) + 1)) k = min (2 ^ 63 - 1) (i * k) := by
    have hprod : (0 : ℤ) ≤ i * k := mul_nonneg (by omega) (by omega)
    have hmax : max 1 ((i : ℤ) + 1) = i + 1 := by omega
    have hinner : saturateSigned (2 ^ 63) (i : ℤ) = i :=
      saturateSigned_eq_self (by omega) (by omega)
    rw [pageOffset, hmax, add_sub_cancel_right, hinner]
    unfold saturateSigned
    omega
  have hmul : ((i * k.toNat : ℕ) : ℤ) = i * k := by
    push_cast
    rw [Int.toNat_of_nonneg (by omega)]
  rw [proxiesList, listFiltered, ← hk, hoffset, if_neg (by omega), SqlPages.page, ← List.map_drop]
  rcases le_or_gt ((i : ℤ) * k) (2 ^ 63 - 1) with hsmall | hlarge
  · rw [min_eq_right hsmall, ← hmul, Int.toNat_natCast]
  · have hlength : (order.orderSql (filtered s f)).length ≤ 2 ^ 63 - 1 := by
      rw [(order.orderSql_perm _).length_eq]
      unfold countFiltered at hfits
      omega
    have hskip : (2 ^ 63 - 1 : ℕ) ≤ i * k.toNat := by
      have hcast : ((2 ^ 63 - 1 : ℕ) : ℤ) ≤ ((i * k.toNat : ℕ) : ℤ) := by
        rw [hmul]
        norm_num
        omega
      exact_mod_cast hcast
    rw [min_eq_left (by omega), List.drop_eq_nil_of_le (by simpa using hlength),
      List.drop_eq_nil_of_le (hlength.trans hskip)]

theorem lastPage_bounds {total perPage : ℤ} (htotal : 0 ≤ total) (hperPage : 1 ≤ perPage) :
    1 ≤ lastPage total perPage ∧ total ≤ lastPage total perPage * perPage ∧
      lastPage total perPage ≤ max 1 total := by
  have hmax : max perPage 1 = perPage := max_eq_left hperPage
  have habove := Int.lt_ediv_add_one_mul_self (total + perPage - 1) (show 0 < perPage by omega)
  have hbelow : (total + perPage - 1) / perPage < total + 1 := by
    refine Int.ediv_lt_of_lt_mul (by omega) ?_
    nlinarith
  have hlast : lastPage total perPage = max 1 ((total + perPage - 1) / perPage) := by
    rw [lastPage, max_eq_left htotal, hmax]
  have hmono : (total + perPage - 1) / perPage * perPage ≤ lastPage total perPage * perPage :=
    mul_le_mul_of_nonneg_right (hlast ▸ le_max_right _ _) (by omega)
  refine ⟨hlast ▸ le_max_left _ _, ?_, ?_⟩
  · rw [add_mul, one_mul] at habove
    omega
  · omega

/-- The pages that the bar offers hold every row of the filter exactly once, in the order that was
asked for, and there is nothing on any page behind them. -/
theorem browse_pages (hkeyed : (s.proxies.map (·.id)).Nodup)
    (hfits : countFiltered s f < 2 ^ 63) :
    ((List.range (lastPage (countFiltered s f) (clampLimit requested)).toNat).flatMap
        fun i : ℕ => proxiesList s f order (i + 1) requested) =
          (order.orderSql (filtered s f)).map (listRow s) ∧
      (∀ page, lastPage (countFiltered s f) (clampLimit requested) < page → page < 2 ^ 63 →
        proxiesList s f order page requested = []) ∧
      ∀ r ∈ s.proxies, f.whereFilter s r = true →
        ∃! page : ℤ, (1 ≤ page ∧ page ≤ lastPage (countFiltered s f) (clampLimit requested)) ∧
          ∃ row ∈ proxiesList s f order page requested, row.id = r.id := by
  obtain ⟨hperPage, -⟩ := clampLimit_bounds requested
  obtain ⟨hfirst, hcover, hlast⟩ := lastPage_bounds
    (show 0 ≤ countFiltered s f from Int.natCast_nonneg _) hperPage
  set last := lastPage (countFiltered s f) (clampLimit requested) with hlastDef
  set rows := order.orderSql (filtered s f) with hrows
  have hlength : (rows.length : ℤ) = countFiltered s f := by
    rw [hrows, (order.orderSql_perm _).length_eq]
    rfl
  have hk : ((clampLimit requested).toNat : ℤ) = clampLimit requested :=
    Int.toNat_of_nonneg (by omega)
  have hn : (last.toNat : ℤ) = last := Int.toNat_of_nonneg (by omega)
  have henough : rows.length ≤ last.toNat * (clampLimit requested).toNat := by
    have hcast : (rows.length : ℤ) ≤ ((last.toNat * (clampLimit requested).toNat : ℕ) : ℤ) := by
      push_cast
      rw [hk, hn, hlength]
      exact hcover
    exact_mod_cast hcast
  refine ⟨?_, fun page hbehind hpage => ?_, fun r hr hmatch => ?_⟩
  · have hpages : ∀ i ∈ List.range last.toNat, proxiesList s f order (i + 1) requested =
        SqlPages.page (rows.map (listRow s)) (clampLimit requested).toNat i := by
      intro i hi
      have hlt := List.mem_range.mp hi
      exact proxiesList_eq hfits i (by omega)
    rw [List.flatMap_congr hpages, flatMap_pages, List.take_of_length_le (by simpa using henough)]
  · obtain ⟨i, rfl⟩ : ∃ i : ℕ, page = i + 1 := ⟨(page - 1).toNat, by omega⟩
    rw [proxiesList_eq hfits i hpage]
    refine page_eq_nil ?_
    have hle : last.toNat ≤ i := by omega
    simpa using henough.trans (Nat.mul_le_mul_right _ hle)
  · have hids : (rows.map (·.id)).Nodup := by
      have hsub : ((filtered s f).map (·.id)).Nodup :=
        hkeyed.sublist (List.filter_sublist.map _)
      exact (((order.orderSql_perm _).map _).nodup_iff).mpr hsub
    obtain ⟨j, hj⟩ : ∃ j : ℕ, rows[j]? = some r := List.getElem?_of_mem
      ((order.orderSql_perm _).mem_iff.mpr (List.mem_filter.mpr ⟨hr, hmatch⟩))
    have hshown : ∀ i : ℕ, (i : ℤ) + 1 < 2 ^ 63 →
        ((∃ row ∈ proxiesList s f order (i + 1) requested, row.id = r.id) ↔
          j / (clampLimit requested).toNat = i) := by
      intro i hi
      rw [proxiesList_eq hfits i hi, ← hrows]
      constructor
      · rintro ⟨row, hrow, hid⟩
        obtain ⟨j', rfl, hj', -⟩ := mem_page.mp hrow
        obtain ⟨r', hr', rfl⟩ := Option.map_eq_some_iff.mp (List.getElem?_map ▸ hj')
        have hsame : (rows.map (·.id))[j']? = (rows.map (·.id))[j]? := by
          rw [List.getElem?_map, List.getElem?_map, hr', hj]
          exact congrArg some hid
        have hlt : j' < (rows.map (·.id)).length := by
          rw [List.length_map]
          exact (List.getElem?_eq_some_iff.mp hr').1
        rw [(List.getElem?_inj hlt hids).mp hsame]
      · rintro rfl
        refine ⟨listRow s r, mem_page.mpr ⟨j, rfl, ?_, by omega⟩, rfl⟩
        rw [List.getElem?_map, hj]
        rfl
    have hj_lt : j < last.toNat * (clampLimit requested).toNat :=
      (List.getElem?_eq_some_iff.mp hj).1.trans_le henough
    have hpage_lt : j / (clampLimit requested).toNat < last.toNat :=
      Nat.div_lt_of_lt_mul (mul_comm last.toNat _ ▸ hj_lt)
    generalize j / (clampLimit requested).toNat = q at hshown hpage_lt
    refine ⟨q + 1, ⟨⟨by omega, by omega⟩, (hshown q (by omega)).mpr rfl⟩, ?_⟩
    rintro page ⟨⟨hone, hle⟩, hrow⟩
    obtain ⟨i, rfl⟩ : ∃ i : ℕ, page = i + 1 := ⟨(page - 1).toNat, by omega⟩
    rw [(hshown i (by omega)).mp hrow]

end Pages

def KnownKinds (s : Store) : Prop :=
  ∀ x ∈ s.results, x.probeKind ∈ [CheckKind.tcp.asStr, CheckKind.tls.asStr, t2Kind]

section Coverage

variable {s : Store}

theorem hasResult_eq (h : KnownKinds s) (id : ℕ) :
    s.hasResult id = (t1Checked s id || t2Checked s id) := by
  have hsplit : (t1Checked s id || t2Checked s id) = true ↔ s.hasResult id = true := by
    simp only [t1Checked, t2Checked, Store.hasResult, Bool.or_eq_true, List.any_eq_true,
      Bool.and_eq_true, beq_iff_eq]
    constructor
    · rintro (⟨x, hx, hid, -⟩ | ⟨x, hx, hid, -⟩) <;> exact ⟨x, hx, hid⟩
    · rintro ⟨x, hx, hid⟩
      have hkind := h x hx
      simp only [List.mem_cons, List.not_mem_nil, or_false] at hkind
      rcases hkind with htcp | htls | ht2
      · exact .inl ⟨x, hx, hid, .inl htcp⟩
      · exact .inl ⟨x, hx, hid, .inr htls⟩
      · exact .inr ⟨x, hx, hid, ht2⟩
  exact (Bool.eq_iff_iff.mpr hsplit).symm

theorem bucketOf_eq_iff (h : KnownKinds s) (id : ℕ) (coverage : CheckCoverage) :
    bucketOf s id = coverage ↔ coverage.existsClause s id = true := by
  have hresult := hasResult_eq h id
  unfold bucketOf
  cases coverage <;> simp only [CheckCoverage.existsClause, hresult] <;>
    cases t1Checked s id <;> cases t2Checked s id <;> decide

theorem fromBucket_asStr (coverage : CheckCoverage) :
    CheckCoverage.fromBucket coverage.asStr = some coverage := by
  cases coverage <;> decide

/-- Every number of the overview is the length of the list that its link opens, and the numbers
add up to the population. -/
theorem coverage_links (h : KnownKinds s) :
    (∀ coverage : CheckCoverage, ∃ n : ℕ, (coverage.asStr, n) ∈ countByCheckCoverage s ∧
        countFiltered s { coverage := CheckCoverage.fromBucket coverage.asStr } = n) ∧
      ((countByCheckCoverage s).map Prod.snd).sum = s.proxies.length := by
  constructor
  · intro coverage
    refine ⟨coverageCount s coverage, ?_, ?_⟩
    · exact List.mem_map.mpr ⟨coverage, by cases coverage <;> decide, rfl⟩
    · rw [fromBucket_asStr, countFiltered, coverageCount, List.countP_eq_length_filter, filtered]
      congr 2
      refine List.filter_congr fun r _ => ?_
      have hiff := bucketOf_eq_iff h r.id coverage
      simp only [ProxyListFilter.whereFilter, List.isEmpty_nil, Bool.true_or, Bool.true_and,
        Option.all_some]
      exact Bool.eq_iff_iff.mpr (by rw [decide_eq_true_eq]; exact hiff.symm)
  · have hone : ∀ rows : List ProxyRow, (([CheckCoverage.none, .t1Only, .t2Only, .both].map
        fun coverage => rows.countP fun r => bucketOf s r.id = coverage).sum) = rows.length := by
      intro rows
      induction rows with
      | nil => rfl
      | cons r rows ih =>
        simp only [List.map_cons, List.map_nil, List.sum_cons, List.sum_nil, List.countP_cons,
          List.length_cons] at ih ⊢
        rw [← ih]
        cases bucketOf s r.id <;> simp <;> omega
    rw [countByCheckCoverage, List.map_map]
    exact hone s.proxies

end Coverage

open LaneCoverage (sampleLibraries)
open ProxyFingerprint (sampleEntry)

/-- Two rows, of which the first was checked. -/
def browsed : Store :=
  { upsertEntries sampleLibraries 1000 {}
      [sampleEntry "first" "example.com" [], sampleEntry "second" "example.org" []] [] with
    results := [⟨1, 1001, true, "tcp"⟩] }

def exampleQuery : ProxyListFilter := { query := "EXAMPLE" }

theorem browse_pages_sample :
    ((List.range
        (lastPage (countFiltered browsed exampleQuery) (clampLimit (some 1))).toNat).flatMap
          fun i : ℕ => proxiesList browsed exampleQuery .updated (i + 1) (some 1)) =
          (ProxyListOrder.updated.orderSql (filtered browsed exampleQuery)).map (listRow browsed) ∧
      (∀ page, lastPage (countFiltered browsed exampleQuery) (clampLimit (some 1)) < page →
        page < 2 ^ 63 → proxiesList browsed exampleQuery .updated page (some 1) = []) ∧
      ∀ r ∈ browsed.proxies, exampleQuery.whereFilter browsed r = true →
        ∃! page : ℤ, (1 ≤ page ∧
            page ≤ lastPage (countFiltered browsed exampleQuery) (clampLimit (some 1))) ∧
          ∃ row ∈ proxiesList browsed exampleQuery .updated page (some 1), row.id = r.id :=
  browse_pages (by decide +kernel) (by decide +kernel)

theorem coverage_links_sample :
    (∀ coverage : CheckCoverage, ∃ n : ℕ, (coverage.asStr, n) ∈ countByCheckCoverage browsed ∧
        countFiltered browsed { coverage := CheckCoverage.fromBucket coverage.asStr } = n) ∧
      ((countByCheckCoverage browsed).map Prod.snd).sum = browsed.proxies.length :=
  coverage_links (by unfold KnownKinds; decide +kernel)

end ProxyBrowser
