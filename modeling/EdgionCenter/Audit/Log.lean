import EdgionCenter.Lib.MachineInt
import EdgionCenter.Lib.Paging
import EdgionCenter.Lib.Ties
import Mathlib.Order.Interval.Finset.Nat

/-! The audit log in SQL, and the pages it is read by. -/
namespace EdgionCenter.Audit

open MachineInt Paging Ties

/-- `AuditRecord`, whose fields are those of `AuditEvent`. -/
structure AuditEvent where
  ts : Int
  actor : String
  provider : String
  method : String
  path : String
  targetController : Option String
  status : Int
  sourceIp : Option String
  requestId : Option String
  detail : Option String
  deriving DecidableEq

/-- A row of `audit_log`: the record behind the id that the database gave it. -/
structure AuditRow where
  id : Nat
  record : AuditEvent
  deriving DecidableEq

def AuditRow.ts (row : AuditRow) : Int := row.record.ts

/-- The ids are a primary key of positive `BIGINT`s. -/
structure AuditTable where
  rows : List AuditRow
  ids_nodup : (rows.map AuditRow.id).Nodup
  ids_range : ∀ row ∈ rows, 0 < row.id ∧ row.id < 9223372036854775808

structure AuditFilter where
  actor : Option String
  controller : Option String
  since : Option Int
  untilTs : Option Int
  deriving DecidableEq

/-- How the database compares texts. -/
structure Collation where
  eq : String → String → Bool

/-- The `WHERE` clause; a comparison with `NULL` is not true. -/
def AuditFilter.matches (filter : AuditFilter) (collation : Collation) (row : AuditRow) : Bool :=
  filter.actor.all (collation.eq row.record.actor) &&
    filter.controller.all (fun c => row.record.targetController.any (collation.eq · c)) &&
    filter.since.all (· ≤ row.ts) && filter.untilTs.all (row.ts ≤ ·)

def AuditTable.matching (table : AuditTable) (collation : Collation) (filter : AuditFilter) :
    List AuditRow :=
  table.rows.filter (filter.matches collation)

/-- The window of a query; the order is the one in which the query finds the rows. -/
def listAudit (order : List AuditRow) (limit offset : Nat) : List AuditRow :=
  (order.drop offset).take limit

structure Page where
  limit : UInt32
  offset : UInt64

structure AuditPage where
  items : List AuditEvent
  nextOffset : Option UInt64

/-- The offset as an `i64`. -/
def offsetI64 (offset : UInt64) : Nat := min offset.toNat 9223372036854775807

def Page.rows (page : Page) (order : List AuditRow) : List AuditRow :=
  listAudit order page.limit.toNat (offsetI64 page.offset)

def Page.nextOffset (page : Page) (order : List AuditRow) : Option UInt64 :=
  let itemCount := UInt64.ofNat (page.rows order).length
  if itemCount = page.limit.toUInt64 then some (saturatingAdd page.offset itemCount) else none

def query (order : List AuditRow) (page : Page) : AuditPage where
  items := (page.rows order).map AuditRow.record
  nextOffset := page.nextOffset order

/-! ### Paging -/

section Paging

variable {collation : Collation} {filter : AuditFilter} {table : AuditTable} {limit : UInt32}
  {orders : Nat → List AuditRow} {order : List AuditRow}

/-- An order in which a query may find the matching rows: `ORDER BY ts DESC`. -/
def Permitted (table : AuditTable) (collation : Collation) (filter : AuditFilter)
    (order : List AuditRow) : Prop :=
  Orders AuditRow.ts (table.matching collation filter) order

/-- The answer to the request that follows an offset, or to the first one; the `i`-th query finds
the rows in its own order. -/
def serve (orders : Nat → List AuditRow) (limit : UInt32) (i : Nat) (offset : Option UInt64) :
    Except Empty (List AuditRow × Option UInt64) :=
  .ok ((Page.mk limit (offset.getD 0)).rows (orders i),
    (Page.mk limit (offset.getD 0)).nextOffset (orders i))

theorem query_of_serve {i : Nat} {offset next : Option UInt64} {rows : List AuditRow}
    (h : serve orders limit i offset = .ok (rows, next)) :
    query (orders i) ⟨limit, offset.getD 0⟩ = ⟨rows.map AuditRow.record, next⟩ := by
  obtain ⟨rfl, rfl⟩ := Prod.mk.inj (Except.ok.inj h)
  rfl

/-- Following `next_offset` from the first page ends, and gives every matching row once, newest
first. -/
def VisitsOnce (table : AuditTable) (collation : Collation) (filter : AuditFilter) (limit : UInt32)
    (orders : Nat → List AuditRow) : Prop :=
  ∃ pages, Traversal (serve orders limit) 0 none pages ∧
    Permitted table collation filter pages.flatten

theorem length_rows (table : AuditTable) : table.rows.length < 9223372036854775808 := by
  have hcard : (table.rows.map AuditRow.id).toFinset.card = table.rows.length := by
    rw [List.toFinset_card_of_nodup table.ids_nodup, List.length_map]
  have hsubset : (table.rows.map AuditRow.id).toFinset ⊆ Finset.Ico 1 9223372036854775808 := by
    intro id hid
    obtain ⟨row, hrow, rfl⟩ := List.mem_map.mp (List.mem_toFinset.mp hid)
    exact Finset.mem_Ico.mpr (table.ids_range row hrow)
  have hle := Finset.card_le_card hsubset
  rw [hcard, Nat.card_Ico] at hle
  omega

theorem length_matching : (table.matching collation filter).length < 9223372036854775808 :=
  Nat.lt_of_le_of_lt (List.length_filter_le _ _) (length_rows table)

/-- A page says whether it is full. -/
theorem nextOffset_eq (page : Page) (order : List AuditRow)
    (hlimit : (page.rows order).length ≤ page.limit.toNat) :
    page.nextOffset order = if (page.rows order).length = page.limit.toNat then
      some (saturatingAdd page.offset page.limit.toUInt64) else none := by
  have hbound : page.limit.toNat < 4294967296 := page.limit.toNat_lt
  have hcount : UInt64.ofNat (page.rows order).length = page.limit.toUInt64 ↔
      (page.rows order).length = page.limit.toNat := by
    rw [← UInt64.toNat_inj, UInt64.toNat_ofNat_of_lt' (by change _ < 18446744073709551616; omega),
      UInt32.toNat_toUInt64]
  unfold Page.nextOffset
  by_cases h : (page.rows order).length = page.limit.toNat
  · rw [if_pos h, if_pos (hcount.mpr h), hcount.mpr h]
  · rw [if_neg h, if_neg (mt hcount.mp h)]

section Serve

variable {n i : Nat} {offset : Option UInt64}

/-- The request at the offset of the `i`-th page gets that page, with an offset if it is full. -/
theorem serve_eq (hn : n < 9223372036854775808) (horder : (orders i).length = n)
    (hoffset : (offset.getD 0).toNat = i * limit.toNat) (hle : i * limit.toNat ≤ n) :
    serve orders limit i offset = .ok (piece (orders i) limit.toNat i,
      if (i + 1) * limit.toNat ≤ n then some (saturatingAdd (offset.getD 0) limit.toUInt64)
      else none) := by
  have hrows : (Page.mk limit (offset.getD 0)).rows (orders i) =
      piece (orders i) limit.toNat i := by
    have hi64 : offsetI64 (offset.getD 0) = i * limit.toNat := by
      rw [offsetI64, hoffset]
      omega
    simp only [Page.rows, listAudit, piece, hi64]
  have hlength : (piece (orders i) limit.toNat i).length = min limit.toNat (n - i * limit.toNat) := by
    rw [piece, List.length_take, List.length_drop, horder]
  have hfull : (piece (orders i) limit.toNat i).length = limit.toNat ↔
      (i + 1) * limit.toNat ≤ n := by
    rw [hlength, Nat.succ_mul]
    omega
  have hnext := nextOffset_eq ⟨limit, offset.getD 0⟩ (orders i)
    (by rw [hrows, hlength]; exact Nat.min_le_left _ _)
  rw [serve, hnext, hrows]
  simp only [hfull]

theorem toNat_nextOffset (hn : n < 9223372036854775808)
    (hoffset : (offset.getD 0).toNat = i * limit.toNat) (hle : (i + 1) * limit.toNat ≤ n) :
    (saturatingAdd (offset.getD 0) limit.toUInt64).toNat = (i + 1) * limit.toNat := by
  have hsize : UInt64.size = 18446744073709551616 := rfl
  rw [Nat.succ_mul] at hle ⊢
  rw [toNat_saturatingAdd, hoffset, UInt32.toNat_toUInt64]
  omega

/-- The pages, in any orders of one length. -/
theorem traversal_serve (hn : n < 9223372036854775808) (horders : ∀ i, (orders i).length = n)
    (hlimit : 0 < limit.toNat) : Traversal (serve orders limit) 0 none
      ((List.range (n / limit.toNat + 1)).map fun i => piece (orders i) limit.toNat i) := by
  have hlast : n < (n / limit.toNat + 1) * limit.toNat := by
    rw [Nat.mul_comm]
    exact Nat.lt_mul_div_succ n hlimit
  have hpages : ∀ i ≤ n / limit.toNat, i * limit.toNat ≤ n := fun i hi =>
    (Nat.le_div_iff_mul_le hlimit).mp hi
  rw [List.range_eq_range']
  refine traversal_pages (fun i offset => (offset.getD 0).toNat = i * limit.toNat) ?_ ?_
    (Nat.zero_le _) (by simp)
  · intro i offset hi hoffset
    have hserve := serve_eq hn (horders i) hoffset (hpages i (Nat.le_of_lt hi))
    rw [if_pos (hpages (i + 1) hi)] at hserve
    exact ⟨_, hserve, toNat_nextOffset hn hoffset (hpages (i + 1) hi)⟩
  · intro offset hoffset
    have hserve := serve_eq hn (horders _) hoffset (hpages _ (Nat.le_refl _))
    rwa [if_neg (Nat.not_le_of_lt hlast)] at hserve

end Serve

theorem Permitted.length (h : Permitted table collation filter order) :
    order.length = (table.matching collation filter).length :=
  h.perm.length_eq

/-- The rows that one gets, page by page. -/
theorem visitsOnce_iff (horders : ∀ i, Permitted table collation filter (orders i))
    (hlimit : 0 < limit.toNat) : VisitsOnce table collation filter limit orders ↔
      Permitted table collation filter ((List.range
        ((table.matching collation filter).length / limit.toNat + 1)).flatMap
          fun i => piece (orders i) limit.toNat i) := by
  have htraversal := traversal_serve length_matching (fun i => (horders i).length) hlimit
  rw [List.flatMap_def]
  constructor
  · rintro ⟨pages, hpages, hpermitted⟩
    rwa [hpages.unique htraversal] at hpermitted
  · exact fun hpermitted => ⟨_, htraversal, hpermitted⟩

theorem nodup_matching : (table.matching collation filter).Nodup :=
  (List.Nodup.of_map _ table.ids_nodup).filter _

/-- A page that ends within a tie may be followed by one that repeats a row. -/
theorem not_visitsOnce_of_splitsTie {k : Nat} (hlimit : 0 < limit.toNat)
    (horder : Permitted table collation filter order)
    (hsplit : SplitsTie AuditRow.ts order (k * limit.toNat)) :
    ∃ orders, (∀ i, Permitted table collation filter (orders i)) ∧
      ¬ VisitsOnce table collation filter limit orders := by
  obtain ⟨swapped, hswapped, row, hbefore, hafter⟩ := horder.exists_swapped hsplit
  have horders : ∀ i, Permitted table collation filter (if i < k then order else swapped) := by
    intro i
    split
    · exact horder
    · exact hswapped
  have hk : k * limit.toNat < order.length := by
    obtain ⟨_, _, _, _, hb, _⟩ := hsplit
    exact (List.getElem?_eq_some_iff.mp hb).1
  refine ⟨_, horders, ?_⟩
  intro hvisits
  have hpermitted := (visitsOnce_iff horders hlimit).mp hvisits
  rw [flatMap_piece_switch] at hpermitted
  · have hnodup := hpermitted.perm.nodup_iff.mpr nodup_matching
    exact List.disjoint_of_nodup_append hnodup hbefore hafter
  · rw [← horder.length]
    exact Nat.le_succ_of_le ((Nat.le_div_iff_mul_le hlimit).mpr (Nat.le_of_lt hk))
  · rw [hswapped.perm.length_eq, Nat.mul_comm]
    exact Nat.le_of_lt (Nat.lt_mul_div_succ _ hlimit)

/-- Paging visits every matching row once, in whatever orders the queries find tied rows, exactly if
no page ends between two rows of one timestamp. -/
theorem paging_visits_once_iff (hlimit : 1 ≤ limit.toNat) :
    (∀ orders : Nat → List AuditRow, (∀ i, Permitted table collation filter (orders i)) →
      VisitsOnce table collation filter limit orders) ↔
    ∀ order, Permitted table collation filter order →
      ∀ k, ¬ SplitsTie AuditRow.ts order (k * limit.toNat) := by
  constructor
  · intro hvisits order horder k hsplit
    obtain ⟨orders, horders, hnot⟩ := not_visitsOnce_of_splitsTie hlimit horder hsplit
    exact hnot (hvisits orders horders)
  · intro hsplit orders horders
    rw [visitsOnce_iff horders hlimit]
    refine (horders 0).flatMap_piece horders (hsplit _ (horders 0)) ?_
    rw [Nat.mul_comm]
    exact Nat.le_of_lt (Nat.lt_mul_div_succ _ hlimit)

end Paging

/-! Two rows of one second. -/

def tiedRow (id : Nat) : AuditRow :=
  ⟨id, ⟨100, "alice", "local", "POST", "/api/v1/users", none, 200, none, none, none⟩⟩

def tiedTable : AuditTable where
  rows := [tiedRow 1, tiedRow 2]
  ids_nodup := by decide
  ids_range := by simp [tiedRow]

def anyEvent : AuditFilter := ⟨none, none, none, none⟩

def binaryCollation : Collation := ⟨fun s t => s == t⟩

theorem permitted_tied {order : List AuditRow} (h : order.Perm [tiedRow 1, tiedRow 2]) :
    Permitted tiedTable binaryCollation anyEvent order := by
  refine ⟨h, List.pairwise_of_forall_mem_list ?_⟩
  have hts : ∀ row ∈ order, row.ts = 100 := by
    intro row hrow
    have hmem := h.mem_iff.mp hrow
    simp only [List.mem_cons, List.not_mem_nil, or_false] at hmem
    rcases hmem with rfl | rfl <;> rfl
  intro a ha b hb
  rw [hts a ha, hts b hb]

/-- The second query finds the rows the other way round. -/
def swappedOrders (i : Nat) : List AuditRow :=
  if i < 1 then [tiedRow 1, tiedRow 2] else [tiedRow 2, tiedRow 1]

theorem permitted_swapped (i : Nat) :
    Permitted tiedTable binaryCollation anyEvent (swappedOrders i) := by
  unfold swappedOrders
  split
  · exact permitted_tied (.refl _)
  · exact permitted_tied (.swap _ _ _)

/-- With pages of one row, the second query may find the first row again. -/
theorem tied_row_repeated : ∃ orders : Nat → List AuditRow,
    (∀ i, Permitted tiedTable binaryCollation anyEvent (orders i)) ∧
    Traversal (serve orders 1) 0 none [[tiedRow 1], [tiedRow 1], []] ∧
    ¬ VisitsOnce tiedTable binaryCollation anyEvent 1 orders := by
  have htraversal : Traversal (serve swappedOrders 1) 0 none [[tiedRow 1], [tiedRow 1], []] :=
    .more rfl (.more rfl (.last rfl))
  refine ⟨_, permitted_swapped, htraversal, ?_⟩
  rintro ⟨pages, hpages, hpermitted⟩
  rw [hpages.unique htraversal] at hpermitted
  have hnodup := hpermitted.perm.nodup_iff.mpr nodup_matching
  revert hnodup
  decide

/-- With pages of two rows both are visited once. -/
theorem paging_visits_once_pair :
    VisitsOnce tiedTable binaryCollation anyEvent 2 swappedOrders := by
  refine (paging_visits_once_iff (by decide)).mpr ?_ _ permitted_swapped
  rintro order horder k ⟨_, b, hpos, _, hb, _⟩
  have hlength : order.length = 2 := horder.length
  have hlt := (List.getElem?_eq_some_iff.mp hb).1
  change 0 < k * 2 at hpos
  change k * 2 < order.length at hlt
  omega

end EdgionCenter.Audit
