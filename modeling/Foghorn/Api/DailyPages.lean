import Mathlib.Data.String.Basic
import Foghorn.Api.DailyPoints
import Foghorn.Std.TiedPages

/-!
# Paging through the daily feed

A client asks for page after page by `skip`, or in id order after the last id it has seen. The
database may return points that an order does not tell apart in another order for each page.
-/

namespace Foghorn.Api

open Foghorn.Std Foghorn.Core Foghorn.Probe

/-- The points that a filter matches, whatever the page. -/
def matching (db : Db) (f : DailyFilter) : List DailyPoint :=
  ((groupBy dayKey (db.foghornQos.rows.filter fun row => f.admits (dayKey row))).map
    fun group => pointOf group.1 group.2).filter f.keeps

def DailyFilter.page (f : DailyFilter) (limit k : Nat) : DailyFilter :=
  { f with skip := k * limit, limit := limit }

/-- Pages at `skip` 0, `limit`, twice `limit` and so on, until one is short. -/
def pagesByOffset (arranged : Nat → IterOrder DailyPoint) (db : Db) (f : DailyFilter)
    (limit fuel : Nat) : Option (List DailyPoint) :=
  readUntilShort limit (fun k => dailyPoints (arranged k) db (f.page limit k)) fuel 0

def DailyFilter.after (f : DailyFilter) (limit : Nat) (id : Option String) : DailyFilter :=
  { f with idGt := id, order := .idAsc, skip := 0, limit := limit }

/-- Pages in id order, each after the last id of the page before, until one is short. -/
def pagesById (arranged : Nat → IterOrder DailyPoint) (db : Db) (f : DailyFilter) (limit : Nat) :
    Nat → Nat → Option String → Option (List DailyPoint)
  | 0, _, _ => none
  | fuel + 1, k, id =>
    let rows := dailyPoints (arranged k) db (f.after limit id)
    if rows.length < limit then some rows
    else match rows.getLast? with
      | none => some rows
      | some last => (pagesById arranged db f limit fuel (k + 1) (some last.id)).map (rows ++ ·)

section Order

/-- An order by a count, and by text where the counts are the same. -/
theorem counted_trans {lt : Nat → Nat → Prop} (trans : ∀ {x y z}, lt x y → lt y z → lt x z)
    {x y z : Nat} {a b c : String} (ab : lt x y ∨ x = y ∧ a ≤ b) (bc : lt y z ∨ y = z ∧ b ≤ c) :
    lt x z ∨ x = z ∧ a ≤ c := by
  rcases ab with first | ⟨rfl, ab⟩
  · rcases bc with second | ⟨rfl, -⟩
    · exact .inl (trans first second)
    · exact .inl first
  · exact bc.imp_right fun both => ⟨both.1, ab.trans both.2⟩

private theorem clause_trans (order : DailyOrder) (a b c : DailyPoint) (ab : order.clause a b)
    (bc : order.clause b c) : order.clause a c := by
  cases order <;> simp only [DailyOrder.clause, Bool.not_eq_true', decide_eq_false_iff_not, not_lt,
    Bool.or_eq_true, Bool.and_eq_true, decide_eq_true_eq] at ab bc ⊢
  case idAsc => exact ab.trans bc
  case idDesc => exact bc.trans ab
  case dayAsc => omega
  case dayDesc => omega
  case queryCountAsc => exact @counted_trans (· < ·) Nat.lt_trans _ _ _ _ _ _ ab bc
  case queryCountDesc =>
    exact @counted_trans (fun x y => y < x) (fun left right => Nat.lt_trans right left)
      _ _ _ _ _ _ ab bc

private theorem clause_total (order : DailyOrder) (a b : DailyPoint) :
    (order.clause a b || order.clause b a) = true := by
  rw [Bool.or_eq_true]
  have ids := le_total a.id b.id
  cases order <;> simp only [DailyOrder.clause, Bool.not_eq_true', decide_eq_false_iff_not, not_lt,
    Bool.or_eq_true, Bool.and_eq_true, decide_eq_true_eq]
  case idAsc => exact ids
  case idDesc => exact ids.symm
  case dayAsc => omega
  case dayDesc => omega
  case queryCountAsc =>
    rcases lt_trichotomy a.queryCount b.queryCount with lt | same | gt
    · exact .inl (.inl lt)
    · exact ids.imp (fun le => .inr ⟨same, le⟩) fun le => .inr ⟨same.symm, le⟩
    · exact .inr (.inl gt)
  case queryCountDesc =>
    rcases lt_trichotomy a.queryCount b.queryCount with lt | same | gt
    · exact .inr (.inl lt)
    · exact ids.imp (fun le => .inr ⟨same, le⟩) fun le => .inr ⟨same.symm, le⟩
    · exact .inl (.inl gt)

end Order

section Matching

variable {db : Db} {f : DailyFilter}

/-- A filter matches no point twice. -/
theorem matching_nodup (db : Db) (f : DailyFilter) : (matching db f).Nodup := by
  refine List.Nodup.filter _ (List.Nodup.of_map DailyPoint.key ?_)
  rw [List.map_map]
  exact groupBy_keys_nodup _ _

/-- The points of one query in the order they come. -/
def DailyOrder.sort (order : DailyOrder) (arranged : IterOrder DailyPoint)
    (points : List DailyPoint) : List DailyPoint :=
  (arranged.arrange points).mergeSort order.clause

/-- Sorting loses and adds no point, however ties are arranged. -/
theorem DailyOrder.sort_perm (order : DailyOrder) (arranged : IterOrder DailyPoint)
    (points : List DailyPoint) : (order.sort arranged points).Perm points :=
  (List.mergeSort_perm _ _).trans (arranged.perm points)

/-- Sorted points ascend in the order's own clause. -/
theorem DailyOrder.sort_pairwise (order : DailyOrder) (arranged : IterOrder DailyPoint)
    (points : List DailyPoint) :
    (order.sort arranged points).Pairwise fun a b => order.clause a b :=
  List.pairwise_mergeSort (clause_trans order) (clause_total order) _

/-- Page `k` of the query is the `k`-th slice of the sorted points. -/
theorem dailyPoints_page (arranged : IterOrder DailyPoint) (db : Db) (f : DailyFilter)
    (limit k : Nat) :
    dailyPoints arranged db (f.page limit k) =
      pageOf limit (f.order.sort arranged (matching db f)) k := rfl

end Matching

section Offset

variable {db : Db} {f : DailyFilter} {limit : Nat}

/-- The pages until the first short one, one after the other. -/
theorem pagesByOffset_eq (positive : 0 < limit) (arranged : Nat → IterOrder DailyPoint)
    (fuel : Nat) :
    pagesByOffset arranged db f limit fuel =
      if (matching db f).length / limit < fuel then
        some ((List.range ((matching db f).length / limit + 1)).flatMap fun k =>
          pageOf limit (f.order.sort (arranged k) (matching db f)) k)
      else none := by
  have lengths (k : Nat) : (dailyPoints (arranged k) db (f.page limit k)).length =
      min limit ((matching db f).length - k * limit) := by
    rw [dailyPoints_page, length_pageOf, (f.order.sort_perm _ _).length_eq]
  rw [pagesByOffset, readUntilShort_eq positive lengths _ _ (Nat.zero_le _), Nat.sub_zero,
    List.range_eq_range']
  rfl

/-- Every client by `skip` visits every matching point once, whatever the database does with
points that the order does not tell apart. -/
def VisitsOnceByOffset (db : Db) (f : DailyFilter) (limit : Nat) : Prop :=
  ∀ arranged : Nat → IterOrder DailyPoint, ∃ fuel rows,
    pagesByOffset arranged db f limit fuel = some rows ∧ rows.Perm (matching db f)

private theorem length_lt_pages (positive : 0 < limit) (length : Nat) :
    length < (length / limit + 1) * limit := by
  rw [Nat.succ_mul]
  exact Nat.lt_div_mul_add positive

/-- Where no tie crosses a page's edge, paging by offset visits every point once. -/
theorem visitsOnceByOffset_of_clean (positive : 0 < limit)
    (clean : ∀ k, ¬ TieCrosses f.order.clause (matching db f) (k * limit)) :
    VisitsOnceByOffset db f limit := by
  intro arranged
  refine ⟨(matching db f).length / limit + 1, _, ?_, flatMap_pageOf_perm_all (clause_trans f.order)
    (clause_total f.order) (fun k => f.order.sort_pairwise (arranged k) _)
    (fun k => f.order.sort_perm (arranged k) _) clean (length_lt_pages positive _).le⟩
  rw [pagesByOffset_eq positive, if_pos (Nat.lt_succ_self _)]

/-- The database that returns two neighbours the other way round. -/
def swapping (order : DailyOrder) (position : Nat) : IterOrder DailyPoint where
  arrange points := swapAt position (order.sort .asInserted points)
  perm _ := (swapAt_perm _ _).trans (order.sort_perm _ _)

/-- A tie across a page's edge can be arranged so that offset paging misses a point. -/
theorem clean_of_visitsOnceByOffset (positive : 0 < limit) (once : VisitsOnceByOffset db f limit)
    (k : Nat) : ¬ TieCrosses f.order.clause (matching db f) (k * limit) := by
  intro crosses
  have listed := f.order.sort_pairwise .asInserted (matching db f)
  have perm := f.order.sort_perm .asInserted (matching db f)
  -- From the crossed boundary on the two tied points change places.
  obtain ⟨fuel, rows, read, all⟩ := once fun page =>
    if page < k then .asInserted else swapping f.order (k * limit - 1)
  rw [pagesByOffset_eq positive] at read
  split at read
  · obtain rfl := Option.some.inj read
    have swapped : (swapAt (k * limit - 1) (f.order.sort .asInserted (matching db f))).Pairwise
        fun a b => f.order.clause a b :=
      (exists_shown_twice (clause_trans f.order) listed positive (crosses.of_perm perm.symm)).1
    have listings (page : Nat) : f.order.sort
        (if page < k then .asInserted else swapping f.order (k * limit - 1)) (matching db f) =
          if page < k then f.order.sort .asInserted (matching db f)
          else swapAt (k * limit - 1) (f.order.sort .asInserted (matching db f)) := by
      split
      · rfl
      · exact List.mergeSort_of_pairwise swapped
    simp only [listings] at all
    exact not_crosses_of_shown_once (clause_trans f.order) (matching_nodup db f) listed perm positive
      (length_lt_pages positive _) all crosses
  · cases read

end Offset

section Keyset

variable {db : Db} {f : DailyFilter} {limit : Nat}

/-- What is after the id of a matching point is what matches after it. -/
theorem matching_after_last {id : Option String} {last : DailyPoint}
    (listed : last ∈ matching db { f with idGt := id }) :
    matching db { f with idGt := some last.id } =
      (matching db { f with idGt := id }).filter fun point => last.id < point.id := by
  have reached := (List.mem_filter.mp listed).2
  rw [matching, matching, List.filter_filter]
  refine List.filter_congr fun point _ => ?_
  rw [DailyFilter.keeps, Bool.and_eq_true] at reached
  have further (later : last.id < point.id) : id.all fun id => id < point.id := by
    cases id with
    | none => rfl
    | some id =>
      have reached : id < last.id := of_decide_eq_true reached.2
      exact decide_eq_true (reached.trans later)
  simp only [DailyFilter.keeps, Option.all_some]
  by_cases later : last.id < point.id
  · rw [further later]
    simp [later]
  · simp [later]

/-- Going on after the last id is going on after the last key of the sorted matching points. -/
theorem pagesById_eq (arranged : Nat → IterOrder DailyPoint) (db : Db) (f : DailyFilter)
    (limit fuel k : Nat) (id : Option String) :
    pagesById arranged db f limit fuel k id =
      readAfter limit DailyPoint.id (fun query points => DailyOrder.idAsc.sort (arranged query) points)
        fuel k (matching db { f with idGt := id }) := by
  induction fuel generalizing k id with
  | zero => rfl
  | succ fuel ih =>
    have page : dailyPoints (arranged k) db (f.after limit id) =
        (DailyOrder.idAsc.sort (arranged k) (matching db { f with idGt := id })).take limit := rfl
    simp only [pagesById, readAfter, page]
    split
    · rfl
    · cases ends : ((DailyOrder.idAsc.sort (arranged k)
        (matching db { f with idGt := id })).take limit).getLast? with
      | none => rfl
      | some last =>
        have shown := List.mem_of_mem_take (List.mem_of_getLast? ends)
        have listed : last ∈ matching db { f with idGt := id } :=
          (DailyOrder.idAsc.sort_perm _ _).mem_iff.mp shown
        simp only [ih, matching_after_last listed]

def VisitsOnceById (db : Db) (f : DailyFilter) (limit : Nat) : Prop :=
  ∀ arranged : Nat → IterOrder DailyPoint, ∃ fuel rows,
    pagesById arranged db f limit fuel 0 f.idGt = some rows ∧ rows.Perm (matching db f)

/-- Ids tied across no page's edge make paging by `id_gt` visit every point once. -/
theorem visitsOnceById_of_clean (positive : 0 < limit)
    (clean : ∀ k, ¬ TieCrosses DailyOrder.idAsc.clause (matching db f) (k * limit)) :
    VisitsOnceById db f limit := by
  intro arranged
  obtain ⟨fuel, rows, read, all⟩ := exists_readAfter positive
    (fun query points => DailyOrder.idAsc.sort_pairwise (arranged query) points)
    (fun query points => DailyOrder.idAsc.sort_perm (arranged query) points) 0 (matching db f) clean
  exact ⟨fuel, rows, (pagesById_eq arranged db f limit fuel 0 f.idGt).trans read, all⟩

/-- Paging visits every matching point once, by `skip` and in id order also by the last id. -/
structure VisitsOnce (db : Db) (f : DailyFilter) (limit : Nat) : Prop where
  byOffset : VisitsOnceByOffset db f limit
  byId : f.order = .idAsc → VisitsOnceById db f limit

/-- Paging visits every matching point once exactly when no group of points that the order does
not tell apart lies on both sides of a boundary of two pages. -/
theorem pages_visit_once_iff (db : Db) (f : DailyFilter) (limit : Nat) (positive : 1 ≤ limit) :
    VisitsOnce db f limit ↔
      ∀ k, ¬ TieCrosses f.order.clause (matching db f) (k * limit) := by
  constructor
  · exact fun once => clean_of_visitsOnceByOffset positive once.byOffset
  · intro clean
    refine ⟨visitsOnceByOffset_of_clean positive clean, fun byId => ?_⟩
    rw [byId] at clean
    exact visitsOnceById_of_clean positive clean

end Keyset

section Distinct

variable {db : Db} {f : DailyFilter}

/-- Points that differ in their ids are told apart by every order that looks at the id. -/
theorem clause_antisymm {order : DailyOrder} (byDay : order ≠ .dayAsc ∧ order ≠ .dayDesc)
    {a b : DailyPoint} (ab : order.clause a b) (ba : order.clause b a) : a.id = b.id := by
  cases order <;> simp only [DailyOrder.clause, Bool.not_eq_true', decide_eq_false_iff_not, not_lt,
    Bool.or_eq_true, Bool.and_eq_true, decide_eq_true_eq] at ab ba
  case idAsc => exact le_antisymm ab ba
  case idDesc => exact le_antisymm ba ab
  case dayAsc => exact absurd rfl byDay.1
  case dayDesc => exact absurd rfl byDay.2
  case queryCountAsc =>
    rcases ab with lt | ⟨same, ab⟩ <;> rcases ba with lt' | ⟨same', ba⟩
    · omega
    · omega
    · omega
    · exact le_antisymm ab ba
  case queryCountDesc =>
    rcases ab with lt | ⟨same, ab⟩ <;> rcases ba with lt' | ⟨same', ba⟩
    · omega
    · omega
    · omega
    · exact le_antisymm ab ba

/-- Under such an order no two points of different ids are tied. -/
theorem not_tieCrosses_of_ids (byDay : f.order ≠ .dayAsc ∧ f.order ≠ .dayDesc)
    (ids : ((matching db f).map DailyPoint.id).Nodup) (boundary : Nat) :
    ¬ TieCrosses f.order.clause (matching db f) boundary :=
  not_tieCrosses_of_antisymm (matching_nodup db f)
    (fun _ first _ second ab ba =>
      List.inj_on_of_nodup_map ids first second (clause_antisymm byDay ab ba)) boundary

end Distinct

section Samples

/-- A bucket of an indexer on the first day. -/
def firstDayBucket (indexer : String) : QosRow where
  indexerAddress := indexer
  deploymentId := "Qm"
  bucketStart := 0
  bucketSecs := 300
  indexerUrl := none
  chainId := "42161"
  gatewayId := "foghorn"
  measure := { measureOf [] with queryCount := 5 }
  fees := .none
  computedAt := 0

/-- Two indexers of one deployment, with as many probes each. -/
def twoIndexers : Db :=
  { Db.empty with
    foghornQos := (Table.empty.insertNew (firstDayBucket "0xa")).insertNew (firstDayBucket "0xb") }

/-- Two points are tied on the day they share, and a page of one point ends between them. -/
theorem tied_day_refutes :
    ¬ ∀ (db : Db) (f : DailyFilter) (limit : Nat), 1 ≤ limit → limit ≤ 1000 →
      VisitsOnce db f limit := by
  intro always
  have once := always twoIndexers {} 1 (by decide) (by decide)
  refine clean_of_visitsOnceByOffset Nat.one_pos once.byOffset 1 ?_
  unfold TieCrosses
  decide

/-- In id order the same points are read one by one. -/
theorem id_order_reads_both : VisitsOnce twoIndexers { order := .idAsc } 1 :=
  (pages_visit_once_iff twoIndexers { order := .idAsc } 1 (by decide)).mpr fun k =>
    not_tieCrosses_of_ids ⟨by rintro ⟨⟩, by rintro ⟨⟩⟩ (by decide) (k * 1)

end Samples

end Foghorn.Api
