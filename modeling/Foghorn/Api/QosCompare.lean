import Foghorn.Std.Rollup
import Foghorn.Std.Collections
import Foghorn.Core.Tables

/-!
# Agreement with the other oracle

`qosCompare` joins what was measured with what the other oracle published and accumulates its
figures row by row. The query hands it at most 2000 rows, those that disagree most.
`covers_qosCompare_iff` says for which tables the figures are those of every pair.
-/

namespace Foghorn.Api

open Foghorn.Std Foghorn.Core

/-- `allocation_qos` as the comparison reads it: every column but the key may be null. -/
structure OracleRow where
  indexerAddress : String
  deploymentId : String
  successRate : Option ℚ
  blocksBehind : Option ℚ
  queryCount : Option Int

/-- An indexer and a deployment. -/
abbrev PairKey := String × String

def OracleRow.key (row : OracleRow) : PairKey := (row.indexerAddress, row.deploymentId)

abbrev OracleTable := Table OracleRow PairKey OracleRow.key

def pairKey (row : QosRow) : PairKey := (row.indexerAddress, row.deploymentId)

/-- One row of the query. -/
structure CompareRow where
  key : PairKey
  probes : Nat
  mineSuccessRate : Option ℚ
  mineBlocksBehind : Option ℚ
  mineCorrectnessRate : Option ℚ
  mineComparable : Nat
  oracleSuccessRate : Option ℚ
  oracleBlocksBehind : Option ℚ
  oracleQueryCount : Option Int

/-- A row of `mine`, for one group, beside the row it is joined with. -/
def compareRow (key : PairKey) (rows : List QosRow) (oracle : OracleRow) : CompareRow where
  key := key
  probes := probes
  mineSuccessRate := ratio (some num200) (some probes)
  mineBlocksBehind := average (rows.filterMap fun row => row.measure.avgIndexerBlocksBehind)
  mineCorrectnessRate := if 0 < comparable then some (1 - divergent / comparable) else none
  mineComparable := comparable
  oracleSuccessRate := oracle.successRate
  oracleBlocksBehind := oracle.blocksBehind
  oracleQueryCount := oracle.queryCount
where
  probes : Nat := (rows.map fun row => row.measure.queryCount).sum
  num200 : Nat := (rows.map fun row => row.measure.numIndexer200Responses).sum
  comparable : Nat := (rows.map fun row => row.measure.comparableCount).sum
  divergent : Nat := (rows.map fun row => row.measure.divergentCount).sum

namespace CompareRow

/-- What the rows are ordered by, the greatest first. -/
def disagreement (row : CompareRow) : ℚ :=
  |row.mineSuccessRate.getD 0 - row.oracleSuccessRate.getD 0|

def delta (row : CompareRow) : Option ℚ :=
  match row.mineSuccessRate, row.oracleSuccessRate with
  | some mine, some oracle => some (mine - oracle)
  | _, _ => none

def counted (minProbes : Int) (row : CompareRow) : Bool :=
  minProbes ≤ row.probes && row.delta.isSome

/-- The oracle is happy and we are not, on enough evidence. -/
def blind (minProbes : Int) (row : CompareRow) : Bool :=
  row.counted minProbes && minProbes ≤ row.mineComparable &&
    99 / 100 ≤ row.oracleSuccessRate.getD 0 &&
    row.mineCorrectnessRate.any fun correctness => correctness < 1

end CompareRow

/-- The rows of the window. -/
def windowBuckets (now days : Int) (db : Db) : List QosRow :=
  db.foghornQos.rows.filter fun row => now - days * 86400 * microsPerSecond ≤ row.bucketStart

/-- `mine` joined with the oracle. -/
def joinedRows (now days : Int) (db : Db) (oracle : OracleTable) : List CompareRow :=
  (groupBy pairKey (windowBuckets now days db)).filterMap fun group =>
    (oracle.lookup group.1).map (compareRow group.1 group.2)

/-- The rows that the query returns. -/
def compareRows (arranged : IterOrder CompareRow) (now days : Int) (db : Db)
    (oracle : OracleTable) :
    List CompareRow :=
  ((arranged.arrange (joinedRows now days db oracle)).mergeSort fun first second =>
    second.disagreement ≤ first.disagreement).take 2000

/-- One element of `pairs`. -/
structure PublishedPair where
  row : CompareRow
  countedInAggregate : Bool
  successRateDelta : Option ℚ
  oracleBlindSpot : Bool

/-- The variables of the loop. -/
@[ext]
structure CompareTotals where
  pairs : List PublishedPair
  absErrSum : ℚ
  absErrN : Nat
  disagree10 : Nat
  oracleBlind : Nat

def CompareTotals.start : CompareTotals := ⟨[], 0, 0, 0, 0⟩

def CompareTotals.add (minProbes : Int) (totals : CompareTotals) (row : CompareRow) :
    CompareTotals :=
  let counted := row.counted minProbes
  let blind := row.blind minProbes
  let pairs := totals.pairs ++ [⟨row, counted, row.delta, blind⟩]
  let oracleBlind := if blind then totals.oracleBlind + 1 else totals.oracleBlind
  match counted, row.delta with
  | true, some d =>
    { pairs
      absErrSum := totals.absErrSum + |d|
      absErrN := totals.absErrN + 1
      disagree10 := if 1 / 10 ≤ |d| then totals.disagree10 + 1 else totals.disagree10
      oracleBlind }
  | _, _ => { totals with pairs, oracleBlind }

structure CompareReport where
  windowDays : Int
  minProbesForAggregate : Int
  overlappingPairs : Nat
  foghornPairs : Nat
  oraclePairs : Nat
  pairsInAggregate : Nat
  meanAbsoluteSuccessRateError : Option ℚ
  pairsDisagreeingOver10pct : Nat
  oracleBlindSpots : Nat
  pairs : List PublishedPair

/-- `unwrap_or(3).clamp(1, 30)`. -/
def compareDays (days : Option Int) : Int := min (max (days.getD 3) 1) 30

/-- `unwrap_or(20).max(1)`. -/
def compareMinProbes (minProbes : Option Int) : Int := max (minProbes.getD 20) 1

/-- The report, where the query succeeds; the two counts for context are zero if they fail. -/
def qosCompare (arranged : IterOrder CompareRow) (now : Int) (countsMine countsOracle : Bool)
    (db : Db) (oracle : OracleTable) (days minProbes : Option Int) : CompareReport :=
  let windowDays := compareDays days
  let minProbes := compareMinProbes minProbes
  let rows := compareRows arranged now windowDays db oracle
  let totals := rows.foldl (CompareTotals.add minProbes) CompareTotals.start
  { windowDays
    minProbesForAggregate := minProbes
    overlappingPairs := rows.length
    foghornPairs :=
      if countsMine then countDistinct pairKey (fun _ => true) (windowBuckets now windowDays db)
        else 0
    oraclePairs := if countsOracle then oracle.rows.length else 0
    pairsInAggregate := totals.absErrN
    meanAbsoluteSuccessRateError :=
      if 0 < totals.absErrN then some (totals.absErrSum / totals.absErrN) else none
    pairsDisagreeingOver10pct := totals.disagree10
    oracleBlindSpots := totals.oracleBlind
    pairs := totals.pairs }

section EveryPair

variable (now days : Int) (db : Db) (oracle : OracleTable)

/-- The pairs that both sides have. -/
def everyPair : Finset PairKey :=
  ((windowBuckets now days db).map pairKey).toFinset.filter fun key => oracle.holds key

/-- The figures of a pair, from all of its rows. -/
def figures (key : PairKey) : CompareRow :=
  compareRow key ((windowBuckets now days db).filter fun row => pairKey row = key)
    ((oracle.lookup key).getD ⟨key.1, key.2, none, none, none⟩)

/-- The pairs with enough probes and both rates. -/
def aggregated (minProbes : Int) : Finset PairKey :=
  (everyPair now days db oracle).filter fun key =>
    (figures now days db oracle key).counted minProbes

/-- By how much the rates of a pair with both differ. -/
def CompareRow.error (row : CompareRow) : ℚ := |row.delta.getD 0|

/-- The published figures are those of every pair. -/
structure CoversEveryPair (minProbes : Int) (report : CompareReport) : Prop where
  overlapping : report.overlappingPairs = (everyPair now days db oracle).card
  aggregate : report.pairsInAggregate = (aggregated now days db oracle minProbes).card
  error : report.meanAbsoluteSuccessRateError =
    if aggregated now days db oracle minProbes = ∅ then none
    else some ((∑ key ∈ aggregated now days db oracle minProbes,
      (figures now days db oracle key).error) / (aggregated now days db oracle minProbes).card)
  disagreeing : report.pairsDisagreeingOver10pct =
    ((aggregated now days db oracle minProbes).filter fun key =>
      1 / 10 ≤ (figures now days db oracle key).error).card
  blind : report.oracleBlindSpots =
    ((everyPair now days db oracle).filter fun key =>
      (figures now days db oracle key).blind minProbes).card

end EveryPair

section Totals

variable {minProbes : Int}

/-- The errors that are averaged. -/
def errorsOf (minProbes : Int) (rows : List CompareRow) : List ℚ :=
  (rows.filter fun row => row.counted minProbes).map CompareRow.error

/-- A counted row adds its error, and a disagreement when that reaches a tenth. -/
theorem add_of_counted (totals : CompareTotals) {row : CompareRow}
    (counted : row.counted minProbes) :
    totals.add minProbes row =
      { pairs := totals.pairs ++ [⟨row, true, row.delta, row.blind minProbes⟩]
        absErrSum := totals.absErrSum + row.error
        absErrN := totals.absErrN + 1
        disagree10 := if 1 / 10 ≤ row.error then totals.disagree10 + 1 else totals.disagree10
        oracleBlind :=
          if row.blind minProbes then totals.oracleBlind + 1 else totals.oracleBlind } := by
  have both := counted
  rw [CompareRow.counted, Bool.and_eq_true] at both
  obtain ⟨d, delta⟩ := Option.isSome_iff_exists.mp both.2
  simp [CompareTotals.add, counted, delta, CompareRow.error]

/-- An uncounted row adds a pair and nothing else. -/
theorem add_of_not_counted (totals : CompareTotals) {row : CompareRow}
    (uncounted : row.counted minProbes = false) :
    totals.add minProbes row =
      { totals with pairs := totals.pairs ++ [⟨row, false, row.delta, false⟩] } := by
  simp [CompareTotals.add, uncounted, CompareRow.blind]

/-- What the loop has accumulated after some rows. -/
theorem foldl_add (rows : List CompareRow) (totals : CompareTotals) :
    rows.foldl (CompareTotals.add minProbes) totals =
      { pairs := totals.pairs ++ rows.map fun row =>
          ⟨row, row.counted minProbes, row.delta, row.blind minProbes⟩
        absErrSum := totals.absErrSum + (errorsOf minProbes rows).sum
        absErrN := totals.absErrN + (errorsOf minProbes rows).length
        disagree10 :=
          totals.disagree10 + (errorsOf minProbes rows).countP fun error => 1 / 10 ≤ error
        oracleBlind := totals.oracleBlind + rows.countP fun row => row.blind minProbes } := by
  induction rows generalizing totals with
  | nil => simp [errorsOf]
  | cons row rest ih =>
    rw [List.foldl_cons, ih]
    cases counted : row.counted minProbes with
    | true =>
      have errors : errorsOf minProbes (row :: rest) = row.error :: errorsOf minProbes rest := by
        simp [errorsOf, counted]
      rw [add_of_counted totals counted, errors]
      apply CompareTotals.ext
      · simp [counted]
      · simp only [List.sum_cons]
        ring
      · simp only [List.length_cons]
        omega
      · simp only [List.countP_cons, decide_eq_true_eq]
        split <;> omega
      · simp only [List.countP_cons]
        split <;> omega
    | false =>
      have errors : errorsOf minProbes (row :: rest) = errorsOf minProbes rest := by
        simp [errorsOf, counted]
      have blind : row.blind minProbes = false := by simp [CompareRow.blind, counted]
      rw [add_of_not_counted totals counted, errors]
      simp [counted, blind]

end Totals

section Covers

variable {now days minProbes : Int} {db : Db} {oracle : OracleTable}

/-- The pairs that both sides have, in the order of the groups. -/
def pairList (now days : Int) (db : Db) (oracle : OracleTable) : List PairKey :=
  ((windowBuckets now days db).map pairKey).dedup.filter fun key => oracle.holds key

private theorem nodup_pairList : (pairList now days db oracle).Nodup :=
  (List.nodup_dedup _).filter _

private theorem toFinset_pairList :
    (pairList now days db oracle).toFinset = everyPair now days db oracle := by
  ext key
  simp [pairList, everyPair]

/-- The query joins one row for each pair that both sides have. -/
theorem joinedRows_eq :
    joinedRows now days db oracle =
      (pairList now days db oracle).map (figures now days db oracle) := by
  rw [joinedRows, groupBy, List.filterMap_map, pairList]
  induction ((windowBuckets now days db).map pairKey).dedup with
  | nil => rfl
  | cons key rest ih =>
    rw [List.filterMap_cons, List.filter_cons, ih]
    cases found : oracle.lookup key with
    | none =>
      have missing := Table.not_holds_iff_lookup.mpr found
      simp [found, missing]
    | some row =>
      have present : oracle.holds key := by
        by_contra missing
        rw [Table.not_holds_iff_lookup.mp missing] at found
        cases found
      simp [found, present, figures]

private theorem card_everyPair :
    (everyPair now days db oracle).card = (joinedRows now days db oracle).length := by
  rw [joinedRows_eq, List.length_map, ← toFinset_pairList,
    List.toFinset_card_of_nodup nodup_pairList]

/-- Counting pairs is counting joined rows. -/
theorem card_filter_everyPair (chosen : CompareRow → Bool) :
    ((everyPair now days db oracle).filter fun key =>
        chosen (figures now days db oracle key)).card =
      (joinedRows now days db oracle).countP chosen := by
  rw [joinedRows_eq, List.countP_map, ← toFinset_pairList, ← List.toFinset_filter,
    List.toFinset_card_of_nodup (nodup_pairList.filter _), List.countP_eq_length_filter]
  rfl

/-- The errors of the counted pairs sum up as those of the joined rows. -/
theorem sum_aggregated : ∑ key ∈ aggregated now days db oracle minProbes,
      (figures now days db oracle key).error =
    (errorsOf minProbes (joinedRows now days db oracle)).sum := by
  rw [errorsOf, joinedRows_eq, List.filter_map, List.map_map, aggregated, ← toFinset_pairList,
    ← List.toFinset_filter, List.sum_toFinset _ (nodup_pairList.filter _)]
  rfl

/-- The comparison reads every overlapping pair, or 2000 of them. -/
theorem length_compareRows (arranged : IterOrder CompareRow) :
    (compareRows arranged now days db oracle).length =
      min 2000 (everyPair now days db oracle).card := by
  rw [compareRows, List.length_take, List.length_mergeSort, IterOrder.length_arrange,
    card_everyPair]

/-- Up to 2000 pairs the query returns them all. -/
theorem compareRows_perm (arranged : IterOrder CompareRow)
    (few : (everyPair now days db oracle).card ≤ 2000) :
    (compareRows arranged now days db oracle).Perm (joinedRows now days db oracle) := by
  rw [compareRows, List.take_of_length_le]
  · exact (List.mergeSort_perm _ _).trans (arranged.perm _)
  · rw [List.length_mergeSort, IterOrder.length_arrange, ← card_everyPair]
    exact few

/-- Each published figure from the rows that the query returned. -/
theorem published_qosCompare (arranged : IterOrder CompareRow) (now : Int)
    (countsMine countsOracle : Bool) (db : Db) (oracle : OracleTable)
    (days minProbes : Option Int) :
    let report := qosCompare arranged now countsMine countsOracle db oracle days minProbes
    let rows := compareRows arranged now (compareDays days) db oracle
    let errors := errorsOf (compareMinProbes minProbes) rows
    report.pairsInAggregate = errors.length ∧
      report.meanAbsoluteSuccessRateError = average errors ∧
      report.pairsDisagreeingOver10pct = errors.countP (fun error => 1 / 10 ≤ error) ∧
      report.oracleBlindSpots = rows.countP fun row => row.blind (compareMinProbes minProbes) := by
  dsimp only [qosCompare]
  simp only [foldl_add, CompareTotals.start, zero_add, true_and, and_true]
  cases errorsOf (compareMinProbes minProbes)
    (compareRows arranged now (compareDays days) db oracle) with
  | nil => rfl
  | cons error rest =>
    have some_ := List.cons_ne_nil error rest
    rw [average_of_ne some_, if_pos (List.length_pos_of_ne_nil some_)]

/-- The pairs in the aggregate are the errors of the joined rows. -/
theorem card_aggregated : (aggregated now days db oracle minProbes).card =
    (errorsOf minProbes (joinedRows now days db oracle)).length := by
  rw [aggregated, card_filter_everyPair, errorsOf, List.length_map, List.countP_eq_length_filter]

private theorem average_aggregated : average (errorsOf minProbes (joinedRows now days db oracle)) =
    if aggregated now days db oracle minProbes = ∅ then none
    else some ((∑ key ∈ aggregated now days db oracle minProbes,
      (figures now days db oracle key).error) /
        (aggregated now days db oracle minProbes).card) := by
  have empty : errorsOf minProbes (joinedRows now days db oracle) = [] ↔
      aggregated now days db oracle minProbes = ∅ := by
    rw [← Finset.card_eq_zero, card_aggregated, List.length_eq_zero_iff]
  by_cases none_ : aggregated now days db oracle minProbes = ∅
  · rw [if_pos none_, average_eq_none_iff]
    exact empty.mpr none_
  · rw [if_neg none_, average_of_ne (mt empty.mp none_), sum_aggregated, card_aggregated]

private theorem card_disagreeing : ((aggregated now days db oracle minProbes).filter fun key =>
      1 / 10 ≤ (figures now days db oracle key).error).card =
    (errorsOf minProbes (joinedRows now days db oracle)).countP fun error => 1 / 10 ≤ error := by
  rw [errorsOf, List.countP_map, List.countP_filter, ← card_filter_everyPair, aggregated,
    Finset.filter_filter]
  simp only [Function.comp_apply, Bool.and_eq_true, decide_eq_true_eq, and_comm]

/-- With at most 2000 overlapping pairs the comparison covers every one. -/
theorem covers_of_few {arranged : IterOrder CompareRow} {countsMine countsOracle : Bool}
    {days minProbes : Option Int} (few : (everyPair now (compareDays days) db oracle).card ≤ 2000) :
    CoversEveryPair now (compareDays days) db oracle (compareMinProbes minProbes)
      (qosCompare arranged now countsMine countsOracle db oracle days minProbes) := by
  have all := compareRows_perm arranged few
  have errors : (errorsOf (compareMinProbes minProbes)
      (compareRows arranged now (compareDays days) db oracle)).Perm
        (errorsOf (compareMinProbes minProbes) (joinedRows now (compareDays days) db oracle)) :=
    (all.filter _).map _
  obtain ⟨aggregate, error, disagreeing, blind⟩ :=
    published_qosCompare arranged now countsMine countsOracle db oracle days minProbes
  constructor
  · dsimp only [qosCompare]
    rw [length_compareRows]
    omega
  · rw [aggregate, card_aggregated, errors.length_eq]
  · rw [error, average_perm errors, average_aggregated]
  · rw [disagreeing, card_disagreeing, errors.countP_eq]
  · rw [blind, card_filter_everyPair, all.countP_eq]

/-- The published figures are those of every pair exactly when there are at most 2000 of them. -/
theorem covers_qosCompare_iff (arranged : IterOrder CompareRow) (now : Int)
    (countsMine countsOracle : Bool) (db : Db) (oracle : OracleTable)
    (days minProbes : Option Int) :
    CoversEveryPair now (compareDays days) db oracle (compareMinProbes minProbes)
        (qosCompare arranged now countsMine countsOracle db oracle days minProbes) ↔
      (everyPair now (compareDays days) db oracle).card ≤ 2000 := by
  constructor
  · intro covers
    have overlapping := covers.overlapping
    dsimp only [qosCompare] at overlapping
    rw [length_compareRows] at overlapping
    omega
  · intro few
    exact covers_of_few few

/-- A row that counts is ordered by its error. -/
theorem disagreement_of_counted {row : CompareRow} (counted : row.counted minProbes) :
    row.disagreement = row.error := by
  rw [CompareRow.counted, Bool.and_eq_true, CompareRow.delta] at counted
  unfold CompareRow.disagreement CompareRow.error CompareRow.delta
  cases mine : row.mineSuccessRate <;> cases published : row.oracleSuccessRate <;>
    simp [mine, published] at counted ⊢

/-- What is cut off disagrees least, so the published mean error is never too small. -/
theorem mean_error_not_understated (arranged : IterOrder CompareRow) {published whole : ℚ}
    (shown :
      average (errorsOf minProbes (compareRows arranged now days db oracle)) = some published)
    (full : average (errorsOf minProbes (joinedRows now days db oracle)) = some whole) :
    whole ≤ published := by
  let sorted := (arranged.arrange (joinedRows now days db oracle)).mergeSort fun first second =>
    second.disagreement ≤ first.disagreement
  have perm : sorted.Perm (joinedRows now days db oracle) :=
    (List.mergeSort_perm _ _).trans (arranged.perm _)
  have ordered : sorted.Pairwise fun first second => second.disagreement ≤ first.disagreement := by
    refine (List.pairwise_mergeSort ?_ ?_ _).imp fun holds => of_decide_eq_true holds
    · intro a b c first second
      exact decide_eq_true ((of_decide_eq_true second).trans (of_decide_eq_true first))
    · intro a b
      simpa using le_total b.disagreement a.disagreement
  have split : sorted.take 2000 ++ sorted.drop 2000 = sorted := List.take_append_drop 2000 sorted
  have errors :
      (errorsOf minProbes (sorted.take 2000) ++ errorsOf minProbes (sorted.drop 2000)).Perm
      (errorsOf minProbes (joinedRows now days db oracle)) := by
    rw [errorsOf, errorsOf, ← List.map_append, ← List.filter_append, split]
    exact (perm.filter _).map _
  rw [← average_perm errors] at full
  refine average_append_le ?_ shown full
  intro large inTaken small inDropped
  obtain ⟨first, taken, rfl⟩ := List.mem_map.mp inTaken
  obtain ⟨second, dropped, rfl⟩ := List.mem_map.mp inDropped
  obtain ⟨taken, firstCounted⟩ := List.mem_filter.mp taken
  obtain ⟨dropped, secondCounted⟩ := List.mem_filter.mp dropped
  rw [← disagreement_of_counted firstCounted, ← disagreement_of_counted secondCounted]
  rw [← split, List.pairwise_append] at ordered
  exact ordered.2.2 first taken second dropped

/-- The address of one of many indexers. -/
def nthIndexer (n : Nat) : String := String.ofList (List.replicate n 'a')

private theorem nthIndexer_injective : Function.Injective nthIndexer := by
  intro first second same
  have lengths := congrArg String.length same
  simpa [nthIndexer] using lengths

def probedBucket (n : Nat) : QosRow where
  indexerAddress := nthIndexer n
  deploymentId := "Qm"
  bucketStart := 0
  bucketSecs := 300
  indexerUrl := none
  chainId := "eip155:42161"
  gatewayId := "lodestar"
  measure := ⟨20, 20, 1, none, none, none, none, none, none, none, none, 0, 0, none⟩
  fees := .none
  computedAt := 0

/-- As many indexers as the number says, each probed on one deployment. -/
def probedDb (count : Nat) : Db :=
  { Db.empty with
    foghornQos :=
      { rows := (List.range count).map probedBucket
        unique := by
          rw [List.map_map]
          refine List.Nodup.map ?_ List.nodup_range
          intro first second same
          exact nthIndexer_injective (congrArg Prod.fst same) } }

/-- The other oracle has a rate for each of them. -/
def publishedTable (count : Nat) : OracleTable where
  rows := (List.range count).map fun n => ⟨nthIndexer n, "Qm", some 1, none, some 100⟩
  unique := by
    rw [List.map_map]
    refine List.Nodup.map ?_ List.nodup_range
    intro first second same
    exact nthIndexer_injective (congrArg Prod.fst same)

private theorem card_everyPair_probedDb (count : Nat) :
    (everyPair 0 3 (probedDb count) (publishedTable count)).card = count := by
  have pairs : everyPair 0 3 (probedDb count) (publishedTable count) =
      (Finset.range count).image fun n => (nthIndexer n, "Qm") := by
    ext key
    simp only [everyPair, windowBuckets, Finset.mem_filter, List.mem_toFinset, List.mem_map,
      List.mem_filter, Finset.mem_image, Finset.mem_range, Table.holds]
    constructor
    · rintro ⟨⟨_, ⟨listed, -⟩, rfl⟩, -⟩
      obtain ⟨n, below, rfl⟩ := List.mem_map.mp listed
      exact ⟨n, List.mem_range.mp below, rfl⟩
    · rintro ⟨n, below, rfl⟩
      refine ⟨⟨probedBucket n, ⟨List.mem_map_of_mem (List.mem_range.mpr below), ?_⟩, rfl⟩,
        ⟨_, List.mem_map_of_mem (List.mem_range.mpr below), rfl⟩⟩
      exact decide_eq_true (show (0 : Int) - 3 * 86400 * microsPerSecond ≤ 0 by decide)
  rw [pairs, Finset.card_image_of_injective, Finset.card_range]
  intro first second same
  exact nthIndexer_injective (congrArg Prod.fst same)

/-- Of 2001 overlapping pairs one is not counted. -/
theorem overlap_cut_off : (everyPair 0 3 (probedDb 2001) (publishedTable 2001)).card = 2001 ∧
    (qosCompare .asInserted 0 true true (probedDb 2001) (publishedTable 2001) none
      none).overlappingPairs = 2000 ∧
    ¬ CoversEveryPair 0 3 (probedDb 2001) (publishedTable 2001) 20
      (qosCompare .asInserted 0 true true (probedDb 2001) (publishedTable 2001) none none) := by
  have all := card_everyPair_probedDb 2001
  have published : (qosCompare .asInserted 0 true true (probedDb 2001) (publishedTable 2001) none
      none).overlappingPairs = 2000 := by
    dsimp only [qosCompare]
    rw [length_compareRows, show compareDays none = 3 from rfl, all]
    rfl
  refine ⟨all, published, fun covers => ?_⟩
  have overlapping := covers.overlapping
  rw [published, all] at overlapping
  omega

end Covers

end Foghorn.Api
