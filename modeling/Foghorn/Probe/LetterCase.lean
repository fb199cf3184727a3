import Foghorn.Probe.Cycle

/-!
# Addresses in more than one case

An opted-in indexer is stored as it was configured, so one indexer may be written in several
ways. `loadAllocHealth` folds the case before it groups. `loadProbeAgg` folds it after, and
`loadMeasuredLag` not at all; what is left of an indexer's rows then depends on how they are
written.
-/

namespace Foghorn.Probe

open Foghorn.Std Foghorn.Core

section Rows

variable (crates : Crates) (address : String)

/-- The evidence about an indexer, however its address is written. -/
def evidenceOf (since : Int) (db : Db) : List Evidence :=
  (evidenceSince since db).filter fun pair => crates.lowercase (whose db pair) = address

/-- The rows of an indexer, however its address is written. -/
def qosRowsOf (rows : List QosRow) : List QosRow :=
  rows.filter fun row => crates.lowercase row.indexerAddress = address

/-- The rows of a day that have a lag. -/
def lagRows (moment : Moment) : List QosRow :=
  (qosSince (moment.now - daysMicros 1) moment.db).filter fun row =>
    row.measure.avgIndexerBlocksBehind.isSome

def lagsIn (rows : List QosRow) : List ℚ :=
  rows.filterMap fun row => row.measure.avgIndexerBlocksBehind

/-- One spelling stands behind the evidence. -/
def WrittenAlike (db : Db) (evidence : List Evidence) : Prop :=
  ∀ left ∈ evidence, ∀ right ∈ evidence, whose db left = whose db right

instance (db : Db) (evidence : List Evidence) : Decidable (WrittenAlike db evidence) :=
  inferInstanceAs (Decidable (∀ left ∈ evidence, ∀ right ∈ evidence, whose db left = whose db right))

end Rows

section Counts

variable {crates : Crates} {order : IterOrder (String × List Evidence)} {since : Int} {db : Db}
  {address : String}

private theorem mem_evidenceOf {pair : Evidence} : pair ∈ evidenceOf crates address since db ↔
    pair ∈ evidenceSince since db ∧ crates.lowercase (whose db pair) = address := by
  rw [evidenceOf, List.mem_filter, decide_eq_true_iff]

private theorem filter_whose_of_mem {pair : Evidence}
    (member : pair ∈ evidenceOf crates address since db) :
    (evidenceSince since db).filter (fun other => whose db other = whose db pair) =
      (evidenceOf crates address since db).filter fun other => whose db other = whose db pair := by
  rw [evidenceOf, List.filter_filter]
  apply List.filter_congr
  intro other _
  by_cases same : whose db other = whose db pair
  · simp [same, (mem_evidenceOf.mp member).2]
  · simp [same]

/-- What the map holds for an indexer is the aggregate of one spelling. -/
theorem get_loadProbeAgg_spelling (address : String) :
    (evidenceOf crates address since db = [] ∧
      (loadProbeAgg crates order since db).get address = ProbeAgg.default) ∨
    ∃ pair ∈ evidenceOf crates address since db,
      (loadProbeAgg crates order since db).get address = aggregate db
        ((evidenceOf crates address since db).filter fun other => whose db other = whose db pair) := by
  have grouped {name : String} {group : List Evidence} :
      (name, group) ∈ order.arrange (groupBy (whose db) (evidenceSince since db)) ↔
        (∃ pair ∈ evidenceSince since db, whose db pair = name) ∧
          group = (evidenceSince since db).filter fun other => whose db other = name := by
    rw [IterOrder.mem_arrange, mem_groupBy]
  rw [AggMap.get, loadProbeAgg, lookup_mapOfPairs]
  cases last : (((order.arrange (groupBy (whose db) (evidenceSince since db))).map fun group =>
      (crates.lowercase group.1, aggregate db group.2)).filter fun pair => pair.1 = address).getLast? with
  | none =>
    refine .inl ⟨List.eq_nil_iff_forall_not_mem.mpr fun pair member => ?_, rfl⟩
    obtain ⟨present, folded⟩ := mem_evidenceOf.mp member
    rw [List.getLast?_eq_none_iff, List.filter_eq_nil_iff] at last
    exact last _ (List.mem_map_of_mem (grouped.mpr ⟨⟨pair, present, rfl⟩, rfl⟩))
      (decide_eq_true folded)
  | some kept =>
    obtain ⟨listed, folded⟩ := List.mem_filter.mp (List.mem_of_getLast? last)
    obtain ⟨⟨name, group⟩, member, rfl⟩ := List.mem_map.mp listed
    obtain ⟨⟨pair, present, rfl⟩, rfl⟩ := grouped.mp member
    have ofIndexer := mem_evidenceOf.mpr ⟨present, of_decide_eq_true folded⟩
    refine .inr ⟨pair, ofIndexer, ?_⟩
    rw [← filter_whose_of_mem ofIndexer]
    rfl

/-- All of the evidence is counted, when it is written alike. -/
theorem get_loadProbeAgg_of_writtenAlike
    (alike : WrittenAlike db (evidenceOf crates address since db)) :
    (loadProbeAgg crates order since db).get address =
      aggregate db (evidenceOf crates address since db) := by
  rcases @get_loadProbeAgg_spelling crates order since db address with ⟨nothing, got⟩ | ⟨pair, member, got⟩
  · rw [got, nothing]
    rfl
  · have whole : (evidenceOf crates address since db).filter
        (fun other => whose db other = whose db pair) = evidenceOf crates address since db :=
      List.filter_eq_self.mpr fun other listed => decide_eq_true (alike other listed pair member)
    rw [got, whole]

/-- A count of all of it says that it is. -/
theorem writtenAlike_of_total (total : ((loadProbeAgg crates order since db).get address).total =
    (evidenceOf crates address since db).length) :
    WrittenAlike db (evidenceOf crates address since db) := by
  rcases @get_loadProbeAgg_spelling crates order since db address with ⟨nothing, -⟩ | ⟨pair, member, got⟩
  · rw [nothing]
    exact fun left absent => absurd absent List.not_mem_nil
  · rw [got] at total
    have whole := List.length_filter_eq_length_iff.mp total
    intro left leftMember right rightMember
    exact (of_decide_eq_true (whole left leftMember)).trans
      (of_decide_eq_true (whole right rightMember)).symm

end Counts

section Lag

variable {crates : Crates} {address : String} {moment : Moment}

/-- The rows written in some other way than the map is asked for. -/
def spelledOtherwise (crates : Crates) (address : String) (rows : List QosRow) : List QosRow :=
  (qosRowsOf crates address rows).filter fun row => row.indexerAddress ≠ address

/-- The rows written as the map is asked for. -/
def spelledAs (address : String) (rows : List QosRow) : List QosRow :=
  rows.filter fun row => row.indexerAddress = address

/-- The map holds the mean over the rows of that very spelling. -/
theorem lookup_loadMeasuredLag :
    ((loadMeasuredLag moment.now moment.db).lookup address).map Prod.snd =
      average (lagsIn (spelledAs address (lagRows moment))) := by
  have looked := lookup_mapOfPairs_groupBy QosRow.indexerAddress (lagRows moment)
    (fun rows => average (lagsIn rows)) (List.Perm.refl _) address
  refine Eq.trans looked ?_
  change (if spelledAs address (lagRows moment) = [] then none
    else average (lagsIn (spelledAs address (lagRows moment)))) = _
  split
  · rename_i absent
    rw [absent]
    rfl
  · rfl

private theorem lagsIn_eq_nil_iff {rows : List QosRow}
    (measured : ∀ row ∈ rows, row.measure.avgIndexerBlocksBehind.isSome) :
    lagsIn rows = [] ↔ rows = [] := by
  cases rows with
  | nil => exact iff_of_true rfl rfl
  | cons row rest =>
    obtain ⟨lag, has⟩ := Option.isSome_iff_exists.mp (measured row List.mem_cons_self)
    simp [lagsIn, has]

/-- A lower-case address and its other spellings make up the rows of the indexer. -/
theorem spelled_perm (lower : crates.lowercase address = address) (rows : List QosRow) :
    (spelledAs address rows ++ spelledOtherwise crates address rows).Perm
      (qosRowsOf crates address rows) := by
  have exact_ : spelledAs address rows =
      (qosRowsOf crates address rows).filter fun row => row.indexerAddress = address := by
    rw [spelledAs, qosRowsOf, List.filter_filter]
    apply List.filter_congr
    intro row _
    by_cases same : row.indexerAddress = address
    · simp [same, lower]
    · simp [same]
  have otherwise : spelledOtherwise crates address rows = (qosRowsOf crates address rows).filter
      fun row => !decide (row.indexerAddress = address) := by
    rw [spelledOtherwise]
    exact List.filter_congr fun row _ => decide_not
  rw [exact_, otherwise]
  exact List.filter_append_perm _ _

/-- The mean over one spelling is the mean over all exactly when the others leave it as it is. -/
theorem lag_eq_iff (lower : crates.lowercase address = address) :
    ((loadMeasuredLag moment.now moment.db).lookup address).map Prod.snd =
        average (lagsIn (qosRowsOf crates address (lagRows moment))) ↔
      spelledOtherwise crates address (lagRows moment) = [] ∨
        average (lagsIn (spelledOtherwise crates address (lagRows moment))) =
          average (lagsIn (spelledAs address (lagRows moment))) := by
  have perm := (spelled_perm lower (lagRows moment)).filterMap
    fun row => row.measure.avgIndexerBlocksBehind
  rw [List.filterMap_append] at perm
  have measured : ∀ row ∈ spelledOtherwise crates address (lagRows moment),
      row.measure.avgIndexerBlocksBehind.isSome := by
    intro row member
    have listed := List.mem_of_mem_filter (List.mem_of_mem_filter member)
    exact (List.mem_filter.mp listed).2
  rw [lookup_loadMeasuredLag, ← lagsIn_eq_nil_iff measured, ← average_append_eq_iff, eq_comm]
  exact Eq.congr_left (average_perm perm.symm)

end Lag

section Health

variable {crates : Crates} {address : String} {cfg : ScoringConfig} {moment : Moment}

/-- The rows of an indexer by deployment, over the longest window. -/
def deploymentsOf (crates : Crates) (address : String) (cfg : ScoringConfig) (moment : Moment) :
    List (String × List QosRow) :=
  groupBy QosRow.deploymentId (qosRowsOf crates address
    (qosSince (moment.now - daysMicros (longestWindow cfg)) moment.db))

def measuredOf (cfg : ScoringConfig) (deployments : List (String × List QosRow)) : Nat :=
  deployments.countP fun deployment => cfg.servingMinProbes ≤ (probesOf deployment.2 : Int)

def erroringOf (cfg : ScoringConfig) (deployments : List (String × List QosRow)) : Nat :=
  deployments.countP fun deployment => cfg.servingMinProbes ≤ (probesOf deployment.2 : Int) &&
    (okOf deployment.2 / probesOf deployment.2 : ℚ) < 1 / 2

/-- The servings of a lowercased indexer are its rows by deployment. -/
theorem servings_perm_deploymentsOf
    (collation : ∀ row ∈ moment.db.foghornQos,
      crates.lower row.indexerAddress = crates.lowercase row.indexerAddress) :
    (((servings crates (qosSince (moment.now - daysMicros (longestWindow cfg)) moment.db)).filter
      fun serving => serving.1.1 = address).map fun serving => (serving.1.2, serving.2)).Perm
        (deploymentsOf crates address cfg moment) := by
  have folded : (qosSince (moment.now - daysMicros (longestWindow cfg)) moment.db).filter
      (fun row => crates.lower row.indexerAddress = address) =
      qosRowsOf crates address (qosSince (moment.now - daysMicros (longestWindow cfg)) moment.db) := by
    apply List.filter_congr
    intro row member
    rw [collation row (List.mem_of_mem_filter member)]
  rw [deploymentsOf, ← folded]
  exact groupBy_pair_perm _ _ _ _

/-- The health of an indexer counts the servings of its lowercased address. -/
theorem lookup_loadAllocHealth_servings {health : Table (String × Int × Int) String Prod.fst}
    (loaded : loadAllocHealth crates cfg moment.now moment.db = some health) :
    let own := (servings crates (qosSince (moment.now - daysMicros (longestWindow cfg))
      moment.db)).filter fun serving => serving.1.1 = address
    ((health.lookup address).map Prod.snd).getD (0, 0) =
      ((own.countP (isMeasured cfg) : Int), (own.countP (isErroring cfg) : Int)) := by
  set perDep := servings crates (qosSince (moment.now - daysMicros (longestWindow cfg)) moment.db)
    with perDepEq
  have filled : health = mapOfPairs ((groupBy (fun serving => serving.1.1) perDep).filterMap
      fun group => (some ((group.2.countP (isMeasured cfg) : Int),
        (group.2.countP (isErroring cfg) : Int))).map (Prod.mk group.1)) := by
    rw [loadAllocHealth, ← perDepEq] at loaded
    split at loaded
    · cases loaded
    · rw [← Option.some.inj loaded, ← List.filterMap_eq_map]
      rfl
  have looked := lookup_mapOfPairs_groupBy (fun serving : Serving => serving.1.1) perDep
    (fun group => some ((group.countP (isMeasured cfg) : Int),
      (group.countP (isErroring cfg) : Int))) (List.Perm.refl _) address
  rw [filled, looked]
  split
  · rename_i absent
    rw [absent]
    rfl
  · rfl

/-- The health of an indexer is over all of its rows. -/
theorem lookup_loadAllocHealth {health : Table (String × Int × Int) String Prod.fst}
    (collation : ∀ row ∈ moment.db.foghornQos,
      crates.lower row.indexerAddress = crates.lowercase row.indexerAddress)
    (loaded : loadAllocHealth crates cfg moment.now moment.db = some health) :
    ((health.lookup address).map Prod.snd).getD (0, 0) =
      ((measuredOf cfg (deploymentsOf crates address cfg moment) : Int),
        (erroringOf cfg (deploymentsOf crates address cfg moment) : Int)) := by
  have perm := @servings_perm_deploymentsOf crates address cfg moment collation
  rw [lookup_loadAllocHealth_servings loaded, measuredOf, erroringOf, ← perm.countP_eq,
    ← perm.countP_eq, List.countP_map, List.countP_map]
  rfl

end Health

section Inputs

variable (crates : Crates) (cycle : ScoreCycle) (evaluation : Evaluation)

/-- The evidence about an evaluated indexer in the window. -/
def ScoreCycle.windowEvidence : List Evidence :=
  evidenceOf crates evaluation.address
    ((cycle.windowAt evaluation.position).now - daysMicros evaluation.window)
    (cycle.windowAt evaluation.position).db

/-- The evidence about an evaluated indexer in the last six hours. -/
def ScoreCycle.recentEvidence : List Evidence :=
  evidenceOf crates evaluation.address (cycle.recentAt.now - 6 * 3600 * microsPerSecond)
    cycle.recentAt.db

/-- Everything stored about an indexer enters what it is judged by, however it is written. -/
structure IgnoresCase : Prop where
  total : (cycle.inputs crates evaluation).totalObservations =
    (cycle.windowEvidence crates evaluation).length
  errors : (cycle.inputs crates evaluation).errorObservations =
    (cycle.windowEvidence crates evaluation).countP isError
  answered : (cycle.inputs crates evaluation).probesAnswered =
    (aggregate (cycle.windowAt evaluation.position).db
      (cycle.windowEvidence crates evaluation)).probesAnswered
  faults : (cycle.inputs crates evaluation).correctnessFaults =
    (aggregate (cycle.windowAt evaluation.position).db
      (cycle.windowEvidence crates evaluation)).faults
  recentTotal : (cycle.inputs crates evaluation).recentObservations =
    (cycle.recentEvidence crates evaluation).length
  recentErrors : (cycle.inputs crates evaluation).recentErrors =
    (cycle.recentEvidence crates evaluation).countP isError
  recentFaults : (cycle.inputs crates evaluation).recentFaults =
    (aggregate cycle.recentAt.db (cycle.recentEvidence crates evaluation)).faults
  lag : (cycle.inputs crates evaluation).measuredBlocksBehind =
    average (lagsIn (qosRowsOf crates evaluation.address (lagRows cycle.lagAt)))
  measured : (cycle.inputs crates evaluation).qosDeploymentsMeasured =
    measuredOf cycle.cfg (deploymentsOf crates evaluation.address cycle.cfg cycle.healthAt)
  erroring : (cycle.inputs crates evaluation).qosDeploymentsErroring =
    erroringOf cycle.cfg (deploymentsOf crates evaluation.address cycle.cfg cycle.healthAt)

/-- The evidence of each window is written in one way, and rows written otherwise than in lower
case have no lag or the same mean lag. -/
structure OneSpelling : Prop where
  window : WrittenAlike (cycle.windowAt evaluation.position).db (cycle.windowEvidence crates evaluation)
  recent : WrittenAlike cycle.recentAt.db (cycle.recentEvidence crates evaluation)
  lag : spelledOtherwise crates evaluation.address (lagRows cycle.lagAt) = [] ∨
    average (lagsIn (spelledOtherwise crates evaluation.address (lagRows cycle.lagAt))) =
      average (lagsIn (spelledAs evaluation.address (lagRows cycle.lagAt)))

variable {crates cycle evaluation}

/-- The inputs count everything about an indexer exactly when it is written in one way. -/
theorem ignoresCase_iff (lower : crates.lowercase evaluation.address = evaluation.address)
    (collation : ∀ row ∈ cycle.healthAt.db.foghornQos,
      crates.lower row.indexerAddress = crates.lowercase row.indexerAddress)
    (loaded : (cycle.allocHealth crates).isSome) :
    IgnoresCase crates cycle evaluation ↔ OneSpelling crates cycle evaluation := by
  obtain ⟨health, loaded⟩ := Option.isSome_iff_exists.mp loaded
  have lag : (cycle.inputs crates evaluation).measuredBlocksBehind =
      ((loadMeasuredLag cycle.lagAt.now cycle.lagAt.db).lookup evaluation.address).map Prod.snd := rfl
  constructor
  · intro ignores
    refine ⟨writtenAlike_of_total (Int.ofNat.inj ignores.total),
      writtenAlike_of_total (Int.ofNat.inj ignores.recentTotal), ?_⟩
    exact (lag_eq_iff lower).mp (lag.symm.trans ignores.lag)
  · intro spelling
    have window := @get_loadProbeAgg_of_writtenAlike crates (cycle.aggOrder evaluation.position) _ _ _
      spelling.window
    have recent := @get_loadProbeAgg_of_writtenAlike crates cycle.recentOrder _ _ _ spelling.recent
    have entry : (cycle.allocHealth crates).getD Table.empty = health := by
      rw [loaded]
      rfl
    have counted := @lookup_loadAllocHealth crates evaluation.address cycle.cfg cycle.healthAt _
      collation loaded
    rw [← entry] at counted
    exact {
      total := congrArg (fun agg => (agg.total : Int)) window
      errors := congrArg (fun agg => (agg.errors : Int)) window
      answered := congrArg (fun agg => (agg.probesAnswered : Int)) window
      faults := congrArg (fun agg => (agg.faults : Int)) window
      recentTotal := congrArg (fun agg => (agg.total : Int)) recent
      recentErrors := congrArg (fun agg => (agg.errors : Int)) recent
      recentFaults := congrArg (fun agg => (agg.faults : Int)) recent
      lag := lag.trans ((lag_eq_iff lower).mpr spelling.lag)
      measured := congrArg Prod.fst counted
      erroring := congrArg Prod.snd counted }

/-- Two answers of an indexer that opted in under a checksummed address: one was paid for, one
came through the gateway. -/
def mixedCaseDb : Db :=
  { Db.empty with
    probe := ⟨[⟨1, "Qm", "0x00", 7, "q", "Q_byid", "", 0⟩, ⟨2, "Qm", "0x01", 8, "q", "Q_byid", "", 0⟩],
      by decide⟩
    observation := ⟨[⟨1, "0xA", some "hash", some 10, none, none, some 200, none, .exact 1, .paid,
        none, none, none⟩,
      ⟨2, "0xkey", none, some 10, none, none, some 500, some "http_5xx", .exact 1, .gateway,
        none, none, none⟩], by decide⟩
    allocationMap := Table.empty.insertNew ⟨"0xkey", some "0xa", none, 0⟩ }

def mixedCaseCycle : ScoreCycle :=
  .undisturbed ScoringConfig.default (some Table.empty) ⟨daysMicros 1, mixedCaseDb, Table.empty⟩

/-- A day later the grade of that indexer rests on the failed answer alone. -/
theorem mixed_case_overwrites :
    ((mixedCaseCycle.inputs (Crates.knowing [] []) ⟨"0xa", 7, 0⟩).totalObservations,
      (mixedCaseCycle.inputs (Crates.knowing [] []) ⟨"0xa", 7, 0⟩).errorObservations) = (1, 1) ∧
    ¬ ∀ (crates : Crates) (cycle : ScoreCycle) (evaluation : Evaluation),
      crates.lowercase evaluation.address = evaluation.address →
      (∀ row ∈ cycle.healthAt.db.foghornQos,
        crates.lower row.indexerAddress = crates.lowercase row.indexerAddress) →
      (cycle.allocHealth crates).isSome → IgnoresCase crates cycle evaluation := by
  have one : (mixedCaseCycle.inputs (Crates.knowing [] []) ⟨"0xa", 7, 0⟩).totalObservations = 1 := by
    decide
  have two : (mixedCaseCycle.windowEvidence (Crates.knowing [] []) ⟨"0xa", 7, 0⟩).length = 2 := by
    decide
  refine ⟨by decide, fun always => ?_⟩
  have ignores := always (Crates.knowing [] []) mixedCaseCycle ⟨"0xa", 7, 0⟩ (by decide)
    (fun row absent => absurd absent (Table.not_mem_empty row)) (by decide)
  have total := ignores.total
  rw [one, two] at total
  exact absurd total (by decide)

/-- A bucket whose answers were two blocks behind in the mean. -/
def laggingRow (indexer deployment : String) : QosRow where
  indexerAddress := indexer
  deploymentId := deployment
  bucketStart := 0
  bucketSecs := 300
  indexerUrl := none
  chainId := "arbitrum-one"
  gatewayId := "lodestar"
  measure := ⟨10, 9, 9 / 10, none, none, none, none, none, none, some 2, some 3, 0, 0, none⟩
  fees := QosFees.none
  computedAt := 0

/-- The same answers written in lower case, a third under an allocation, and two deployments of
which one was rolled up under the checksummed address. -/
def lowerCaseDb : Db :=
  { mixedCaseDb with
    observation := ⟨[⟨1, "0xa", some "hash", some 10, none, none, some 200, none, .exact 1, .paid,
        none, none, none⟩,
      ⟨2, "0xkey", none, some 10, none, none, some 500, some "http_5xx", .exact 1, .gateway,
        none, none, none⟩,
      ⟨1, "0xkey", some "hash", some 12, none, none, some 200, none, .exact 1, .gateway,
        none, none, none⟩], by decide⟩
    foghornQos := ⟨[laggingRow "0xa" "Qm", laggingRow "0xA" "Qn"], by decide⟩ }

/-- Every answer counts, and the mean lag is that of all rows. -/
theorem lower_case_ignoresCase :
    IgnoresCase (Crates.knowing [] [])
      (.undisturbed ScoringConfig.default (some Table.empty) ⟨daysMicros 1, lowerCaseDb, Table.empty⟩)
      ⟨"0xa", 7, 0⟩ := by
  refine (ignoresCase_iff (by decide) (fun row stored => ?_) (by decide)).mpr ?_
  · rcases List.mem_cons.mp (Table.mem_rows.mpr stored) with rfl | other
    · decide
    · obtain rfl := List.mem_singleton.mp other
      decide
  · exact ⟨by decide +kernel, by decide +kernel, .inr (by decide +kernel)⟩

end Inputs

end Foghorn.Probe
