import Foghorn.Probe.LetterCase
import Foghorn.Probe.Roster

/-!
# What is broken, told three times

The grade of an indexer counts its erroring deployments, the items of the per-deployment check
name them, and the line of the alerter reports them. All three follow from what one query reads,
and there are two queries; they tell the same when both read the same rows.
-/

namespace Foghorn.Probe

open Foghorn.Std Foghorn.Core

section Counting

variable {crates : Crates} {cfg : ScoringConfig}

/-- The erroring deployments of a lowercased indexer. -/
def erroringCount (crates : Crates) (cfg : ScoringConfig) (rows : List QosRow) (address : String) :
    Nat :=
  ((servings crates rows).filter fun serving => serving.1.1 = address).countP (isErroring cfg)

private theorem probesOf_perm {rows rows' : List QosRow} (perm : rows.Perm rows') :
    probesOf rows = probesOf rows' := (perm.map _).sum_eq

private theorem okOf_perm {rows rows' : List QosRow} (perm : rows.Perm rows') :
    okOf rows = okOf rows' :=
  (perm.map _).sum_eq

private theorem erroringCount_perm {rows rows' : List QosRow} (perm : rows.Perm rows')
    (address : String) :
    erroringCount crates cfg rows address = erroringCount crates cfg rows' address := by
  rw [erroringCount, erroringCount, List.countP_filter, List.countP_filter]
  refine countP_groupBy_perm (fun name group group' same => ?_) perm
  rw [isErroring, isErroring, isMeasured, isMeasured, successRate, successRate, probesOf_perm same,
    okOf_perm same]

/-- With a floor of at least one probe nothing is divided by zero. -/
theorem dividesByZero_eq_false (probed : 1 ≤ cfg.servingMinProbes) (groups : List Serving) :
    dividesByZero cfg groups = false := by
  rw [dividesByZero, List.any_eq_false]
  intro serving _ both
  rw [Bool.and_eq_true, isMeasured, decide_eq_true_iff, decide_eq_true_iff] at both
  omega

end Counting

section Fed

variable {crates : Crates} {cycle : ScoreCycle} {address : String}

/-- The rows that the grade is computed from. -/
def ScoreCycle.healthRows (cycle : ScoreCycle) : List QosRow :=
  qosSince (cycle.healthAt.now - daysMicros (longestWindow cycle.cfg)) cycle.healthAt.db

/-- The rows that the check of serving errors reads. -/
def ScoreCycle.servingRows (cycle : ScoreCycle) : List QosRow :=
  qosSince (cycle.servingAt.now - daysMicros (longestWindow cycle.cfg)) cycle.servingAt.db

/-- With at least one probe asked for, the health query has an answer. -/
theorem allocHealth_isSome (probed : 1 ≤ cycle.cfg.servingMinProbes) :
    (cycle.allocHealth crates).isSome := by
  rw [ScoreCycle.allocHealth, loadAllocHealth, dividesByZero_eq_false probed]
  rfl

/-- The count that enters the grade, in any window. -/
theorem fed_erroring (probed : 1 ≤ cycle.cfg.servingMinProbes) {evaluation : Evaluation} :
    (cycle.inputs crates evaluation).qosDeploymentsErroring =
      erroringCount crates cycle.cfg cycle.healthRows evaluation.address := by
  obtain ⟨health, loaded⟩ := Option.isSome_iff_exists.mp (@allocHealth_isSome crates cycle probed)
  have entry : (cycle.allocHealth crates).getD Table.empty = health := by
    rw [loaded]
    rfl
  have counted := congrArg Prod.snd
    (@lookup_loadAllocHealth_servings crates evaluation.address cycle.cfg cycle.healthAt _ loaded)
  rw [← entry] at counted
  exact counted

end Fed

section Named

/-- The one item for an indexer that fails on many deployments. -/
def isRolledUp (address : String) (item : AttentionItem) : Bool :=
  item.indexerAddress = address && item.kind = "serving-errors"

def isPerDeployment (address : String) (item : AttentionItem) : Bool :=
  item.indexerAddress = address && item.kind = "serving-errors-deployment"

/-- The items name so many deployments of an indexer: in one item from the threshold on, below it
in one item for each, and never in both ways. -/
structure NamesDeployments (items : List AttentionItem) (address : String) (n : Nat) : Prop where
  rolledUp : rollupThreshold ≤ n →
    items.filter (isPerDeployment address) = [] ∧
    ∃ item, items.filter (isRolledUp address) = [item] ∧
      item.detail.get "deployment_count" = some (.ofInt n)
  single : n < rollupThreshold →
    items.filter (isRolledUp address) = [] ∧ (items.filter (isPerDeployment address)).length = n

/-- An item about serving errors of an indexer. -/
def isServingError (address : String) (item : AttentionItem) : Bool :=
  isRolledUp address item || isPerDeployment address item

variable {crates : Crates} {cfg : ScoringConfig} {orders : IssueOrders} {now : Int} {db : Db}
  {address : String}

/-- The rows of an indexer that the check pushed into one entry. -/
def errorsOf (rows : List ServingErrorRow) (address : String) : List ServingErrorRow :=
  rows.filter fun row => row.indexerAddress = address

private theorem address_of_mem_servingErrorItems {entry : String × List ServingErrorRow}
    {item : AttentionItem} (member : item ∈ servingErrorItems entry) :
    item.indexerAddress = entry.1 := by
  unfold servingErrorItems at member
  dsimp only at member
  split at member
  · rw [List.mem_singleton.mp member]
  · obtain ⟨row, _, rfl⟩ := List.mem_map.mp member
    rfl

private theorem valuesAt_errors (rows : List ServingErrorRow) (address : String) :
    valuesAt (rows.map fun row => (row.indexerAddress, row)) address = errorsOf rows address := by
  rw [valuesAt, List.filter_map, List.map_map]
  exact List.map_id _

/-- What is collected for an address is what its entry gives, which is nothing for no rows. -/
theorem filter_servingErrors (rows : List ServingErrorRow) {counted : AttentionItem → Bool}
    (about : ∀ item, counted item → item.indexerAddress = address) :
    ((orders.erroringIndexers.arrange
        (pushAll (rows.map fun row => (row.indexerAddress, row))).rows).flatMap
      servingErrorItems).filter counted =
        (servingErrorItems (address, errorsOf rows address)).filter counted := by
  have elsewhere (entry : String × List ServingErrorRow) (other : entry.1 ≠ address) :
      (servingErrorItems entry).filter counted = [] := by
    rw [List.filter_eq_nil_iff]
    intro item member hit
    exact other ((address_of_mem_servingErrorItems member).symm.trans (about item hit))
  rw [List.filter_flatMap]
  by_cases absent : errorsOf rows address = []
  · rw [absent]
    refine List.flatMap_eq_nil_iff.mpr fun entry member => elsewhere entry fun same => ?_
    rw [IterOrder.mem_arrange] at member
    obtain ⟨values, some_⟩ := (mem_pushAll _ entry.1 entry.2).mp member
    exact some_ (values.trans ((valuesAt_errors rows entry.1).trans (same ▸ absent)))
  · have distinct : ((orders.erroringIndexers.arrange
        (pushAll (rows.map fun row => (row.indexerAddress, row))).rows).map Prod.fst).Nodup :=
      (((orders.erroringIndexers.perm _).map Prod.fst).nodup_iff).mpr (pushAll _).unique
    have listed : (address, errorsOf rows address) ∈ orders.erroringIndexers.arrange
        (pushAll (rows.map fun row => (row.indexerAddress, row))).rows := by
      rw [IterOrder.mem_arrange]
      exact (mem_pushAll _ _ _).mpr ⟨(valuesAt_errors rows address).symm, absent⟩
    exact flatMap_eq_of_key distinct listed fun entry _ other => elsewhere entry other

private theorem NamesDeployments.of_filters {items others : List AttentionItem} {n : Nat}
    (names : NamesDeployments others address n)
    (rolled : items.filter (isRolledUp address) = others.filter (isRolledUp address))
    (single : items.filter (isPerDeployment address) = others.filter (isPerDeployment address)) :
    NamesDeployments items address n := by
  constructor
  · rw [rolled, single]
    exact names.rolledUp
  · rw [rolled, single]
    exact names.single

/-- The items of one entry name its deployments. -/
theorem namesDeployments_entry (address : String) (deps : List ServingErrorRow) :
    NamesDeployments (servingErrorItems (address, deps)) address deps.length := by
  constructor
  · intro many
    rw [servingErrorItems, if_pos many]
    refine ⟨by simp [isPerDeployment], _, List.filter_eq_self.mpr ?_, ?_⟩
    · simp [isRolledUp]
    · simp [Json.get]
  · intro few
    rw [servingErrorItems, if_neg (Nat.not_le.mpr few)]
    constructor
    · simp [isRolledUp, List.filter_eq_nil_iff]
    · rw [List.filter_eq_self.mpr]
      · exact List.length_map _
      · intro item member
        obtain ⟨row, _, rfl⟩ := List.mem_map.mp member
        simp [isPerDeployment]

/-- The rows of an indexer are its erroring servings. -/
theorem length_errorsOf {rows : List ServingErrorRow}
    (read : servingErrorRows crates cfg orders now db = some rows) :
    (errorsOf rows address).length = erroringCount crates cfg
      (qosSince (now - daysMicros (longestWindow cfg)) db) address := by
  unfold servingErrorRows at read
  dsimp only at read
  split at read
  · cases read
  · obtain rfl := Option.some.inj read
    rw [errorsOf, ((List.mergeSort_perm _ _).filter _).length_eq, List.filter_map, List.length_map,
      List.filter_filter, erroringCount, List.countP_filter, ← List.countP_eq_length_filter,
      (orders.servings.perm _).countP_eq]
    apply List.countP_congr
    intro serving _
    rw [Bool.and_comm]
    rfl

/-- Each erroring deployment of an indexer is read once. -/
theorem nodup_deployments {rows : List ServingErrorRow}
    (read : servingErrorRows crates cfg orders now db = some rows) (address : String) :
    ((errorsOf rows address).map ServingErrorRow.deploymentId).Nodup := by
  have keyed : (rows.map fun row => (row.indexerAddress, row.deploymentId)).Nodup := by
    unfold servingErrorRows at read
    dsimp only at read
    split at read
    · cases read
    · obtain rfl := Option.some.inj read
      rw [((List.mergeSort_perm _ _).map _).nodup_iff, List.map_map]
      have servings_nodup := groupBy_keys_nodup
        (fun row : QosRow => (crates.lower row.indexerAddress, row.deploymentId))
        (qosSince (now - daysMicros (longestWindow cfg)) db)
      refine List.Nodup.sublist (List.filter_sublist.map Prod.fst) ?_
      exact ((orders.servings.perm _).map Prod.fst).nodup_iff.mpr servings_nodup
  have own : ((errorsOf rows address).map fun row => (row.indexerAddress, row.deploymentId)).Nodup :=
    keyed.sublist (List.filter_sublist.map _)
  have sameFirst : (errorsOf rows address).map (fun row => (row.indexerAddress, row.deploymentId)) =
      ((errorsOf rows address).map ServingErrorRow.deploymentId).map (Prod.mk address) := by
    rw [List.map_map]
    refine List.map_congr_left fun row member => ?_
    rw [of_decide_eq_true (List.mem_filter.mp member).2]
    rfl
  rw [sameFirst] at own
  exact own.of_map _

/-- The items of an indexer have keys of their own. -/
theorem nodup_keys_entry {deps : List ServingErrorRow} (address : String)
    (distinct : (deps.map ServingErrorRow.deploymentId).Nodup) :
    ((servingErrorItems (address, deps)).map AttentionItem.key).Nodup := by
  unfold servingErrorItems
  dsimp only
  split
  · exact List.nodup_singleton _
  · rw [List.map_map]
    refine List.Nodup.of_map (fun key => key.2.2) ?_
    rw [List.map_map]
    exact distinct

private theorem kind_of_mem_behindItems {entry : String × List BehindRow} {item : AttentionItem}
    (member : item ∈ behindItems entry) :
    item.kind = "behind-deployments" ∨ item.kind = "behind-deployment" := by
  unfold behindItems at member
  dsimp only at member
  split at member
  · exact .inl (by rw [List.mem_singleton.mp member])
  · obtain ⟨row, _, rfl⟩ := List.mem_map.mp member
    exact .inr rfl

private theorem isServingError_iff {item : AttentionItem} : isServingError address item ↔
    item.indexerAddress = address ∧
      (item.kind = "serving-errors" ∨ item.kind = "serving-errors-deployment") := by
  rw [isServingError, isRolledUp, isPerDeployment, ← Bool.and_or_distrib_left, Bool.and_eq_true,
    Bool.or_eq_true, decide_eq_true_iff, decide_eq_true_iff, decide_eq_true_iff]

/-- Nothing that the check of lags writes is about serving errors. -/
theorem not_isServingError_behind {item : AttentionItem}
    (member : item ∈ behindDeployments crates cfg orders now db) : ¬ isServingError address item := by
  obtain ⟨entry, _, written⟩ := List.mem_flatMap.mp member
  rw [isServingError_iff]
  rintro ⟨-, kind⟩
  rcases kind_of_mem_behindItems written with behind | behind
  · rw [behind] at kind
    exact absurd kind (by decide)
  · rw [behind] at kind
    exact absurd kind (by decide)

end Named

section Cycle

variable {crates : Crates} {cycle : ScoreCycle} {address : String}

/-- The check, when nothing stops it. -/
theorem exists_issues (probed : 1 ≤ cycle.cfg.servingMinProbes) (checked : cycle.issuesStop = none) :
    ∃ rows, servingErrorRows crates cycle.cfg cycle.issueOrders cycle.servingAt.now
        cycle.servingAt.db = some rows ∧
      (cycle.issues crates).1 = (cycle.issueOrders.erroringIndexers.arrange
          (pushAll (rows.map fun row => (row.indexerAddress, row))).rows).flatMap servingErrorItems ++
        behindDeployments crates cycle.cfg cycle.issueOrders cycle.behindAt.now cycle.behindAt.db := by
  have sound (groups : List Serving) := dividesByZero_eq_false probed groups
  obtain ⟨rows, read⟩ : ∃ rows, servingErrorRows crates cycle.cfg cycle.issueOrders
      cycle.servingAt.now cycle.servingAt.db = some rows := by
    unfold servingErrorRows
    dsimp only
    rw [sound]
    exact ⟨_, rfl⟩
  refine ⟨rows, read, ?_⟩
  rw [ScoreCycle.issues, servingErrors, read, checked]
  rfl

/-- What the check says of the serving errors of an indexer is the entry of the indexer. -/
theorem filter_issues {rows : List ServingErrorRow} {items : List AttentionItem}
    {counted : AttentionItem → Bool} (about : ∀ item, counted item → isServingError address item)
    (split : items = (cycle.issueOrders.erroringIndexers.arrange
        (pushAll (rows.map fun row => (row.indexerAddress, row))).rows).flatMap servingErrorItems ++
      behindDeployments crates cycle.cfg cycle.issueOrders cycle.behindAt.now cycle.behindAt.db) :
    items.filter counted = (servingErrorItems (address, errorsOf rows address)).filter counted := by
  have behind : (behindDeployments crates cycle.cfg cycle.issueOrders cycle.behindAt.now
      cycle.behindAt.db).filter counted = [] := by
    rw [List.filter_eq_nil_iff]
    exact fun item member hit => not_isServingError_behind member (about item hit)
  rw [split, List.filter_append, behind, List.append_nil]
  exact filter_servingErrors rows fun item hit => (isServingError_iff.mp (about item hit)).1

/-- The judgements say nothing about serving errors by deployment. -/
theorem filter_attention : (cycle.attention crates).filter (isServingError address) =
    (cycle.issues crates).1.filter (isServingError address) := by
  have judged : (cycle.judgedItems crates).filter (isServingError address) = [] := by
    rw [List.filter_eq_nil_iff]
    intro item member hit
    obtain ⟨evaluation, _, emitted⟩ := ScoreCycle.exists_of_mem_judgedItems member
    have kind := (isServingError_iff.mp hit).2
    rcases (mem_attention_judge emitted).1 with other | other | other
    · rw [other] at kind
      exact absurd kind (by decide)
    · rw [other] at kind
      exact absurd kind (by decide)
    · rw [other] at kind
      exact absurd kind (by decide)
  rw [ScoreCycle.attention, List.filter_append, judged, List.nil_append]

end Cycle

section Reported

variable {address : String} {deps : List ServingErrorRow}

private theorem isServingError_entry {item : AttentionItem}
    (member : item ∈ servingErrorItems (address, deps)) :
    isServingError address item ∧ item.severity = .critical := by
  rw [isServingError_iff]
  unfold servingErrorItems at member
  dsimp only at member
  split at member
  · rw [List.mem_singleton.mp member]
    exact ⟨⟨rfl, .inl rfl⟩, rfl⟩
  · obtain ⟨row, _, rfl⟩ := List.mem_map.mp member
    exact ⟨⟨rfl, .inr rfl⟩, rfl⟩

private theorem isAbout_servingErrors {item : AttentionItem} :
    (AttentionRow.ofItem item).isAbout .servingErrors ↔
      item.kind = "serving-errors" ∨ item.kind = "serving-errors-deployment" := by
  rw [AttentionRow.isAbout, decide_eq_true_iff]
  change Issue.ofKind item.kind = some .servingErrors ↔ _
  constructor
  · intro about
    unfold Issue.ofKind at about
    split at about
    all_goals first
      | exact .inl ‹_›
      | exact .inr ‹_›
      | cases about
  · rintro (kind | kind)
    · rw [kind]
      rfl
    · rw [kind]
      rfl

/-- A rolled-up item counts its deployments, the others one each. -/
theorem affected_entry (fits : deps.length < 2 ^ 63) :
    (((servingErrorItems (address, deps)).map AttentionRow.ofItem).map AttentionRow.affected).sum =
      deps.length := by
  unfold servingErrorItems
  dsimp only
  split
  · have count : (Json.ofInt (deps.length : Int)).asI64 = some (deps.length : Int) := by
      rw [Json.ofInt, if_neg (by omega), Json.asI64, Int.toNat_natCast, if_pos fits]
    simp [AttentionRow.ofItem, AttentionRow.affected, AttentionRow.depCount, Json.get, count]
  · simp [AttentionRow.ofItem, AttentionRow.affected, Function.comp_def]

variable {findings : List AttentionItem}
  {before after : SeenTable AttentionItem (String × String × String) AttentionItem.key}

/-- The table holds the items of the entry, each once. -/
theorem findings_perm_entry (held : SeenTable.HoldsExactly findings before after)
    (reported : findings.filter (isServingError address) = servingErrorItems (address, deps))
    (distinct : ((servingErrorItems (address, deps)).map AttentionItem.key).Nodup) :
    ((after.rows.map Seen.finding).filter (isServingError address)).Perm
      (servingErrorItems (address, deps)) := by
  have keys : ((after.rows.map Seen.finding).map AttentionItem.key).Nodup := by
    rw [List.map_map]
    exact after.unique
  refine (List.perm_ext_iff_of_nodup (keys.of_map _ |>.filter _) (distinct.of_map _)).mpr ?_
  intro item
  constructor
  · intro member
    obtain ⟨stored, about⟩ := List.mem_filter.mp member
    obtain ⟨row, listed, rfl⟩ := List.mem_map.mp stored
    rw [← reported]
    exact List.mem_filter.mpr ⟨held.mem listed, about⟩
  · intro member
    have about := (isServingError_entry member).1
    have found : item ∈ findings := by
      rw [← reported] at member
      exact (List.mem_filter.mp member).1
    obtain ⟨last, lastFound⟩ : ∃ last, lastUnder AttentionItem.key item.key findings = some last :=
      exists_lastUnder found
    have current := held.current item.key
    rw [lastFound] at current
    obtain ⟨row, looked, rfl⟩ := Option.map_eq_some_iff.mp current
    obtain ⟨lastListed, sameKey⟩ := mem_of_lastUnder lastFound
    -- The last finding of that key is about the same, so it is the item of the entry.
    have lastMember : row.finding ∈ servingErrorItems (address, deps) := by
      rw [← reported]
      refine List.mem_filter.mpr ⟨lastListed, isServingError_iff.mpr ?_⟩
      obtain ⟨owner, kind⟩ := isServingError_iff.mp about
      obtain ⟨sameOwner, rest⟩ := Prod.mk.inj sameKey
      obtain ⟨sameKind, -⟩ := Prod.mk.inj rest
      rw [sameOwner, sameKind]
      exact ⟨owner, kind⟩
    obtain rfl := List.inj_on_of_nodup_map distinct lastMember member sameKey
    exact List.mem_filter.mpr ⟨List.mem_map_of_mem (Table.mem_of_lookup looked), about⟩

/-- The rows about serving errors of an indexer are the items of its entry. -/
theorem total_alerting (held : SeenTable.HoldsExactly findings before after)
    (reported : findings.filter (isServingError address) = servingErrorItems (address, deps))
    (distinct : ((servingErrorItems (address, deps)).map AttentionItem.key).Nodup)
    (fits : deps.length < 2 ^ 63) :
    Issue.servingErrors.total ((attentionContent after).alerting address) = deps.length := by
  have perm := findings_perm_entry held reported distinct
  have rows : ((attentionContent after).alerting address).filter
      (AttentionRow.isAbout .servingErrors) =
      ((after.rows.map Seen.finding).filter (isServingError address)).map AttentionRow.ofItem := by
    have stored : (attentionContent after).rows =
        (after.rows.map Seen.finding).map AttentionRow.ofItem := by
      rw [List.map_map]
      rfl
    rw [AttentionTable.alerting, stored, List.filter_filter, List.filter_filter, List.filter_map]
    refine congrArg _ (List.filter_congr fun item member => ?_)
    rw [Bool.eq_iff_iff, isServingError_iff, Function.comp_apply, Bool.and_eq_true,
      Bool.and_eq_true, isAbout_servingErrors]
    constructor
    · rintro ⟨⟨kind, owner⟩, _⟩
      exact ⟨of_decide_eq_true owner, kind⟩
    · rintro ⟨owner, kind⟩
      have inEntry : item ∈ servingErrorItems (address, deps) :=
        perm.mem_iff.mp (List.mem_filter.mpr ⟨member, isServingError_iff.mpr ⟨owner, kind⟩⟩)
      refine ⟨⟨kind, decide_eq_true owner⟩, ?_⟩
      rw [AttentionRow.passesAlertFilter, AttentionRow.isCritical, AttentionRow.ofItem,
        (isServingError_entry inEntry).2]
      rfl
  rw [Issue.total, rows, ((perm.map _).map _).sum_eq, affected_entry fits]

/-- The line of an indexer reports so many deployments with serving errors, and there is one if
there are any. -/
def ReportsErrors (profiles : ProfileTable) (content : AttentionTable) (lines : List String)
    (address : String) (n : Nat) : Prop :=
  ∃ lineOf : String → String, lines.Perm (content.failing.map lineOf) ∧
    (address ∉ content.failing → n = 0) ∧
    (address ∈ content.failing → ∃ critical named,
      lineOf address = rosterLead critical (labelOf profiles address) ++ summaryOf named ∧
        ∀ k, (Issue.servingErrors, k) ∈ named ↔ 0 < n ∧ k = n)

/-- A roster line reports as many failing deployments as the board's items add up to. -/
theorem reportsErrors_of_total {profiles : ProfileTable} {orders : RosterOrders}
    {content : AttentionTable} {n : Nat} (small : n < 2 ^ 63)
    (total : Issue.servingErrors.total (content.alerting address) = n) :
    ReportsErrors profiles content (currentFailureRoster profiles orders content).lines address n := by
  obtain ⟨alertOf, lines, sums⟩ := exists_alerts profiles orders content
  refine ⟨fun address => (alertOf address).line, lines, fun quiet => ?_, fun failing => ?_⟩
  · rw [mem_failing, not_not] at quiet
    rw [quiet] at total
    exact (Int.ofNat.inj total).symm
  · have label : (alertOf address).label = labelOf profiles address := by
      rw [(sums address).label, if_neg (mem_failing.mp failing)]
    have counts : (alertOf address).servingErrDeps = n := by
      rw [(sums address).errors, total, Int.bmod_eq_of_le (by omega) (by omega)]
    refine ⟨(alertOf address).critical, (alertOf address).named, ?_, fun k => ?_⟩
    · rw [← label]
      exact (alertOf address).line_eq
    · rw [IndexerAlert.mem_named, IndexerAlert.shows, IndexerAlert.count, counts,
        decide_eq_true_iff, Int.natCast_pos]
      exact and_congr_right fun _ => eq_comm

end Reported

section Agreement

variable (crates : Crates) (cycle : ScoreCycle) (board : Board) (profiles : ProfileTable)
  (orders : RosterOrders)

/-- The grade, the items of the check and the line after the sweep tell the same number. -/
structure AgreeOn (address : String) (n : Nat) : Prop where
  fed : ∀ evaluation : Evaluation, evaluation.address = address →
    (cycle.inputs crates evaluation).qosDeploymentsErroring = n
  named : NamesDeployments (cycle.issues crates).1 address n
  reported : ReportsErrors profiles (attentionContent (cycle.run crates board).attentionItem)
    (currentFailureRoster profiles orders
      (attentionContent (cycle.run crates board).attentionItem)).lines address n

variable {crates cycle board}

/-- What the check names is what the alerter reports, and it is what is erroring in the rows that
the check read. -/
theorem named_and_reported (probed : 1 ≤ cycle.cfg.servingMinProbes) (unstopped : cycle.stop = none)
    (checked : cycle.issuesStop = none) (older : OlderThan cycle.start board)
    (fits : cycle.servingRows.length < 2 ^ 63) (address : String) :
    NamesDeployments (cycle.issues crates).1 address
        (erroringCount crates cycle.cfg cycle.servingRows address) ∧
      ReportsErrors profiles (attentionContent (cycle.run crates board).attentionItem)
        (currentFailureRoster profiles orders
          (attentionContent (cycle.run crates board).attentionItem)).lines address
        (erroringCount crates cycle.cfg cycle.servingRows address) := by
  obtain ⟨rows, read, items⟩ := @exists_issues crates cycle probed checked
  have count : (errorsOf rows address).length =
      erroringCount crates cycle.cfg cycle.servingRows address := length_errorsOf read
  have small : (errorsOf rows address).length < 2 ^ 63 := by
    refine lt_of_le_of_lt ?_ fits
    rw [count, erroringCount]
    refine (List.countP_le_length.trans (List.length_filter_le _ _)).trans ?_
    rw [servings, groupBy, List.length_map]
    exact (List.dedup_sublist _).length_le.trans_eq (List.length_map _)
  have entry (counted : AttentionItem → Bool)
      (about : ∀ item, counted item → isServingError address item) :
      (cycle.issues crates).1.filter counted =
        (servingErrorItems (address, errorsOf rows address)).filter counted :=
    filter_issues about items
  rw [← count]
  constructor
  · refine (namesDeployments_entry address _).of_filters (entry _ fun item hit => ?_)
      (entry _ fun item hit => ?_)
    · rw [isServingError, hit, Bool.true_or]
    · rw [isServingError, hit, Bool.or_true]
  · have completes : cycle.Completes crates := ⟨allocHealth_isSome probed, unstopped⟩
    obtain ⟨reports, same, stamped, swept⟩ :=
      @ScoreCycle.attention_run crates cycle board completes
    have held : SeenTable.HoldsExactly (cycle.attention crates) board.attentionItem
        (cycle.run crates board).attentionItem := by
      rw [← same, swept]
      exact SeenTable.holdsExactly_cycle stamped older.attention
    refine reportsErrors_of_total small (total_alerting held ?_
      (nodup_keys_entry address (nodup_deployments read address)) small)
    rw [filter_attention, entry _ fun _ hit => hit]
    exact List.filter_eq_self.mpr fun item member => (isServingError_entry member).1

/-- In a cycle whose check comes to its end, the three agree when both queries read the same
rows. -/
theorem errors_agree (probed : 1 ≤ cycle.cfg.servingMinProbes) (unstopped : cycle.stop = none)
    (checked : cycle.issuesStop = none) (older : OlderThan cycle.start board)
    (sameRows : cycle.servingRows.Perm cycle.healthRows)
    (fits : cycle.servingRows.length < 2 ^ 63) (address : String) :
    ∃ n, AgreeOn crates cycle board profiles orders address n := by
  obtain ⟨named, reported⟩ := named_and_reported profiles orders probed unstopped checked older fits
    address
  refine ⟨_, ?_, named, reported⟩
  rintro evaluation rfl
  rw [fed_erroring probed, erroringCount_perm sameRows]

/-- Ten probes in one bucket at the epoch, none of them answered. -/
def failingRow : QosRow where
  indexerAddress := "0xa"
  deploymentId := "Qm"
  bucketStart := 0
  bucketSecs := 300
  indexerUrl := none
  chainId := "arbitrum-one"
  gatewayId := "lodestar"
  measure := ⟨10, 0, 0, none, none, none, none, none, none, none, none, 0, 0, none⟩
  fees := QosFees.none
  computedAt := 0

/-- When that bucket is about to leave the window of thirty days. -/
def lastMoment : Moment :=
  ⟨daysMicros 30, { Db.empty with foghornQos := Table.empty.insertNew failingRow }, Table.empty⟩

/-- A cycle in which it leaves between the two queries. -/
def driftingCycle : ScoreCycle :=
  { ScoreCycle.undisturbed ScoringConfig.default (some Table.empty) lastMoment with
    servingAt := { lastMoment with now := daysMicros 30 + 1 } }

/-- The grade counts a deployment that no item names. -/
theorem drift_refutes :
    ¬ ∀ (crates : Crates) (cycle : ScoreCycle) (board : Board) (profiles : ProfileTable)
      (orders : RosterOrders), 1 ≤ cycle.cfg.servingMinProbes → cycle.stop = none →
      cycle.issuesStop = none → OlderThan cycle.start board →
      cycle.servingAt.db = cycle.healthAt.db → cycle.servingRows.length < 2 ^ 63 →
      ∀ address, ∃ n, AgreeOn crates cycle board profiles orders address n := by
  intro always
  obtain ⟨n, agree⟩ := always (Crates.knowing [] []) driftingCycle Board.empty Table.empty
    ⟨.asInserted, .asInserted⟩ (by decide) rfl rfl
    ⟨fun row absent => absurd absent (Table.not_mem_empty row),
      fun row absent => absurd absent (Table.not_mem_empty row)⟩ rfl (by decide) "0xa"
  have fed : (driftingCycle.inputs (Crates.knowing [] []) ⟨"0xa", 30, 1⟩).qosDeploymentsErroring =
      1 := by decide +kernel
  have one : n = 1 := Int.ofNat.inj ((agree.fed ⟨"0xa", 30, 1⟩ rfl).symm.trans fed)
  have unnamed : ((driftingCycle.issues (Crates.knowing [] [])).1.filter
      (isPerDeployment "0xa")).length = 0 := by decide +kernel
  have named := (agree.named.single (one ▸ by decide)).2
  rw [unnamed, one] at named
  cases named

/-- Two deployments that an indexer fails on, in one under its checksummed address, and one that
another serves. -/
def failingRows : List QosRow :=
  [failingRow, { failingRow with indexerAddress := "0xA", deploymentId := "Qn" },
    { failingRow with
      indexerAddress := "0xb"
      measure := { failingRow.measure with numIndexer200Responses := 10 } }]

/-- An item of an earlier cycle about a deployment that is served again. -/
def clearedItem : Seen AttentionItem :=
  ⟨⟨"0xa", "serving-errors-deployment", "Qo", .high, 1, "", .null⟩, 0, 0⟩

/-- The check reads the rows in another order than the health query. -/
def reorderedCycle : ScoreCycle :=
  { ScoreCycle.undisturbed ScoringConfig.default (some Table.empty)
      ⟨daysMicros 1, { Db.empty with foghornQos := ⟨failingRows, by decide⟩ }, Table.empty⟩ with
    servingAt :=
      ⟨daysMicros 1, { Db.empty with foghornQos := ⟨failingRows.reverse, by decide⟩ }, Table.empty⟩ }

/-- The two deployments are counted, named and reported. -/
theorem reordered_agrees :
    ∃ n, AgreeOn (Crates.knowing [] []) reorderedCycle
      { Board.empty with attentionItem := Table.empty.insertNew clearedItem } Table.empty
      ⟨.asInserted, .asInserted⟩ "0xa" n := by
  refine errors_agree Table.empty ⟨.asInserted, .asInserted⟩ (by decide) rfl rfl ⟨?_, ?_⟩
    (by decide) (by decide) "0xa"
  · exact fun row absent => absurd absent (Table.not_mem_empty row)
  · intro row stored
    rcases (Table.mem_insertNew.mp stored) with old | ⟨-, rfl⟩
    · exact absurd old (Table.not_mem_empty row)
    · decide

end Agreement

end Foghorn.Probe
