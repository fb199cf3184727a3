import Foghorn.Std.Relational
import Foghorn.Core.Judged

/-!
# The judged answers as the query joins them

`judgedProbesSql` is the shared fragment clause by clause: outer joins, nulls and all.
`judgedProbesSql_eq` says that it is `judgedProbes`.
-/

namespace Foghorn.Core

open Foghorn.Std Truth

/-- `COUNT(*) FILTER (WHERE response_hash IS NOT NULL) .. GROUP BY probe_id`. -/
def countResponders (observations : List ObservationRow) : List (Uuid × Nat) :=
  (groupBy ObservationRow.probeId observations).map fun group =>
    (group.1, group.2.countP fun o => o.responseHash.isSome)

/-- The observations of probes dispatched after `since`. -/
def observedSince (since : Int) (db : Db) : List ObservationRow :=
  db.observation.rows.flatMap fun o =>
    (joined db.probe.rows fun p => equal (some p.id) (some o.probeId)).flatMap fun p =>
      if since < p.dispatchedAt then [o] else []

/-- `error_class NOT LIKE 'payment\_%'`. -/
def notLikePayment (errorClass : Option String) : Truth :=
  errorClass.map fun class_ => !startsWithText class_ "payment_"

/-- Whether an answer is judged at all, beside what the map holds for its key. -/
def isJudged (o : ObservationRow) (am : Option AllocationMapRow) : Truth :=
  ((isNotNull (am.bind AllocationMapRow.indexerAddress)).or (some (o.dispatchMode = .paid))).and
    ((isNull o.errorClass).or (notLikePayment o.errorClass))

/-- The entry of the map for a signing key, where it names an indexer. -/
def mapEntries (db : Db) (o : ObservationRow) : List (Option AllocationMapRow) :=
  leftJoined db.allocationMap.rows fun am =>
    (equal (some am.allocationKey) (some o.indexerAddress)).and (isNotNull am.indexerAddress)

/-- The condition of a fault. -/
def faultCondition (excuse : Bool) (o : ObservationRow) (d : Option DivergenceRow)
    (r : Option (Uuid × Nat)) (nd : Option NondeterministicRow) : Truth :=
  let outvoted := (differs o.responseHash (d.map DivergenceRow.largestByCountHash)).and
    (compare (fun size n => n < size * 2) (d.map DivergenceRow.largestByCountSize) (r.map Prod.snd))
  if excuse then outvoted.and (isNull (nd.map NondeterministicRow.deploymentId)) else outvoted

/-- `judged_probes`. -/
def judgedProbesSql (db : Db) (since : Int) (excuse : Bool) : List JudgedRow :=
  db.observation.rows.flatMap fun o =>
  (joined db.probe.rows fun p => equal (some p.id) (some o.probeId)).flatMap fun p =>
  (mapEntries db o).flatMap fun am =>
  (leftJoined db.divergence.rows fun d => equal (some d.probeId) (some o.probeId)).flatMap fun d =>
  (leftJoined (countResponders (observedSince since db)) fun r =>
    equal (some r.1) (some o.probeId)).flatMap fun r =>
  (leftJoined db.nondeterministic.rows fun nd =>
    equal (some nd.deploymentId) (some p.deploymentId)).flatMap fun nd =>
    if ((isJudged o am).and (some (since < p.dispatchedAt))).holds then
      [{ indexerAddress := (am.bind AllocationMapRow.indexerAddress).getD o.indexerAddress
         probeId := p.id
         deploymentId := p.deploymentId
         queryCategory := p.queryCategory
         dispatchedAt := p.dispatchedAt
         latencyMs := o.latencyMs
         responseHash := o.responseHash
         fault := (faultCondition excuse o d r nd).holds }]
    else []

section Clauses

variable {db : Db} {since : Int} {o : ObservationRow}

/-- The join finds at most one allocation row for an observation. -/
theorem mapEntries_eq :
    mapEntries db o = [(db.allocationMap.lookup o.indexerAddress).filter fun am =>
      am.indexerAddress.isSome] :=
  leftJoined_key_and db.allocationMap o.indexerAddress _

/-- An allocation row without an address reads as no row. -/
theorem bind_filter_isSome (entry : Option AllocationMapRow) :
    (entry.filter fun am => am.indexerAddress.isSome).bind AllocationMapRow.indexerAddress =
      entry.bind AllocationMapRow.indexerAddress := by
  cases entry with
  | none => rfl
  | some am => cases named : am.indexerAddress <;> simp [Option.filter, named]

private theorem holds_notLikePayment (errorClass : Option String) :
    ((isNull errorClass).or (notLikePayment errorClass)).holds = !isPaymentError errorClass := by
  cases errorClass with
  | none => rfl
  | some class_ => rfl

/-- The condition on whose an answer is picks the evidence. -/
theorem holds_isJudged :
    (isJudged o ((db.allocationMap.lookup o.indexerAddress).filter fun am =>
      am.indexerAddress.isSome)).holds = db.isEvidence o := by
  rw [isJudged, holds_and, holds_or, holds_notLikePayment, bind_filter_isSome]
  rfl

/-- The window of the query keeps the observations of probes dispatched after it opened. -/
theorem observedSince_eq :
    observedSince since db = db.observation.rows.filter fun o =>
      (db.probe.lookup o.probeId).any fun p => since < p.dispatchedAt := by
  rw [← List.filterMap_eq_filter, List.filterMap_eq_flatMap_toList]
  refine List.flatMap_congr fun o _ => ?_
  rw [joined_key]
  cases probed : db.probe.lookup o.probeId with
  | none => simp [Option.guard, probed]
  | some p => by_cases later : since < p.dispatchedAt <;> simp [Option.guard, probed, later]

/-- The answers to a probe of the window are all among its observations. -/
theorem filter_observedSince {p : ProbeRow} (probed : db.probe.lookup o.probeId = some p)
    (later : since < p.dispatchedAt) :
    ((observedSince since db).filter fun other => other.probeId = o.probeId) =
      db.answers o.probeId := by
  rw [observedSince_eq, List.filter_filter, Db.answers]
  refine List.filter_congr fun other _ => ?_
  by_cases same : other.probeId = o.probeId
  · simp [same, probed, later]
  · simp [same]

/-- The responders of a probe that has answers. -/
theorem leftJoined_countResponders {observations : List ObservationRow} (listed : o ∈ observations) :
    leftJoined (countResponders observations) (fun r => equal (some r.1) (some o.probeId)) =
      [some (o.probeId, (observations.filter fun other => other.probeId = o.probeId).countP
        fun other => other.responseHash.isSome)] := by
  have distinct : ((countResponders observations).map Prod.fst).Nodup := by
    rw [countResponders, List.map_map]
    exact groupBy_keys_nodup _ _
  have found : (Table.mk (countResponders observations) distinct).lookup o.probeId =
      some (o.probeId, (observations.filter fun other => other.probeId = o.probeId).countP
        fun other => other.responseHash.isSome) := by
    refine Table.lookup_eq_some_iff.mpr ⟨List.mem_map.mpr ⟨(o.probeId, _), ?_, rfl⟩, rfl⟩
    exact mem_groupBy.mpr ⟨⟨o, listed, rfl⟩, rfl⟩
  rw [leftJoined_key (Table.mk (countResponders observations) distinct), found]

/-- Inside the window the responders are those of the probe. -/
theorem responders_window {p : ProbeRow} (stored : o ∈ db.observation)
    (probed : db.probe.lookup o.probeId = some p) (later : since < p.dispatchedAt) :
    leftJoined (countResponders (observedSince since db)) (fun r => equal (some r.1) (some o.probeId)) =
      [some (o.probeId, db.responders o.probeId)] := by
  have listed : o ∈ observedSince since db := by
    rw [observedSince_eq, List.mem_filter]
    exact ⟨stored, by simp [probed, later]⟩
  rw [leftJoined_countResponders listed, filter_observedSince probed later]
  rfl

private theorem holds_notFlagged (deployment : String) :
    (isNull ((db.nondeterministic.lookup deployment).map NondeterministicRow.deploymentId)).holds =
      !db.flagged deployment := by
  rw [holds_isNull, Option.isNone_map, Db.flagged, ← decide_not, Bool.eq_iff_iff,
    Option.isNone_iff_eq_none, decide_eq_true_eq, Table.not_holds_iff_lookup]

/-- The clauses of the join are the test of the clustering. -/
theorem holds_outvoted : ((differs o.responseHash ((db.divergence.lookup o.probeId).map
      DivergenceRow.largestByCountHash)).and
    (compare (fun size n => decide (n < size * 2)) ((db.divergence.lookup o.probeId).map
      DivergenceRow.largestByCountSize) (some (db.responders o.probeId)))).holds =
        db.outvoted o := by
  unfold Db.outvoted
  cases db.divergence.lookup o.probeId with
  | none => simp [differs]
  | some d => cases o.responseHash <;> simp [differs]

/-- The query's fault condition is that the answer is outvoted and not excused. -/
theorem holds_faultCondition (excuse : Bool) (deployment : String) :
    (faultCondition excuse o (db.divergence.lookup o.probeId)
      (some (o.probeId, db.responders o.probeId)) (db.nondeterministic.lookup deployment)).holds =
        (db.outvoted o && !(excuse && db.flagged deployment)) := by
  rw [← holds_outvoted]
  cases excuse with
  | true => rw [faultCondition, if_pos rfl, holds_and, holds_notFlagged, Bool.true_and]; rfl
  | false => rw [Bool.false_and, Bool.not_false, Bool.and_true]; rfl

end Clauses

/-- The query judges each answer as `judgedProbes` does. -/
theorem judgedProbesSql_eq (db : Db) (since : Int) (excuse : Bool) :
    judgedProbesSql db since excuse = judgedProbes db since excuse := by
  rw [judgedProbesSql, judgedProbes, List.filterMap_eq_flatMap_toList]
  refine List.flatMap_congr fun o stored => ?_
  rw [joined_key]
  cases probed : db.probe.lookup o.probeId with
  | none => rfl
  | some p =>
    simp only [Option.toList_some, List.flatMap_singleton, mapEntries_eq, leftJoined_key,
      holds_and, holds_isJudged, holds_some, bind_filter_isSome, Option.bind_some]
    by_cases later : since < p.dispatchedAt
    · rw [responders_window (Table.mem_rows.mp stored) probed later]
      simp only [List.flatMap_singleton, holds_faultCondition, later]
      split
      · rfl
      · rfl
    · simp [later]

end Foghorn.Core
