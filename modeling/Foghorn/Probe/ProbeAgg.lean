import Foghorn.Core.Judged

/-!
# Probe outcomes of an indexer

`loadProbeAgg` is what the grades are computed from: for every identity, how many
answers a window holds, how many were errors, and in how many probes the identity
answered or was at fault.
-/

namespace Foghorn.Probe

open Foghorn.Std Foghorn.Core

structure ProbeAgg where
  probesAnswered : Nat
  faults : Nat
  errors : Nat
  total : Nat
deriving DecidableEq

/-- What `unwrap_or_default` gives for an identity nobody probed. -/
def ProbeAgg.default : ProbeAgg := ⟨0, 0, 0, 0⟩

/-- An attributed answer beside its probe. -/
abbrev Evidence := ObservationRow × ProbeRow

/-- The evidence in probes dispatched after `since`. -/
def evidenceSince (since : Int) (db : Db) : List Evidence :=
  db.observation.rows.filterMap fun o =>
    (db.probe.lookup o.probeId).bind fun p =>
      if since < p.dispatchedAt ∧ db.isEvidence o then some (o, p) else none

def isError (evidence : Evidence) : Bool :=
  evidence.1.errorClass.isSome || evidence.1.responseHash.isNone

/-- Outvoted by a clear majority on a deployment that is not flagged. -/
def isFault (db : Db) (evidence : Evidence) : Bool :=
  db.outvoted evidence.1 && !db.flagged evidence.2.deploymentId

def aggregate (db : Db) (evidence : List Evidence) : ProbeAgg where
  probesAnswered := countDistinct (fun pair => pair.1.probeId)
    (fun pair => pair.1.responseHash.isSome) evidence
  faults := countDistinct (fun pair => pair.1.probeId) (isFault db) evidence
  errors := evidence.countP isError
  total := evidence.length

abbrev AggMap := Table (String × ProbeAgg) String Prod.fst

/-- The entry of a map, or the default. -/
def AggMap.get (entries : AggMap) (address : String) : ProbeAgg :=
  ((entries.lookup address).map Prod.snd).getD ProbeAgg.default

/-- The resolved identity behind an answer. -/
def whose (db : Db) (evidence : Evidence) : String := db.identity evidence.1.indexerAddress

/-- `load_probe_agg`: identities are lowercased on the way into the map, so of two that
differ only in case the one returned last stays. -/
def loadProbeAgg (crates : Crates) (order : IterOrder (String × List Evidence)) (since : Int)
    (db : Db) : AggMap :=
  mapOfPairs ((order.arrange (groupBy (whose db) (evidenceSince since db))).map fun group =>
    (crates.lowercase group.1, aggregate db group.2))

/-- The row of `judged` for an answer. -/
def judgedRow (db : Db) (excuse : Bool) (evidence : Evidence) : JudgedRow where
  indexerAddress := whose db evidence
  probeId := evidence.2.id
  deploymentId := evidence.2.deploymentId
  queryCategory := evidence.2.queryCategory
  dispatchedAt := evidence.2.dispatchedAt
  latencyMs := evidence.1.latencyMs
  responseHash := evidence.1.responseHash
  fault := db.outvoted evidence.1 && !(excuse && db.flagged evidence.2.deploymentId)

/-- What is judged is the evidence. -/
theorem judgedProbes_eq_map (db : Db) (since : Int) (excuse : Bool) :
    judgedProbes db since excuse = (evidenceSince since db).map (judgedRow db excuse) := by
  rw [judgedProbes, evidenceSince, List.map_filterMap]
  refine List.filterMap_congr fun o _ => ?_
  cases db.probe.lookup o.probeId with
  | none => rfl
  | some p =>
    by_cases later : since < p.dispatchedAt <;> by_cases judged : db.isEvidence o <;>
      simp [later, judged, judgedRow, whose]

section Lookup

variable {crates : Crates} {order : IterOrder (String × List Evidence)} {since : Int} {db : Db}

/-- The evidence is what the countable answers say of probes in the window. -/
theorem mem_evidenceSince {evidence : Evidence} :
    evidence ∈ evidenceSince since db ↔
      evidence.1 ∈ db.observation ∧ evidence.2 ∈ db.probe ∧ evidence.2.id = evidence.1.probeId ∧
        since < evidence.2.dispatchedAt ∧ db.isEvidence evidence.1 := by
  rw [evidenceSince, List.mem_filterMap]
  constructor
  · rintro ⟨o, observed, found⟩
    obtain ⟨p, looked, kept⟩ := Option.bind_eq_some_iff.mp found
    obtain ⟨probed, same⟩ := Table.lookup_eq_some_iff.mp looked
    split at kept
    · rename_i counts
      obtain rfl := Option.some.inj kept
      exact ⟨observed, probed, same, counts⟩
    · cases kept
  · rintro ⟨observed, probed, same, counts⟩
    refine ⟨evidence.1, observed, ?_⟩
    rw [Table.lookup_eq_some_iff.mpr ⟨probed, same⟩]
    simp [counts]

/-- Where the names of the groups are in lower case, the map holds the aggregate of each group,
and of no rows for the others. -/
theorem AggMap.get_groups {α : Type} {rows : List α} {whose : α → String}
    {agg : List α → ProbeAgg} {arranged : List (String × ProbeAgg)}
    (perm : arranged.Perm ((groupBy whose rows).map fun group => (group.1, agg group.2)))
    (nothing : agg [] = ProbeAgg.default)
    (lower : ∀ row ∈ rows, crates.lowercase (whose row) = whose row) (address : String) :
    AggMap.get (mapOfPairs (arranged.map fun group => (crates.lowercase group.1, group.2))) address =
      agg (rows.filter fun row => whose row = address) := by
  have unchanged : (arranged.map fun group => (crates.lowercase group.1, group.2)) = arranged := by
    calc (arranged.map fun group => (crates.lowercase group.1, group.2))
        = arranged.map fun group => group := List.map_congr_left fun entry member => by
          obtain ⟨group, grouped, rfl⟩ := List.mem_map.mp (perm.mem_iff.mp member)
          obtain ⟨⟨row, listed, same⟩, -⟩ := mem_groupBy.mp grouped
          dsimp only
          rw [← same, lower row listed]
      _ = arranged := List.map_id' _
  have filled : ((groupBy whose rows).map fun group => (group.1, agg group.2)) =
      (groupBy whose rows).filterMap fun group =>
        (some (agg group.2)).map (Prod.mk group.1) := by
    rw [← List.filterMap_eq_map]
    rfl
  rw [unchanged, AggMap.get,
    lookup_mapOfPairs_groupBy whose rows (fun group => some (agg group)) (filled ▸ perm) address]
  split
  · rename_i absent
    rw [absent, nothing]
    rfl
  · rfl

/-- With every identity in lower case, the map holds the aggregate of each identity's
evidence, and the default for the others. -/
theorem get_loadProbeAgg
    (lower : ∀ o ∈ db.observation,
      crates.lowercase (db.identity o.indexerAddress) = db.identity o.indexerAddress)
    (address : String) :
    (loadProbeAgg crates order since db).get address =
      aggregate db ((evidenceSince since db).filter fun pair => whose db pair = address) := by
  have split : (order.arrange (groupBy (whose db) (evidenceSince since db))).map (fun group =>
      (crates.lowercase group.1, aggregate db group.2)) =
      ((order.arrange (groupBy (whose db) (evidenceSince since db))).map fun group =>
        (group.1, aggregate db group.2)).map fun group => (crates.lowercase group.1, group.2) := by
    rw [List.map_map]
    rfl
  rw [loadProbeAgg, split]
  exact AggMap.get_groups ((order.perm _).map _) rfl
    (fun pair present => lower _ (mem_evidenceSince.mp present).1) address

end Lookup

end Foghorn.Probe
