import Foghorn.Std.Collections
import Foghorn.Core.Tables

/-!
# Whose an answer is, and whether it was wrong

A gateway observation is keyed by an allocation signing key and resolves through
`allocation_map`; a paid one is keyed by the indexer. An answer that nobody can be
given, and a refused payment, are evidence about no indexer. A fault is an answer that
differs from the largest cluster when that cluster holds more than half of the answers
to the probe.
-/

namespace Foghorn.Core

open Foghorn.Std

/-- `error_class LIKE 'payment\_%'`: a refusal to accept our payment. -/
def isPaymentError : Option String → Bool
  | some class_ => startsWithText class_ "payment_"
  | none => false

/-- `allocation_map`, by signing key. -/
abbrev AllocationMap := Table AllocationMapRow String AllocationMapRow.allocationKey

/-- The indexer that the map names for a key, if it names one. -/
def AllocationMap.resolved (known : AllocationMap) (address : String) : Option String :=
  (known.lookup address).bind AllocationMapRow.indexerAddress

/-- `COALESCE(am.indexer_address, o.indexer_address)`. -/
def AllocationMap.identity (known : AllocationMap) (address : String) : String :=
  (known.resolved address).getD address

namespace Db

def resolved (db : Db) (address : String) : Option String :=
  AllocationMap.resolved db.allocationMap address

def identity (db : Db) (address : String) : String :=
  AllocationMap.identity db.allocationMap address

/-- The stored answers to one probe. -/
def answers (db : Db) (probeId : Uuid) : List ObservationRow :=
  db.observation.rows.filter fun obs => obs.probeId = probeId

/-- `responders.n`: the answers to a probe that carry a hash. -/
def responders (db : Db) (probeId : Uuid) : Nat :=
  (db.answers probeId).countP fun obs => obs.responseHash.isSome

/-- The answers to a probe that carry one particular hash. -/
def votes (db : Db) (probeId : Uuid) (hash : String) : Nat :=
  (db.answers probeId).countP fun obs => obs.responseHash = some hash

/-- The answer differs from the largest cluster and that cluster is a majority. -/
def outvoted (db : Db) (obs : ObservationRow) : Bool :=
  match db.divergence.lookup obs.probeId, obs.responseHash with
  | some d, some hash =>
    hash ≠ d.largestByCountHash && db.responders obs.probeId < d.largestByCountSize * 2
  | _, _ => false

/-- `nd.deployment_id IS NOT NULL`. -/
def flagged (db : Db) (deploymentId : String) : Bool := db.nondeterministic.holds deploymentId

/-- Evidence about somebody: attributed, and not a refused payment. -/
def isEvidence (db : Db) (obs : ObservationRow) : Bool :=
  ((db.resolved obs.indexerAddress).isSome || obs.dispatchMode = .paid) &&
    !isPaymentError obs.errorClass

end Db

/-- One row of `judged`. -/
structure JudgedRow where
  indexerAddress : String
  probeId : Uuid
  deploymentId : String
  queryCategory : String
  dispatchedAt : Int
  latencyMs : Option Int
  responseHash : Option String
  fault : Bool

/-- The judged answers to probes dispatched after `since`. With `excuse`, answers on flagged
deployments are never faults. -/
def judgedProbes (db : Db) (since : Int) (excuse : Bool) : List JudgedRow :=
  db.observation.rows.filterMap fun obs =>
    (db.probe.lookup obs.probeId).bind fun p =>
      if db.isEvidence obs && since < p.dispatchedAt then
        some {
          indexerAddress := db.identity obs.indexerAddress
          probeId := p.id
          deploymentId := p.deploymentId
          queryCategory := p.queryCategory
          dispatchedAt := p.dispatchedAt
          latencyMs := obs.latencyMs
          responseHash := obs.responseHash
          fault := db.outvoted obs && !(excuse && db.flagged p.deploymentId) }
      else none

namespace Db

variable {db : Db}

/-- A deployment is flagged when the nondeterministic table has a row of it. -/
theorem flagged_iff {deploymentId : String} :
    db.flagged deploymentId ↔
      ∃ row ∈ db.nondeterministic, row.deploymentId = deploymentId := by
  rw [flagged, decide_eq_true_eq, Table.holds_iff]

/-- An answer is outvoted when it differs from one that more than half of the responders gave. -/
theorem outvoted_iff {obs : ObservationRow} :
    db.outvoted obs = true ↔
      ∃ d ∈ db.divergence, d.probeId = obs.probeId ∧
        ∃ hash, obs.responseHash = some hash ∧ hash ≠ d.largestByCountHash ∧
          db.responders obs.probeId < d.largestByCountSize * 2 := by
  unfold outvoted
  cases found : db.divergence.lookup obs.probeId with
  | none =>
    have absent := Table.lookup_eq_none_iff.mp found
    simp only [Bool.false_eq_true, false_iff]
    rintro ⟨d, member, same, _⟩
    exact absent d member same
  | some d =>
    have only : ∀ other ∈ db.divergence, other.probeId = obs.probeId → other = d := by
      intro other member same
      exact Table.eq_of_key_eq member (Table.mem_of_lookup found)
        (same.trans (Table.key_of_lookup found).symm)
    cases hashed : obs.responseHash with
    | none => simp
    | some hash =>
      simp only [Bool.and_eq_true, decide_eq_true_eq]
      constructor
      · rintro ⟨differs, majority⟩
        exact ⟨d, Table.mem_of_lookup found, Table.key_of_lookup found, hash, rfl, differs, majority⟩
      · rintro ⟨other, member, same, hash', hashEq, differs, majority⟩
        obtain rfl := only other member same
        obtain rfl := Option.some.inj hashEq
        exact ⟨differs, majority⟩

end Db

end Foghorn.Core
