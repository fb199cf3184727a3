import Foghorn.Std.Table
import Foghorn.Core.Json

/-!
# The measurement tables

One row type for each table that probing, attribution and the rollup read or write,
and `Db`, the database they share. Every table carries its primary key as an
invariant. Times are microseconds since the Unix epoch, the resolution of
`TIMESTAMPTZ`; double-precision columns are exact rationals.
-/

namespace Foghorn.Core

open Foghorn.Std

/-- Microseconds in a second. -/
def microsPerSecond : Int := 1000000

abbrev Uuid := BitVec 128

/-- A stake weight as the clustering sees it: finite weights are exact, the infinities and NaN
are kept apart because sums and `partial_cmp` treat them differently. -/
inductive StakeWeight where
  | nan
  | infinite (positive : Bool)
  | exact (value : ℚ)
deriving DecidableEq

namespace StakeWeight

/-- Opposite infinities have no sum. -/
def add : StakeWeight → StakeWeight → StakeWeight
  | nan, _ => nan
  | _, nan => nan
  | exact left, exact right => exact (left + right)
  | exact _, infinite positive => infinite positive
  | infinite positive, exact _ => infinite positive
  | infinite left, infinite right => if left = right then infinite left else nan

/-- `partial_cmp`. -/
def partialCmp : StakeWeight → StakeWeight → Option Ordering
  | nan, _ => none
  | _, nan => none
  | exact left, exact right =>
    some (if left < right then .lt else if left = right then .eq else .gt)
  | exact _, infinite positive => some (if positive then .lt else .gt)
  | infinite positive, exact _ => some (if positive then .gt else .lt)
  | infinite left, infinite right => some (compare left right)

end StakeWeight

/-- How an observation was obtained: paid directly, keyed by the indexer we chose, or
routed by the gateway, keyed by the signing key its attestation recovers to. -/
inductive DispatchMode where
  | paid
  | gateway
deriving DecidableEq

/-- `probe`. -/
structure ProbeRow where
  id : Uuid
  deploymentId : String
  blockHash : String
  blockNumber : Int
  queryHash : String
  queryCategory : String
  queryText : String
  dispatchedAt : Int

/-- `observation`. -/
structure ObservationRow where
  probeId : Uuid
  indexerAddress : String
  responseHash : Option String
  latencyMs : Option Int
  metaBlockNumber : Option Int
  metaBlockHash : Option String
  httpStatus : Option Int
  errorClass : Option String
  stakeWeight : StakeWeight
  dispatchMode : DispatchMode
  requestCid : Option String
  responseCid : Option String
  attestation : Option String
deriving DecidableEq

def ObservationRow.key (row : ObservationRow) : Uuid × String :=
  (row.probeId, row.indexerAddress)

/-- `divergence`: the clustering of one corroborated probe. -/
structure DivergenceRow where
  probeId : Uuid
  clusterCount : Nat
  diffPatches : Json
  largestByCountHash : String
  largestByCountSize : Nat
  largestByStakeHash : String
  largestByStakeWeight : StakeWeight
  createdAt : Int

/-- `allocation_map`: who a signing key belongs to; no address means not found. -/
structure AllocationMapRow where
  allocationKey : String
  indexerAddress : Option String
  indexerUrl : Option String
  resolvedAt : Int
deriving DecidableEq

/-- `nondeterministic_deployment`. -/
structure NondeterministicRow where
  deploymentId : String
  divergentProbes : Nat
  totalProbes : Nat
  divergenceRate : ℚ
  sampleFields : List String
  firstSeen : Int
  lastSeen : Int
deriving DecidableEq

/-- A nonnegative real known by its square, as a standard deviation is. -/
structure SquareRoot where
  radicand : ℚ
deriving DecidableEq

/-- What the rollup measures for one indexer, deployment and bucket. -/
structure QosMeasure where
  queryCount : Nat
  numIndexer200Responses : Nat
  proportionIndexer200Responses : ℚ
  avgIndexerLatencyMs : Option ℚ
  maxIndexerLatencyMs : Option ℚ
  stdevIndexerLatencyMs : Option SquareRoot
  latencyP50Ms : Option Int
  latencyP95Ms : Option Int
  latencyP99Ms : Option Int
  avgIndexerBlocksBehind : Option ℚ
  maxIndexerBlocksBehind : Option ℚ
  comparableCount : Nat
  divergentCount : Nat
  correctnessRate : Option ℚ
deriving DecidableEq

/-- The three fee columns, which no rollup writes. -/
structure QosFees where
  avgQueryFee : Option ℚ
  maxQueryFee : Option ℚ
  totalQueryFees : Option ℚ
deriving DecidableEq

/-- Fees nobody has recorded. -/
def QosFees.none : QosFees := ⟨Option.none, Option.none, Option.none⟩

/-- `foghorn_qos`. -/
structure QosRow where
  indexerAddress : String
  deploymentId : String
  bucketStart : Int
  bucketSecs : Int
  indexerUrl : Option String
  chainId : String
  gatewayId : String
  measure : QosMeasure
  fees : QosFees
  computedAt : Int
deriving DecidableEq

def QosRow.key (row : QosRow) : String × String × Int × Int :=
  (row.indexerAddress, row.deploymentId, row.bucketStart, row.bucketSecs)

/-- `qos_reroll`: buckets to roll up again. -/
structure RerollRow where
  id : Nat
  deploymentId : Option String
  fromTs : Int
  toTs : Int
  reason : String
  requestedAt : Int
deriving DecidableEq

/-- The measurement side of the database. -/
structure Db where
  probe : Table ProbeRow Uuid ProbeRow.id
  observation : Table ObservationRow (Uuid × String) ObservationRow.key
  divergence : Table DivergenceRow Uuid DivergenceRow.probeId
  allocationMap : Table AllocationMapRow String AllocationMapRow.allocationKey
  nondeterministic : Table NondeterministicRow String NondeterministicRow.deploymentId
  foghornQos : Table QosRow (String × String × Int × Int) QosRow.key
  qosReroll : Serial RerollRow RerollRow.id

/-- The migrated database before anything was stored. -/
def Db.empty : Db :=
  ⟨Table.empty, Table.empty, Table.empty, Table.empty, Table.empty, Table.empty, Serial.empty⟩

end Foghorn.Core
