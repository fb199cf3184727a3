import Mathlib.Algebra.Order.Ring.Rat
import Mathlib.Data.Finset.Basic
import Mathlib.Data.String.Basic
import Mathlib.Data.Set.Card
import Mathlib.Combinatorics.SimpleGraph.Connectivity.Connected
import Foghorn.Core.Json
import Foghorn.Std.Collections
import Foghorn.Std.UnionFind

/-!
# Swarms of one operator

Two anonymous candidates are linked if they were created close together with similar or very
large stakes, or crowd the same deployments. The swarms are what union-find makes of the links.
-/

namespace Foghorn.Probe

open Foghorn.Std Foghorn.Core

def createdWindowSecs : Int := 14 * 86400

def stakeRelTol : ℚ := 1 / 4

def highStakeGrt : ℚ := 50000000

def minMembers : Nat := 3

def crowdOverlap : ℚ := 4 / 5

def crowdMinAllocs : Nat := 5

structure Candidate where
  address : String
  createdAt : Int
  stake : ℚ
  allocations : Finset String
deriving DecidableEq

/-- The common part, relative to the smaller footprint. -/
def overlapCoefficient (a b : Finset String) : ℚ :=
  let least := min a.card b.card
  if least = 0 then 0 else ((a ∩ b).card : ℚ) / (least : ℚ)

def crowds (a b : Candidate) : Prop :=
  crowdMinAllocs ≤ a.allocations.card ∧ crowdMinAllocs ≤ b.allocations.card ∧
    crowdOverlap ≤ overlapCoefficient a.allocations b.allocations

instance (a b : Candidate) : Decidable (crowds a b) := inferInstanceAs (Decidable (_ ∧ _ ∧ _))

/-- The condition of the double loop. -/
def linked (a b : Candidate) : Bool :=
  let closeTime := decide (|a.createdAt - b.createdAt| ≤ createdWindowSecs)
  let similarStake := decide (|a.stake - b.stake| / max a.stake b.stake ≤ stakeRelTol)
  let bothWhales := decide (highStakeGrt ≤ a.stake ∧ highStakeGrt ≤ b.stake)
  (closeTime && (similarStake || bothWhales)) || decide (crowds a b)

/-- Every entry with each later one, in the order of a double loop. -/
def laterPairs {α : Type} : List α → List (α × α)
  | [] => []
  | first :: rest => rest.map (fun later => (first, later)) ++ laterPairs rest

/-- Mean pairwise overlap: how strongly the members crowd. -/
def meanOverlap (members : List Candidate) : ℚ :=
  let pairs := laterPairs members
  if pairs.length = 0 then 0
  else (pairs.map fun pair => overlapCoefficient pair.1.allocations pair.2.allocations).sum /
    (pairs.length : ℚ)

structure SwarmSignals where
  memberCount : Nat
  createdSpreadDays : ℚ
  selfStakeMinGrt : Option ℚ
  selfStakeMaxGrt : ℚ
  selfStakeRelSpread : ℚ
  allocationOverlap : ℚ
deriving DecidableEq

structure SybilCluster where
  clusterId : String
  confidence : ℚ
  memberCount : Nat
  members : List String
  signals : SwarmSignals
deriving DecidableEq

def createdSpreadDays (members : List Candidate) : ℚ :=
  let created := members.map Candidate.createdAt
  ((created.max?.getD 0 - created.min?.getD 0 : Int) : ℚ) / 86400

/-- `none` is the infinity that the fold starts from. -/
def stakeMin (members : List Candidate) : Option ℚ := (members.map Candidate.stake).min?

def stakeMax (members : List Candidate) : ℚ := (members.map Candidate.stake).foldl max 0

def stakeRel (members : List Candidate) : ℚ :=
  match stakeMin members with
  | some least =>
    if 0 < stakeMax members then (stakeMax members - least) / stakeMax members else 0
  | none => 0

/-- How many independent signals speak for one operator, and how tightly. -/
def confidence (members : List Candidate) : ℚ :=
  let spreadDays := createdSpreadDays members
  let rel := stakeRel members
  let overlap := meanOverlap members
  let born : ℚ := if spreadDays ≤ 1 then 1 / 4 else if spreadDays ≤ 3 then 1 / 10 else 0
  let stakes : ℚ :=
    if rel ≤ 3 / 100 then 1 / 5 else if rel ≤ 1 / 10 then 1 / 10
    else if rel ≤ 1 / 4 then 1 / 20 else 0
  let whales : ℚ := if ∀ least ∈ stakeMin members, highStakeGrt ≤ least then 3 / 20 else 0
  let crowding : ℚ :=
    if crowdOverlap ≤ overlap then 1 / 5 else if 1 / 2 ≤ overlap then 1 / 10 else 0
  min (2 / 5 + born + stakes + whales + crowding) 1

def clusterId (crates : Crates) (addresses : List String) : String :=
  "swarm-" ++ String.ofList ((crates.sha256Hex (",".intercalate addresses)).toList.take 10)

def buildCluster (crates : Crates) (members : List Candidate) : SybilCluster :=
  let addresses := (members.map Candidate.address).mergeSort fun a b => a ≤ b
  { clusterId := clusterId crates addresses
    confidence := confidence members
    memberCount := members.length
    members := addresses
    signals :=
      { memberCount := members.length
        createdSpreadDays := createdSpreadDays members
        selfStakeMinGrt := stakeMin members
        selfStakeMaxGrt := stakeMax members
        selfStakeRelSpread := stakeRel members
        allocationOverlap := meanOverlap members } }

section Cluster

variable (candidates : List Candidate)

def linkedPairs : List (Fin candidates.length × Fin candidates.length) :=
  (laterPairs (List.finRange candidates.length)).filter fun pair =>
    linked (candidates.get pair.1) (candidates.get pair.2)

/-- The indices under the root of each. `none` is a walk that has not ended. -/
def clusterGroups :
    Option (List (Fin candidates.length × List (Fin candidates.length))) := do
  let parent ← unionAll candidates.length (linkedPairs candidates)
  let roots ← findAll candidates.length parent (List.finRange candidates.length)
  some (pushAll roots).rows

/-- `cluster`, with the groups in the order the map is iterated. -/
def cluster (crates : Crates)
    (order : IterOrder (Fin candidates.length × List (Fin candidates.length))) :
    Option (List SybilCluster) :=
  (clusterGroups candidates).map fun groups =>
    (order.arrange groups).filterMap fun group =>
      if group.2.length < minMembers then none
      else some (buildCluster crates (group.2.map candidates.get))

end Cluster

end Foghorn.Probe
