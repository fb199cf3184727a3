import Foghorn.Std.Collections
import Foghorn.Core.Normalize
import Foghorn.Core.Tables

/-!
# Clustering the answers to one probe

Answers are grouped by hash through a hash map, so the clusters come in an order nobody
chooses, and `max_by_key` breaks ties by that order. What survives every order is
`computeClusters_spec`: the reported size is the number of votes for the reported hash,
and no hash has more.
-/

namespace Foghorn.Probe

open Foghorn.Std Foghorn.Core

structure ClusterInput where
  indexerAddress : String
  responseHash : Option String
  rawResponse : Option String
  stakeWeight : StakeWeight

structure ClusterResult where
  clusterCount : Nat
  diffPatches : Json
  largestByCountHash : String
  largestByCountSize : Nat
  largestByStakeHash : String
  largestByStakeWeight : StakeWeight
  isDivergent : Bool

structure Cluster where
  hash : String
  members : List String
  stakeWeight : StakeWeight

/-- One iteration order of the map from hashes to members. -/
abbrev ClusterOrder := IterOrder (String × List (String × StakeWeight))

/-- The pairs pushed into `hash_members`. -/
def hashedMembers (inputs : List ClusterInput) : List (String × (String × StakeWeight)) :=
  inputs.filterMap fun input =>
    input.responseHash.map fun hash => (hash, (input.indexerAddress, input.stakeWeight))

/-- `hash_to_raw.get(hash)`: the first raw body seen under a hash. -/
def hashToRaw (inputs : List ClusterInput) (hash : String) : Option String :=
  inputs.findSome? fun input => if input.responseHash = some hash then input.rawResponse else none

def Cluster.ofEntry (entry : String × List (String × StakeWeight)) : Cluster where
  hash := entry.1
  members := entry.2.map Prod.fst
  stakeWeight := (entry.2.map Prod.snd).foldl StakeWeight.add (.exact 0)

/-- `max_by(partial_cmp(..).unwrap())`: the last of the greatest; `none` is the panic on a
weight that compares with nothing. -/
def maxByStake (head : Cluster × Nat) (tail : List (Cluster × Nat)) : Option (Cluster × Nat) :=
  tail.foldlM (fun (best next : Cluster × Nat) =>
    match best.1.stakeWeight.partialCmp next.1.stakeWeight with
    | none => none
    | some Ordering.gt => some best
    | some _ => some next) head

def computeDiff (crates : Crates) (rawA rawB : String) : Json :=
  match crates.parse rawA, crates.parse rawB with
  | some a, some b => crates.jsonDiff (stripVolatile a) (stripVolatile b)
  | _, _ => .array []

def Cluster.weight (entry : Cluster × Nat) : Nat := entry.1.members.length

/-- The largest cluster by count against the next largest. -/
def diffPatches (crates : Crates) (inputs : List ClusterInput) (clusters : List Cluster)
    (byCountIdx : Nat) : Json :=
  let secondIdx := ((lastMaxBy Cluster.weight
    (clusters.zipIdx.filter fun entry => entry.2 ≠ byCountIdx)).map Prod.snd).getD
      (if byCountIdx = 0 then 1 else 0)
  match clusters[byCountIdx]?, clusters[secondIdx]? with
  | some a, some b =>
    match hashToRaw inputs a.hash, hashToRaw inputs b.hash with
    | some rawA, some rawB => computeDiff crates rawA rawB
    | _, _ => .array []
  | _, _ => .array []

def ClusterResult.empty : ClusterResult where
  clusterCount := 0
  diffPatches := .array []
  largestByCountHash := ""
  largestByCountSize := 0
  largestByStakeHash := ""
  largestByStakeWeight := .exact 0
  isDivergent := false

/-- The clusters in the order the map is iterated. -/
def clustersOf (order : ClusterOrder) (inputs : List ClusterInput) : List Cluster :=
  (order.arrange (pushAll (hashedMembers inputs)).rows).map Cluster.ofEntry

/-- `none` is the panic on an incomparable stake weight. -/
def computeClusters (crates : Crates) (order : ClusterOrder) (inputs : List ClusterInput) :
    Option ClusterResult :=
  let clusters := clustersOf order inputs
  match clusters.zipIdx, lastMaxBy Cluster.weight clusters.zipIdx with
  | head :: tail, some (byCount, byCountIdx) =>
    (maxByStake head tail).map fun (byStake, _) =>
      { clusterCount := clusters.length
        diffPatches :=
          if 1 < clusters.length then diffPatches crates inputs clusters byCountIdx else .array []
        largestByCountHash := byCount.hash
        largestByCountSize := byCount.members.length
        largestByStakeHash := byStake.hash
        largestByStakeWeight := byStake.stakeWeight
        isDivergent := 1 < clusters.length }
  | _, _ => some .empty

/-- The answers that carry one hash. -/
def votesFor (inputs : List ClusterInput) (hash : String) : Nat :=
  inputs.countP fun input => input.responseHash = some hash

/-- The answers that carry any hash: what the clusters are made of. -/
def hashedCount (inputs : List ClusterInput) : Nat :=
  inputs.countP fun input => input.responseHash.isSome

/-- Two hashes cannot both hold more than half of the answers. -/
theorem majority_votes_unique {inputs : List ClusterInput} {first second : String}
    (left : hashedCount inputs < 2 * votesFor inputs first)
    (right : hashedCount inputs < 2 * votesFor inputs second) : first = second := by
  by_contra different
  have disjoint : votesFor inputs first + votesFor inputs second ≤ hashedCount inputs := by
    apply countP_add_le
    · intro input isFirst
      simp only [decide_eq_true_eq, decide_eq_false_iff_not] at isFirst ⊢
      intro isSecond
      exact different (Option.some.inj (isFirst.symm.trans isSecond))
    · intro input isFirst
      simp [of_decide_eq_true isFirst]
    · intro input isSecond
      simp [of_decide_eq_true isSecond]
  omega

private theorem length_valuesAt_hashedMembers (inputs : List ClusterInput) (hash : String) :
    (valuesAt (hashedMembers inputs) hash).length = votesFor inputs hash := by
  induction inputs with
  | nil => rfl
  | cons input rest ih =>
    cases hashed : input.responseHash with
    | none =>
      have skipped : hashedMembers (input :: rest) = hashedMembers rest := by
        simp [hashedMembers, hashed]
      simp [skipped, ih, votesFor, hashed]
    | some other =>
      have pushed : hashedMembers (input :: rest) =
          (other, (input.indexerAddress, input.stakeWeight)) :: hashedMembers rest := by
        simp [hashedMembers, hashed]
      rw [pushed]
      by_cases same : other = hash
      · simp [valuesAt, votesFor, hashed, same] at ih ⊢
        exact ih
      · simp [valuesAt, votesFor, hashed, same] at ih ⊢
        exact ih

/-- Every cluster is the votes for its hash. -/
theorem mem_clustersOf {order : ClusterOrder} {inputs : List ClusterInput} {cluster : Cluster}
    (member : cluster ∈ clustersOf order inputs) :
    cluster.members.length = votesFor inputs cluster.hash ∧ 0 < votesFor inputs cluster.hash := by
  obtain ⟨⟨hash, values⟩, entry, rfl⟩ := List.mem_map.mp member
  rw [IterOrder.mem_arrange, Table.mem_rows] at entry
  obtain ⟨rfl, nonempty⟩ := (mem_pushAll _ _ _).mp entry
  simp only [Cluster.ofEntry, List.length_map, length_valuesAt_hashedMembers]
  refine ⟨trivial, ?_⟩
  rw [← length_valuesAt_hashedMembers]
  exact List.length_pos_of_ne_nil nonempty

/-- Every hash anyone voted for has its cluster. -/
theorem exists_mem_clustersOf {order : ClusterOrder} {inputs : List ClusterInput} {hash : String}
    (voted : 0 < votesFor inputs hash) :
    ∃ cluster ∈ clustersOf order inputs, cluster.hash = hash := by
  rw [← length_valuesAt_hashedMembers] at voted
  refine ⟨Cluster.ofEntry (hash, valuesAt (hashedMembers inputs) hash), ?_, rfl⟩
  apply List.mem_map_of_mem
  rw [IterOrder.mem_arrange, Table.mem_rows, mem_pushAll]
  exact ⟨rfl, List.ne_nil_of_length_pos voted⟩

private theorem exists_indexed {clusters : List Cluster} {cluster : Cluster}
    (present : cluster ∈ clusters) : ∃ position, (cluster, position) ∈ clusters.zipIdx := by
  obtain ⟨position, found⟩ := List.mem_iff_getElem?.mp present
  exact ⟨position, List.mem_zipIdx_iff_getElem?.mpr found⟩

/-- In every order, the reported size is the votes for the reported hash, and no hash has
more. -/
theorem computeClusters_spec {crates : Crates} {order : ClusterOrder}
    {inputs : List ClusterInput} {clusters : ClusterResult}
    (computed : computeClusters crates order inputs = some clusters) :
    clusters.largestByCountSize = votesFor inputs clusters.largestByCountHash ∧
      ∀ hash, votesFor inputs hash ≤ clusters.largestByCountSize := by
  unfold computeClusters at computed
  dsimp only at computed
  split at computed
  · -- The last largest cluster of a nonempty list.
    rename_i head tail byCount byCountIdx _ chosen
    obtain ⟨byStake, -, rfl⟩ := Option.map_eq_some_iff.mp computed
    obtain ⟨member, greatest⟩ := lastMaxBy_spec chosen
    have votes := (mem_clustersOf (List.fst_mem_of_mem_zipIdx member)).1
    refine ⟨votes, fun hash => ?_⟩
    by_cases voted : 0 < votesFor inputs hash
    · obtain ⟨cluster, present, rfl⟩ := exists_mem_clustersOf voted
      obtain ⟨position, indexed⟩ := exists_indexed present
      rw [← (mem_clustersOf present).1]
      exact greatest _ indexed
    · omega
  · -- No answer was hashed.
    rename_i absent
    obtain rfl := Option.some.inj computed
    have none_voted : ∀ hash, votesFor inputs hash = 0 := by
      intro hash
      by_contra voted
      obtain ⟨cluster, present, _⟩ :=
        exists_mem_clustersOf (Nat.pos_of_ne_zero voted)
      obtain ⟨position, indexed⟩ := exists_indexed present
      obtain ⟨head, tail, entries⟩ := List.exists_cons_of_ne_nil (List.ne_nil_of_mem indexed)
      exact absent head tail _ _ entries (by rw [entries]; rfl)
    simp [ClusterResult.empty, none_voted]

section Panic

/-- An answer among these has this hash and this weight. -/
def Weighs (inputs : List ClusterInput) (hash : String) (weight : StakeWeight) : Prop :=
  ∃ input ∈ inputs, input.responseHash = some hash ∧ input.stakeWeight = weight

/-- The answers under one hash have no comparable total: a weight is not a number, or weights are
infinite both ways. -/
def NoTotal (inputs : List ClusterInput) (hash : String) : Prop :=
  Weighs inputs hash .nan ∨
    Weighs inputs hash (.infinite true) ∧ Weighs inputs hash (.infinite false)

private theorem partialCmp_eq_none_iff {left right : StakeWeight} :
    left.partialCmp right = none ↔ left = .nan ∨ right = .nan := by
  cases left <;> cases right <;> simp [StakeWeight.partialCmp]

/-- The comparison panics when there is something to compare and one weight is not a number. -/
theorem maxByStake_eq_none_iff {head : Cluster × Nat} {tail : List (Cluster × Nat)} :
    maxByStake head tail = none ↔
      tail ≠ [] ∧ ∃ entry ∈ head :: tail, entry.1.stakeWeight = .nan := by
  induction tail generalizing head with
  | nil => exact iff_of_false (fun none_ => by cases none_) fun held => held.1 rfl
  | cons next rest ih =>
    rw [and_iff_right (List.cons_ne_nil _ _), List.exists_mem_cons_iff, List.exists_mem_cons_iff]
    cases compared : head.1.stakeWeight.partialCmp next.1.stakeWeight with
    | none =>
      have stuck : maxByStake head (next :: rest) = none := by
        simp [maxByStake, List.foldlM_cons, compared]
      refine iff_of_true stuck ?_
      rcases partialCmp_eq_none_iff.mp compared with headNan | nextNan
      · exact .inl headNan
      · exact .inr (.inl nextNan)
    | some ordering =>
      have exact_ := mt partialCmp_eq_none_iff.mpr (by rw [compared]; exact Option.some_ne_none _)
      obtain ⟨headExact, nextExact⟩ := not_or.mp exact_
      obtain ⟨best, chosen, step⟩ : ∃ best, (best = head ∨ best = next) ∧
          maxByStake head (next :: rest) = maxByStake best rest := by
        cases ordering with
        | gt => exact ⟨head, .inl rfl, by simp [maxByStake, List.foldlM_cons, compared]⟩
        | lt => exact ⟨next, .inr rfl, by simp [maxByStake, List.foldlM_cons, compared]⟩
        | eq => exact ⟨next, .inr rfl, by simp [maxByStake, List.foldlM_cons, compared]⟩
      have bestExact : best.1.stakeWeight ≠ .nan := by
        rcases chosen with rfl | rfl
        · exact headExact
        · exact nextExact
      rw [step, ih, List.exists_mem_cons_iff, or_iff_right headExact, or_iff_right nextExact,
        or_iff_right bestExact]
      refine and_iff_right_of_imp ?_
      rintro ⟨entry, listed, _⟩
      exact List.ne_nil_of_mem listed

/-- The weights of a sum include NaN, or both infinities. -/
def Unsummable (weights : List StakeWeight) : Prop :=
  .nan ∈ weights ∨ .infinite true ∈ weights ∧ .infinite false ∈ weights

private theorem foldl_add_eq_nan_iff {weights : List StakeWeight} {start : StakeWeight} :
    weights.foldl StakeWeight.add start = .nan ↔ Unsummable (start :: weights) := by
  induction weights generalizing start with
  | nil => cases start <;> simp [Unsummable]
  | cons weight rest ih =>
    rw [List.foldl_cons, ih]
    cases start with
    | nan => simp [StakeWeight.add, Unsummable]
    | exact value => cases weight <;> simp [StakeWeight.add, Unsummable]
    | infinite positive =>
      cases weight with
      | nan => simp [StakeWeight.add, Unsummable]
      | exact value => simp [StakeWeight.add, Unsummable]
      | infinite other => cases positive <;> cases other <;> simp [StakeWeight.add, Unsummable]

private theorem mem_valuesAt_hashedMembers {inputs : List ClusterInput} {hash : String}
    {weight : StakeWeight} :
    weight ∈ (valuesAt (hashedMembers inputs) hash).map Prod.snd ↔ Weighs inputs hash weight := by
  simp only [valuesAt, hashedMembers, Weighs, List.mem_map, List.mem_filter, List.mem_filterMap,
    Option.map_eq_some_iff]
  constructor
  · rintro ⟨_, ⟨entry, ⟨⟨input, listed, found, hashed, rfl⟩, same⟩, rfl⟩, rfl⟩
    obtain rfl := of_decide_eq_true same
    exact ⟨input, listed, hashed, rfl⟩
  · rintro ⟨input, listed, hashed, rfl⟩
    exact ⟨_, ⟨_, ⟨⟨input, listed, hash, hashed, rfl⟩, decide_eq_true rfl⟩, rfl⟩, rfl⟩

/-- A cluster weighs nothing comparable when its answers have no total. -/
theorem exists_nan_clustersOf {order : ClusterOrder} {inputs : List ClusterInput} :
    (∃ cluster ∈ clustersOf order inputs, cluster.stakeWeight = .nan) ↔
      ∃ hash, NoTotal inputs hash := by
  have weight (hash : String) :
      (Cluster.ofEntry (hash, valuesAt (hashedMembers inputs) hash)).stakeWeight = .nan ↔
        NoTotal inputs hash := by
    rw [Cluster.ofEntry, foldl_add_eq_nan_iff]
    simp only [Unsummable, NoTotal, List.mem_cons, reduceCtorEq, false_or,
      mem_valuesAt_hashedMembers]
  constructor
  · rintro ⟨cluster, member, nan⟩
    obtain ⟨⟨hash, values⟩, entry, rfl⟩ := List.mem_map.mp member
    rw [IterOrder.mem_arrange, Table.mem_rows] at entry
    obtain ⟨rfl, -⟩ := (mem_pushAll _ _ _).mp entry
    exact ⟨hash, (weight hash).mp nan⟩
  · rintro ⟨hash, noTotal⟩
    obtain ⟨any, listed⟩ : ∃ any, any ∈ valuesAt (hashedMembers inputs) hash := by
      rcases noTotal with nan | ⟨infinite, -⟩
      · obtain ⟨any, listed, -⟩ := List.mem_map.mp (mem_valuesAt_hashedMembers.mpr nan)
        exact ⟨any, listed⟩
      · obtain ⟨any, listed, -⟩ := List.mem_map.mp (mem_valuesAt_hashedMembers.mpr infinite)
        exact ⟨any, listed⟩
    refine ⟨Cluster.ofEntry (hash, valuesAt (hashedMembers inputs) hash), List.mem_map_of_mem ?_,
      (weight hash).mpr noTotal⟩
    rw [IterOrder.mem_arrange, Table.mem_rows, mem_pushAll]
    exact ⟨rfl, List.ne_nil_of_mem listed⟩

/-- Some two answers differ. -/
def Differ (inputs : List ClusterInput) : Prop :=
  ∃ left right, left ≠ right ∧ 0 < votesFor inputs left ∧ 0 < votesFor inputs right

/-- Clusters have distinct hashes. -/
theorem nodup_clustersOf (order : ClusterOrder) (inputs : List ClusterInput) :
    ((clustersOf order inputs).map Cluster.hash).Nodup := by
  have hashes : (clustersOf order inputs).map Cluster.hash =
      (order.arrange (pushAll (hashedMembers inputs)).rows).map Prod.fst := by
    rw [clustersOf, List.map_map]
    rfl
  rw [hashes]
  apply ((order.perm _).map Prod.fst).nodup_iff.mpr
  exact (pushAll (hashedMembers inputs)).unique

/-- There is more than one cluster exactly when two answers differ. -/
theorem one_lt_clustersOf {order : ClusterOrder} {inputs : List ClusterInput} :
    1 < (clustersOf order inputs).length ↔ Differ inputs := by
  constructor
  · intro several
    have distinct := nodup_clustersOf order inputs
    have voted := @mem_clustersOf order inputs
    rcases clusters : clustersOf order inputs with _ | ⟨first, _ | ⟨second, rest⟩⟩
    · simp [clusters] at several
    · simp [clusters] at several
    · rw [clusters, List.map_cons, List.map_cons, List.nodup_cons] at distinct
      rw [clusters] at voted
      refine ⟨first.hash, second.hash, ?_, (voted List.mem_cons_self).2,
        (voted (List.mem_cons_of_mem _ List.mem_cons_self)).2⟩
      intro same
      exact distinct.1 (same ▸ List.mem_cons_self)
  · rintro ⟨left, right, differ, leftVoted, rightVoted⟩
    obtain ⟨first, firstMember, rfl⟩ := @exists_mem_clustersOf order _ _ leftVoted
    obtain ⟨second, secondMember, rfl⟩ := @exists_mem_clustersOf order _ _ rightVoted
    rcases clusters : clustersOf order inputs with _ | ⟨only, _ | ⟨_, rest⟩⟩
    · exact absurd (clusters ▸ firstMember) List.not_mem_nil
    · rw [clusters, List.mem_singleton] at firstMember secondMember
      exact absurd (by rw [firstMember, secondMember]) differ
    · simp

/-- The clustering panics when two answers differ and those under some hash have no total. -/
theorem computeClusters_eq_none_iff {crates : Crates} {order : ClusterOrder}
    {inputs : List ClusterInput} : computeClusters crates order inputs = none ↔
      Differ inputs ∧ ∃ hash, NoTotal inputs hash := by
  rw [← @one_lt_clustersOf order, ← @exists_nan_clustersOf order]
  unfold computeClusters
  dsimp only
  cases entries : (clustersOf order inputs).zipIdx with
  | nil =>
    have empty : clustersOf order inputs = [] := by simpa using entries
    simp [empty]
  | cons head tail =>
    obtain ⟨byCount, byCountIdx, chosen⟩ : ∃ byCount byCountIdx,
        lastMaxBy Cluster.weight (head :: tail) = some (byCount, byCountIdx) := ⟨_, _, rfl⟩
    have length : (clustersOf order inputs).length = tail.length + 1 := by
      rw [← List.length_zipIdx, entries, List.length_cons]
    have weights : (∃ entry ∈ head :: tail, entry.1.stakeWeight = .nan) ↔
        ∃ cluster ∈ clustersOf order inputs, cluster.stakeWeight = .nan := by
      rw [← entries]
      constructor
      · rintro ⟨entry, member, nan⟩
        exact ⟨entry.1, List.fst_mem_of_mem_zipIdx member, nan⟩
      · rintro ⟨cluster, member, nan⟩
        obtain ⟨position, indexed⟩ := exists_indexed member
        exact ⟨_, indexed, nan⟩
    simp only [chosen, Option.map_eq_none_iff, maxByStake_eq_none_iff, weights, length,
      Nat.lt_add_left_iff_pos, List.length_pos_iff]

end Panic

end Foghorn.Probe
