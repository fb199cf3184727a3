import Mathlib.Tactic.Linarith
import Mathlib.Algebra.Order.Field.Basic
import Mathlib.Algebra.Order.Field.Rat
import Foghorn.Probe.Sybil

/-!
# Swarms as connected components

The representative of a candidate is shared by what the graph of links connects it to, so the
groups are the connected components. Nothing that is computed of a group depends on the order
of its members.
-/

namespace Foghorn.Probe

open Foghorn.Std Foghorn.Core

section Graph

/-- Created within the window with stakes within the tolerance of the larger, or both very
large; or crowding. -/
def SameOperator (a b : Candidate) : Prop :=
  (|a.createdAt - b.createdAt| ≤ createdWindowSecs ∧
    (|a.stake - b.stake| ≤ stakeRelTol * max a.stake b.stake ∨
      highStakeGrt ≤ a.stake ∧ highStakeGrt ≤ b.stake)) ∨ crowds a b

/-- The code links two candidates exactly when they pass for one operator. -/
theorem linked_iff {a b : Candidate} (positive : 0 < a.stake) :
    linked a b = true ↔ SameOperator a b := by
  have larger : 0 < max a.stake b.stake := positive.trans_le (le_max_left _ _)
  simp only [linked, SameOperator, Bool.or_eq_true, Bool.and_eq_true, decide_eq_true_eq,
    div_le_iff₀ larger]

private theorem overlapCoefficient_comm (a b : Finset String) :
    overlapCoefficient a b = overlapCoefficient b a := by
  unfold overlapCoefficient
  rw [min_comm, Finset.inter_comm]

private theorem crowds_comm {a b : Candidate} : crowds a b ↔ crowds b a := by
  unfold crowds
  rw [overlapCoefficient_comm]
  tauto

private theorem SameOperator.symm {a b : Candidate} (same : SameOperator a b) :
    SameOperator b a := by
  rcases same with ⟨close, stakes⟩ | crowding
  · refine .inl ⟨by rwa [abs_sub_comm], ?_⟩
    rw [abs_sub_comm, max_comm, and_comm]
    exact stakes
  · exact .inr (crowds_comm.mp crowding)

/-- The candidates, with an edge between any two of the same operator. -/
def swarmGraph (candidates : List Candidate) : SimpleGraph Candidate where
  Adj a b := a ∈ candidates ∧ b ∈ candidates ∧ a ≠ b ∧ SameOperator a b
  symm := ⟨fun _ _ edge => ⟨edge.2.1, edge.1, edge.2.2.1.symm, edge.2.2.2.symm⟩⟩
  loopless := ⟨fun _ edge => edge.2.2.1 rfl⟩

/-- The graph depends only on which candidates are listed. -/
theorem swarmGraph_congr {candidates other : List Candidate}
    (same : ∀ c, c ∈ candidates ↔ c ∈ other) : swarmGraph candidates = swarmGraph other := by
  ext a b
  simp only [swarmGraph, same]

end Graph

section Pairs

variable {α : Type}

/-- The double loop meets every two entries, in one order. -/
theorem mem_laterPairs_or {entries : List α} {a b : α} (a_listed : a ∈ entries)
    (b_listed : b ∈ entries) (apart : a ≠ b) :
    (a, b) ∈ laterPairs entries ∨ (b, a) ∈ laterPairs entries := by
  induction entries with
  | nil => cases a_listed
  | cons first rest ih =>
    rw [laterPairs, List.mem_append, List.mem_append]
    rcases List.mem_cons.mp a_listed with rfl | a_later
    · rcases List.mem_cons.mp b_listed with rfl | b_later
      · exact absurd rfl apart
      · exact .inl (.inl (List.mem_map.mpr ⟨b, b_later, rfl⟩))
    · rcases List.mem_cons.mp b_listed with rfl | b_later
      · exact .inr (.inl (List.mem_map.mpr ⟨a, a_later, rfl⟩))
      · exact (ih a_later b_later).imp .inr .inr

/-- What is summed over the pairs does not depend on the order of the entries. -/
theorem laterPairs_map_perm {β : Type} {value : α → α → β} (comm : ∀ a b, value a b = value b a)
    {entries other : List α} (perm : entries.Perm other) :
    ((laterPairs entries).map fun pair => value pair.1 pair.2).Perm
      ((laterPairs other).map fun pair => value pair.1 pair.2) := by
  induction perm with
  | nil => exact .refl _
  | cons first rest ih =>
    simp only [laterPairs, List.map_append, List.map_map]
    exact (rest.map _).append ih
  | swap first second rest =>
    simp only [laterPairs, List.map_append, List.map_map, List.map_cons, List.cons_append,
      Function.comp_def]
    rw [comm first second]
    refine .cons _ ?_
    rw [← List.append_assoc, ← List.append_assoc]
    exact List.perm_append_comm.append_right _
  | trans _ _ first second => exact first.trans second

end Pairs

section Build

private theorem min?_perm {ι : Type} [LinearOrder ι] {entries other : List ι}
    (perm : entries.Perm other) :
    entries.min? = other.min? :=
  Option.ext fun least => by
    rw [List.min?_eq_some_iff, List.min?_eq_some_iff, perm.mem_iff]
    simp only [perm.mem_iff]

private theorem max?_perm {ι : Type} [LinearOrder ι] {entries other : List ι}
    (perm : entries.Perm other) :
    entries.max? = other.max? :=
  Option.ext fun greatest => by
    rw [List.max?_eq_some_iff, List.max?_eq_some_iff, perm.mem_iff]
    simp only [perm.mem_iff]

variable {members other : List Candidate}

private theorem meanOverlap_perm (perm : members.Perm other) :
    meanOverlap members = meanOverlap other := by
  have values := laterPairs_map_perm
    (fun a b : Candidate => overlapCoefficient_comm a.allocations b.allocations) perm
  have length : (laterPairs members).length = (laterPairs other).length := by
    simpa using values.length_eq
  unfold meanOverlap
  simp only [length, values.sum_eq]

private theorem createdSpreadDays_perm (perm : members.Perm other) :
    createdSpreadDays members = createdSpreadDays other := by
  simp only [createdSpreadDays, max?_perm (perm.map Candidate.createdAt),
    min?_perm (perm.map Candidate.createdAt)]

private theorem stakeMin_perm (perm : members.Perm other) : stakeMin members = stakeMin other :=
  min?_perm (perm.map _)

private theorem stakeMax_perm (perm : members.Perm other) : stakeMax members = stakeMax other :=
  (perm.map _).foldl_eq _

private theorem stakeRel_perm (perm : members.Perm other) : stakeRel members = stakeRel other := by
  unfold stakeRel
  rw [stakeMin_perm perm, stakeMax_perm perm]

/-- The confidence does not depend on the order of the members. -/
theorem confidence_perm (perm : members.Perm other) : confidence members = confidence other := by
  unfold confidence
  rw [createdSpreadDays_perm perm, stakeRel_perm perm, meanOverlap_perm perm, stakeMin_perm perm]

/-- Nothing that is built of a group depends on the order of its members. -/
theorem buildCluster_perm (crates : Crates) (perm : members.Perm other) :
    buildCluster crates members = buildCluster crates other := by
  simp only [buildCluster, mergeSort_eq_of_perm (perm.map Candidate.address), confidence_perm perm,
    perm.length_eq, createdSpreadDays_perm perm, stakeMin_perm perm, stakeMax_perm perm,
    stakeRel_perm perm, meanOverlap_perm perm]

/-- The confidence lies between 0.4 and 1. -/
theorem confidence_bounds (members : List Candidate) :
    2 / 5 ≤ confidence members ∧ confidence members ≤ 1 := by
  refine ⟨le_min ?_ (by norm_num), min_le_right _ _⟩
  split_ifs <;> norm_num

private theorem mem_members_buildCluster {crates : Crates} {address : String} :
    address ∈ (buildCluster crates members).members ↔ ∃ c ∈ members, c.address = address := by
  simp [buildCluster]

end Build

section Groups

variable {candidates : List Candidate}

/-- What the edges of the graph are among the pairs of the double loop. -/
theorem mergeAll_linkedPairs_eq_iff (positive : ∀ c ∈ candidates, 0 < c.stake)
    (distinct : candidates.Nodup) {i j : Fin candidates.length} :
    mergeAll (linkedPairs candidates) i = mergeAll (linkedPairs candidates) j ↔
      (swarmGraph candidates).Reachable (candidates.get i) (candidates.get j) := by
  have at_pos (i : Fin candidates.length) : 0 < (candidates.get i).stake :=
    positive _ (List.get_mem _ _)
  rw [mergeAll_eq_iff]
  constructor
  · intro connected
    induction connected with
    | rel i j listed =>
      by_cases same : candidates.get i = candidates.get j
      · rw [same]
      · have together := (linked_iff (at_pos i)).mp (List.mem_filter.mp listed).2
        have edge : (swarmGraph candidates).Adj (candidates.get i) (candidates.get j) :=
          ⟨List.get_mem _ _, List.get_mem _ _, same, together⟩
        exact edge.reachable
    | refl => exact .rfl
    | symm _ _ _ ih => exact ih.symm
    | trans _ _ _ _ _ first second => exact first.trans second
  · intro reached
    rw [SimpleGraph.reachable_iff_reflTransGen] at reached
    have path {b : Candidate} (steps : Relation.ReflTransGen (swarmGraph candidates).Adj
        (candidates.get i) b) : ∃ k, candidates.get k = b ∧
          Relation.EqvGen (fun a b => (a, b) ∈ linkedPairs candidates) i k := by
      induction steps with
      | refl => exact ⟨i, rfl, .refl i⟩
      | tail _ edge ih =>
        obtain ⟨k, rfl, connected⟩ := ih
        obtain ⟨-, listed, apart, together⟩ := edge
        obtain ⟨l, rfl⟩ := List.get_of_mem listed
        have other : k ≠ l := fun eq => apart (congrArg _ eq)
        refine ⟨l, rfl, connected.trans _ _ _ ?_⟩
        rcases mem_laterPairs_or (List.mem_finRange k) (List.mem_finRange l) other with pair | pair
        · exact .rel _ _ (List.mem_filter.mpr ⟨pair, (linked_iff (at_pos k)).mpr together⟩)
        · exact .symm _ _ (.rel _ _
            (List.mem_filter.mpr ⟨pair, (linked_iff (at_pos l)).mpr together.symm⟩))
    obtain ⟨k, same, connected⟩ := path reached
    exact List.nodup_iff_injective_get.mp distinct same ▸ connected

private theorem valuesAt_map_pair {ι κ : Type} [DecidableEq κ] (rep : ι → κ) (points : List ι)
    (root : κ) :
    valuesAt (points.map fun x => (rep x, x)) root = points.filter fun x => rep x = root := by
  rw [valuesAt, List.filter_map, List.map_map]
  exact List.map_id _

/-- Every walk ends, and the groups hold the indices of one representative. -/
theorem exists_clusterGroups (candidates : List Candidate) :
    ∃ groups, clusterGroups candidates = some groups ∧
      (groups.Pairwise fun one two => one.1 ≠ two.1) ∧
      ∀ root idxs, (root, idxs) ∈ groups ↔
        idxs = ((List.finRange candidates.length).filter fun i =>
          mergeAll (linkedPairs candidates) i = root) ∧ idxs ≠ [] := by
  obtain ⟨rank, parent, united, forest⟩ := exists_unionAll (linkedPairs candidates)
  have found := forest.findAll_eq (List.finRange candidates.length)
  rw [Fintype.card_fin] at united found
  refine ⟨_, by rw [clusterGroups, united, Option.bind_eq_bind, Option.bind_some, found]; rfl, ?_, ?_⟩
  · exact List.pairwise_map.mp (pushAll _).unique
  · intro root idxs
    rw [← valuesAt_map_pair]
    exact mem_pushAll _ root idxs

/-- Clustering always comes to an end. -/
theorem exists_cluster (candidates : List Candidate) (crates : Crates)
    (order : IterOrder (Fin candidates.length × List (Fin candidates.length))) :
    ∃ clusters, cluster candidates crates order = some clusters := by
  obtain ⟨groups, grouped, -⟩ := exists_clusterGroups candidates
  exact ⟨_, by rw [cluster, grouped, Option.map_some]⟩

end Groups

section Swarms

variable {candidates : List Candidate}

open Classical in
/-- The candidates that the links connect to one of them. -/
noncomputable def swarm (candidates : List Candidate) (start : Candidate) : List Candidate :=
  candidates.filter fun c => (swarmGraph candidates).Reachable start c

/-- What is merged with a candidate is its swarm. -/
theorem map_get_group (positive : ∀ c ∈ candidates, 0 < c.stake) (distinct : candidates.Nodup)
    (i : Fin candidates.length) :
    ((List.finRange candidates.length).filter fun j =>
        mergeAll (linkedPairs candidates) j = mergeAll (linkedPairs candidates) i).map
      candidates.get = swarm candidates (candidates.get i) := by
  classical
  have all : (List.finRange candidates.length).map candidates.get = candidates :=
    List.map_get_finRange candidates
  refine Eq.trans ?_ (congrArg (List.filter _) all)
  rw [List.filter_map]
  refine congrArg (List.map _) (List.filter_congr fun j _ => ?_)
  simp only [Function.comp_apply, decide_eq_decide]
  rw [mergeAll_linkedPairs_eq_iff positive distinct, SimpleGraph.reachable_comm]

/-- A swarm is reported exactly for the large classes. -/
theorem mem_cluster_iff (positive : ∀ c ∈ candidates, 0 < c.stake) (distinct : candidates.Nodup)
    {crates : Crates} {order : IterOrder (Fin candidates.length × List (Fin candidates.length))}
    {clusters : List SybilCluster} (done : cluster candidates crates order = some clusters)
    {found : SybilCluster} :
    found ∈ clusters ↔ ∃ start ∈ candidates, minMembers ≤ (swarm candidates start).length ∧
      found = buildCluster crates (swarm candidates start) := by
  obtain ⟨groups, grouped, -, mem_groups⟩ := exists_clusterGroups candidates
  rw [cluster, grouped, Option.map_some] at done
  obtain rfl := Option.some.inj done
  rw [List.mem_filterMap]
  constructor
  · rintro ⟨⟨root, idxs⟩, listed, reported⟩
    obtain ⟨rfl, nonempty⟩ := (mem_groups root idxs).mp ((order.mem_arrange _ _).mp listed)
    obtain ⟨i, there⟩ := List.exists_mem_of_ne_nil _ nonempty
    obtain rfl : mergeAll (linkedPairs candidates) i = root := by simpa using there
    split at reported
    · cases reported
    · next large =>
      rw [map_get_group positive distinct] at reported
      refine ⟨candidates.get i, List.get_mem _ _, ?_, (Option.some.inj reported).symm⟩
      rw [← map_get_group positive distinct, List.length_map]
      exact not_lt.mp large
  · rintro ⟨start, listed, large, rfl⟩
    obtain ⟨i, rfl⟩ := List.get_of_mem listed
    rw [← map_get_group positive distinct, List.length_map] at large
    refine ⟨(mergeAll (linkedPairs candidates) i, _), (order.mem_arrange _ _).mpr
      ((mem_groups _ _).mpr ⟨rfl, ?_⟩), ?_⟩
    · exact List.ne_nil_of_length_pos (Nat.lt_of_lt_of_le (by decide) large)
    · rw [if_neg (not_lt.mpr large), map_get_group positive distinct]

/-- No address is in two of the reported clusters. -/
theorem cluster_disjoint (distinct : (candidates.map Candidate.address).Nodup) {crates : Crates}
    {order : IterOrder (Fin candidates.length × List (Fin candidates.length))}
    {clusters : List SybilCluster} (done : cluster candidates crates order = some clusters) :
    clusters.Pairwise fun one two => ∀ address ∈ one.members, address ∉ two.members := by
  obtain ⟨groups, grouped, roots, mem_groups⟩ := exists_clusterGroups candidates
  rw [cluster, grouped, Option.map_some] at done
  obtain rfl := Option.some.inj done
  have apart : (order.arrange groups).Pairwise fun one two => one.1 ≠ two.1 :=
    ((order.perm groups).pairwise_iff fun ne => ne.symm).mpr roots
  rw [List.pairwise_filterMap]
  refine apart.imp_of_mem fun {one two} one_listed two_listed ne => ?_
  intro first first_reported second second_reported address in_first in_second
  -- The index of an address is under one root.
  have at_index {group : Fin candidates.length × List (Fin candidates.length)}
      (listed : group ∈ order.arrange groups) {reported : SybilCluster}
      (built : (if group.2.length < minMembers then none
        else some (buildCluster crates (group.2.map candidates.get))) = some reported)
      (there : address ∈ reported.members) :
      ∃ i, (candidates.get i).address = address ∧
        mergeAll (linkedPairs candidates) i = group.1 := by
    split at built
    · cases built
    · cases built
      obtain ⟨c, c_listed, same⟩ := mem_members_buildCluster.mp there
      obtain ⟨i, i_listed, rfl⟩ := List.mem_map.mp c_listed
      rw [((mem_groups _ _).mp ((order.mem_arrange _ _).mp listed)).1] at i_listed
      exact ⟨i, same, by simpa using i_listed⟩
  obtain ⟨i, i_address, i_root⟩ := at_index one_listed first_reported in_first
  obtain ⟨j, j_address, j_root⟩ := at_index two_listed second_reported in_second
  have same : candidates.get i = candidates.get j :=
    List.inj_on_of_nodup_map distinct (List.get_mem _ _) (List.get_mem _ _)
      (i_address.trans j_address.symm)
  obtain rfl := List.nodup_iff_injective_get.mp (List.Nodup.of_map _ distinct) same
  exact ne (i_root.symm.trans j_root)

/-- The members of a swarm are a component of the graph. -/
theorem mem_swarm_iff {start c : Candidate} (listed : start ∈ candidates) :
    c ∈ swarm candidates start ↔ (swarmGraph candidates).Reachable start c := by
  classical
  rw [swarm, List.mem_filter, decide_eq_true_eq]
  refine ⟨And.right, fun reached => ⟨?_, reached⟩⟩
  rw [SimpleGraph.reachable_iff_reflTransGen] at reached
  cases reached with
  | refl => exact listed
  | tail _ edge => exact edge.2.1

/-- A swarm does not depend on the order of the candidates. -/
theorem swarm_perm {other : List Candidate} (perm : candidates.Perm other) (start : Candidate) :
    (swarm candidates start).Perm (swarm other start) := by
  classical
  rw [swarm, swarm, swarmGraph_congr fun c => perm.mem_iff]
  exact perm.filter _

private theorem mem_supp_iff {start c : Candidate} (listed : start ∈ candidates) :
    c ∈ ((swarmGraph candidates).connectedComponentMk start).supp ↔ c ∈ swarm candidates start := by
  rw [SimpleGraph.ConnectedComponent.mem_supp_iff, SimpleGraph.ConnectedComponent.eq,
    SimpleGraph.reachable_comm, mem_swarm_iff listed]

private theorem encard_supp (distinct : candidates.Nodup) {start : Candidate}
    (listed : start ∈ candidates) :
    ((swarmGraph candidates).connectedComponentMk start).supp.encard =
      (swarm candidates start).length := by
  classical
  have members : ((swarmGraph candidates).connectedComponentMk start).supp =
      ((swarm candidates start).toFinset : Set Candidate) := by
    ext c
    rw [mem_supp_iff listed, List.coe_toFinset, Set.mem_ofPred_eq]
  have swarm_nodup : (swarm candidates start).Nodup := distinct.filter _
  rw [members, Set.encard_coe_eq_coe_finsetCard, List.toFinset_card_of_nodup swarm_nodup]

private theorem image_supp {crates : Crates} {start : Candidate} (listed : start ∈ candidates) :
    Candidate.address '' ((swarmGraph candidates).connectedComponentMk start).supp =
      {m | m ∈ (buildCluster crates (swarm candidates start)).members} := by
  ext address
  rw [Set.mem_ofPred_eq, mem_members_buildCluster, Set.mem_image]
  simp only [mem_supp_iff listed]

/-- A component with more than one member is that of a candidate. -/
theorem exists_start {component : (swarmGraph candidates).ConnectedComponent}
    (large : minMembers ≤ component.supp.encard) :
    ∃ start ∈ candidates, (swarmGraph candidates).connectedComponentMk start = component := by
  have several : 1 < component.supp.encard := lt_of_lt_of_le (by decide) large
  obtain ⟨a, b, a_in, b_in, apart⟩ := Set.one_lt_encard_iff.mp several
  have reached : (swarmGraph candidates).Reachable a b :=
    SimpleGraph.ConnectedComponent.eq.mp (a_in.trans b_in.symm)
  rw [SimpleGraph.reachable_iff_reflTransGen] at reached
  rcases reached.cases_head with same | ⟨c, edge, -⟩
  · exact absurd same apart
  · exact ⟨a, edge.1, a_in⟩

/-- The swarm clusters are the connected components with enough members: every walk of
union-find ends, no candidate is in two clusters, and neither the order of the candidates nor
that of the map matters. -/
theorem swarm_clusters_are_components (crates : Crates) (candidates : List Candidate)
    (order : IterOrder (Fin candidates.length × List (Fin candidates.length)))
    (positive : ∀ c ∈ candidates, 0 < c.stake)
    (distinct : (candidates.map Candidate.address).Nodup) :
    ∃ clusters, cluster candidates crates order = some clusters ∧
      (∀ members : Set String, (∃ found ∈ clusters, {m | m ∈ found.members} = members) ↔
        ∃ component : (swarmGraph candidates).ConnectedComponent,
          minMembers ≤ component.supp.encard ∧ Candidate.address '' component.supp = members) ∧
      (clusters.Pairwise fun one two => ∀ address ∈ one.members, address ∉ two.members) ∧
      (∀ found ∈ clusters, 2 / 5 ≤ found.confidence ∧ found.confidence ≤ 1) ∧
      ∀ (other : List Candidate)
        (otherOrder : IterOrder (Fin other.length × List (Fin other.length))),
        other.Perm candidates → ∃ others, cluster other crates otherOrder = some others ∧
          ∀ found, found ∈ others ↔ found ∈ clusters := by
  have nodup := List.Nodup.of_map _ distinct
  obtain ⟨clusters, done⟩ := exists_cluster candidates crates order
  refine ⟨clusters, done, fun members => ?_, cluster_disjoint distinct done, fun found listed => ?_,
    fun other otherOrder perm => ?_⟩
  · constructor
    · rintro ⟨found, listed, rfl⟩
      obtain ⟨start, there, large, rfl⟩ := (mem_cluster_iff positive nodup done).mp listed
      refine ⟨(swarmGraph candidates).connectedComponentMk start, ?_, ?_⟩
      · rw [encard_supp nodup there]
        exact_mod_cast large
      · rw [image_supp there]
    · rintro ⟨component, large, rfl⟩
      obtain ⟨start, there, rfl⟩ := exists_start large
      rw [encard_supp nodup there] at large
      exact ⟨_, (mem_cluster_iff positive nodup done).mpr
        ⟨start, there, by exact_mod_cast large, rfl⟩, (image_supp there).symm⟩
  · obtain ⟨start, -, -, rfl⟩ := (mem_cluster_iff positive nodup done).mp listed
    exact confidence_bounds _
  · obtain ⟨others, otherDone⟩ := exists_cluster other crates otherOrder
    have otherPositive : ∀ c ∈ other, 0 < c.stake := fun c there => positive c (perm.mem_iff.mp there)
    refine ⟨others, otherDone, fun found => ?_⟩
    rw [mem_cluster_iff otherPositive (perm.nodup_iff.mpr nodup) otherDone,
      mem_cluster_iff positive nodup done]
    refine exists_congr fun start => and_congr perm.mem_iff ?_
    rw [(swarm_perm perm start).length_eq, buildCluster_perm crates (swarm_perm perm start)]

/-- Three identities of one day with some 100M GRT each. -/
def tightSwarm : List Candidate :=
  [⟨"0xa", 86400000, 100000000, ∅⟩, ⟨"0xb", 86400000, 100000000, ∅⟩,
    ⟨"0xc", 86400000, 100100000, ∅⟩]

/-- The tight swarm is clustered alike from either end of the list. -/
theorem tight_swarm_in_reverse :
    ∃ clusters, cluster tightSwarm (.knowing [] []) .asInserted = some clusters ∧
      (∀ found ∈ clusters, 2 / 5 ≤ found.confidence ∧ found.confidence ≤ 1) ∧
      ∃ others, cluster tightSwarm.reverse (.knowing [] []) .reversed = some others ∧
        ∀ found, found ∈ others ↔ found ∈ clusters := by
  obtain ⟨clusters, done, -, -, bounds, reordered⟩ := swarm_clusters_are_components
    (.knowing [] []) tightSwarm .asInserted (by decide) (by decide)
  exact ⟨clusters, done, bounds, reordered _ .reversed (List.reverse_perm _)⟩

end Swarms

end Foghorn.Probe
