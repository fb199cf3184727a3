import Foghorn.Probe.Qos

/-!
# Who signed an answer

`recordAttribution` names the indexer behind a signing key. When that is news it asks, in
the same statement, for a reroll of every deployment the key has answered for, over the
times of the probes it answered. `recordMissing` marks a key nobody claimed.
-/

namespace Foghorn.Probe

open Foghorn.Std Foghorn.Core

/-- The probes a key answered, one for each answer. -/
def answeredProbes (db : Db) (key : String) : List ProbeRow :=
  db.observation.rows.filterMap fun o =>
    if o.indexerAddress = key then db.probe.lookup o.probeId else none

/-- Ask for the buckets of each group of probes; the groups come in any order. -/
def enqueueProbes (now : Int) (groups : List (String × List ProbeRow)) (queue : RerollQueue) :
    RerollQueue :=
  groups.foldl (fun queue group =>
    queue.enqueue now group.1 "allocation key attributed" (group.2.map ProbeRow.dispatchedAt)) queue

/-- `record_attribution`. -/
def recordAttribution (groupOrder : IterOrder (String × List ProbeRow)) (now : Int)
    (key indexer : String) (url : Option String) (db : Db) : Db :=
  { db with
    allocationMap := db.allocationMap.upsert ⟨key, some indexer, url, now⟩
      (fun _ => ⟨key, some indexer, url, now⟩) (fun _ _ => rfl)
    qosReroll :=
      if db.resolved key = some indexer then db.qosReroll
      else enqueueProbes now
        (groupOrder.arrange (groupBy ProbeRow.deploymentId (answeredProbes db key))) db.qosReroll }

/-- The row of a key the network does not know. -/
def recordMissing (now : Int) (key : String) (db : Db) : Db :=
  { db with
    allocationMap := db.allocationMap.upsert ⟨key, none, none, now⟩
      (fun old => { old with resolvedAt := now }) (fun _ same => same) }

section Attribution

variable {groupOrder : IterOrder (String × List ProbeRow)} {now : Int} {key indexer : String}
  {url : Option String} {groups : List (String × List ProbeRow)} {queue : RerollQueue} {db : Db}

/-- The key resolves to its indexer, and every other key to whom it did. -/
theorem resolved_recordAttribution (address : String) :
    (recordAttribution groupOrder now key indexer url db).resolved address =
      if address = key then some indexer else db.resolved address := by
  unfold Db.resolved AllocationMap.resolved recordAttribution
  rw [Table.lookup_upsert]
  by_cases same : address = key
  · cases db.allocationMap.lookup address <;> simp [same]
  · simp [same]

/-- Marking a key as missing takes nobody's answers away. -/
theorem resolved_recordMissing (address : String) :
    (recordMissing now key db).resolved address = db.resolved address := by
  unfold Db.resolved AllocationMap.resolved recordMissing
  rw [Table.lookup_upsert]
  by_cases same : address = key
  · cases db.allocationMap.lookup address <;> simp [same]
  · simp [same]

private theorem grows_enqueueProbes : queue.Grows (enqueueProbes now groups queue) := by
  induction groups generalizing queue with
  | nil => exact Serial.Grows.refl _
  | cons group rest ih => exact RerollQueue.grows_enqueue.trans ih

/-- Recording an attribution only adds re-roll requests. -/
theorem grows_recordAttribution :
    db.qosReroll.Grows (recordAttribution groupOrder now key indexer url db).qosReroll := by
  unfold recordAttribution
  dsimp only
  split
  · exact Serial.Grows.refl _
  · exact grows_enqueueProbes

/-- For every group of probes a request is queued that spans their times. -/
theorem exists_enqueueProbes {group : String × List ProbeRow} (listed : group ∈ groups)
    {p : ProbeRow} (inGroup : p ∈ group.2) :
    ∃ request ∈ enqueueProbes now groups queue, queue.next ≤ request.id ∧
      request.deploymentId = some group.1 ∧
      request.fromTs ≤ p.dispatchedAt ∧ p.dispatchedAt ≤ request.toTs := by
  induction groups generalizing queue with
  | nil => cases listed
  | cons head rest ih =>
    rcases List.mem_cons.mp listed with rfl | later
    · obtain ⟨request, member, id, named, spans⟩ :
          ∃ request ∈ queue.enqueue now group.1 "allocation key attributed"
            (group.2.map ProbeRow.dispatchedAt), _ :=
        RerollQueue.exists_enqueue (List.mem_map_of_mem inGroup)
      refine ⟨request, ?_, Nat.le_of_eq id.symm, named, spans p.dispatchedAt (List.mem_map_of_mem inGroup)⟩
      change request ∈ enqueueProbes now rest _
      exact grows_enqueueProbes.kept request member
    · obtain ⟨request, member, id, spans⟩ :
          ∃ request ∈ enqueueProbes now rest (queue.enqueue now head.1
            "allocation key attributed" (head.2.map ProbeRow.dispatchedAt)), _ := ih later
      exact ⟨request, member, Nat.le_trans RerollQueue.grows_enqueue.next_le id, spans⟩

/-- News about a key asks for every bucket it answered in. -/
theorem exists_request_recordAttribution (news : db.resolved key ≠ some indexer)
    {o : ObservationRow} (observed : o ∈ db.observation) (signed : o.indexerAddress = key)
    {p : ProbeRow} (found : db.probe.lookup o.probeId = some p) :
    ∃ request ∈ (recordAttribution groupOrder now key indexer url db).qosReroll,
      db.qosReroll.next ≤ request.id ∧ request.deploymentId = some p.deploymentId ∧
        request.fromTs ≤ p.dispatchedAt ∧ p.dispatchedAt ≤ request.toTs := by
  have answered : p ∈ answeredProbes db key :=
    List.mem_filterMap.mpr ⟨o, observed, by rw [if_pos signed, found]⟩
  have inGroup : p ∈ (answeredProbes db key).filter fun other =>
      other.deploymentId = p.deploymentId := List.mem_filter.mpr ⟨answered, by simp⟩
  have listed : (p.deploymentId, (answeredProbes db key).filter fun other =>
      other.deploymentId = p.deploymentId) ∈
      groupOrder.arrange (groupBy ProbeRow.deploymentId (answeredProbes db key)) := by
    rw [IterOrder.mem_arrange]
    exact mem_groupBy.mpr ⟨⟨p, answered, rfl⟩, rfl⟩
  simp only [recordAttribution, news, if_false]
  exact exists_enqueueProbes listed inGroup

end Attribution

end Foghorn.Probe
