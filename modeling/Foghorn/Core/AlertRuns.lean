import Mathlib.Data.List.Induction
import Foghorn.Core.StoredState

/-!
# Alerts over a run of snapshots

A run evaluates its snapshots in order from an empty state, each against what the one before
it stored. Of one deployment's signal, and of one allocation's POI, an evaluation tells what
the deployment's first allocation, or the allocation, gives it to tell.
-/

namespace Foghorn.Core

open Foghorn.Std

section Told

variable {each lead : AllocSnap → List Alert} {T : Type} {told : Alert → Option T}

/-- What a walk tells of one deployment is what its first allocation tells. -/
theorem filterMap_walkAlerts_lead {hash : String} (others : ∀ a, (each a).filterMap told = [])
    (elsewhere : ∀ a, a.ipfsHash ≠ hash → (lead a).filterMap told = []) (seen : List String)
    (allocations : List AllocSnap) :
    (walkAlerts each lead seen allocations).filterMap told =
      if hash ∈ seen then []
      else ((allocations.find? fun a => a.ipfsHash = hash).map fun a =>
        (lead a).filterMap told).getD [] := by
  induction allocations generalizing seen with
  | nil => simp [walkAlerts]
  | cons first rest ih =>
    rw [walkAlerts, List.filterMap_append, others, List.nil_append, List.find?_cons]
    by_cases known : first.ipfsHash ∈ seen
    · rw [if_pos known, ih]
      by_cases same : first.ipfsHash = hash
      · simp [← same, known]
      · simp [same]
    · rw [if_neg known, List.filterMap_append, ih]
      by_cases same : first.ipfsHash = hash
      · subst same
        simp [known]
      · simp [same, Ne.symm same, elsewhere first same]

/-- What a walk tells of one allocation is what the allocation tells. -/
theorem filterMap_walkAlerts_each {id : String} {allocations : List AllocSnap}
    (distinct : (allocations.map AllocSnap.id).Nodup) (others : ∀ a, (lead a).filterMap told = [])
    (elsewhere : ∀ a, a.id ≠ id → (each a).filterMap told = []) (seen : List String) :
    (walkAlerts each lead seen allocations).filterMap told =
      ((allocations.find? fun a => a.id = id).map fun a => (each a).filterMap told).getD [] := by
  induction allocations generalizing seen with
  | nil => rfl
  | cons first rest ih =>
    obtain ⟨fresh, later⟩ := List.nodup_cons.mp distinct
    have tail : ∀ seen, (walkAlerts each lead seen rest).filterMap told =
        ((rest.find? fun a => a.id = id).map fun a => (each a).filterMap told).getD [] := ih later
    have split : (walkAlerts each lead seen (first :: rest)).filterMap told =
        (each first).filterMap told ++
          ((rest.find? fun a => a.id = id).map fun a => (each a).filterMap told).getD [] := by
      rw [walkAlerts, List.filterMap_append]
      by_cases known : first.ipfsHash ∈ seen
      · rw [if_pos known, tail]
      · rw [if_neg known, List.filterMap_append, others, List.nil_append, tail]
    rw [split, List.find?_cons]
    by_cases same : first.id = id
    · simp [same, find?_name_eq_none (same ▸ fresh)]
    · simp [same, elsewhere first same]

end Told

section Step

variable {amounts : AmountText} {prev : StoredState} {choice : AlertChoice} {snap : Snapshot}

private theorem kind_storedCutsAlert {alert : Alert}
    (told : storedCutsAlert prev choice snap = some alert) :
    alert.kind = .cuts := by
  rw [storedCutsAlert] at told
  split at told
  · split at told
    · cases told
      rfl
    · cases told
  · cases told

private theorem kind_storedReoAlert {alert : Alert}
    (told : storedReoAlert prev choice snap = some alert) :
    alert.kind = .reo := by
  rw [storedReoAlert] at told
  split at told
  · split at told
    · cases told
      rfl
    · cases told
  · cases told

/-- Alerts of an allocation are told by the walk. -/
theorem filterMap_evaluateStored {T : Type} {told : Alert → Option T}
    (silent : ∀ alert, alert.kind = .cuts ∨ alert.kind = .reo → told alert = none) :
    (evaluateStored amounts prev choice snap).1.filterMap told =
      (walkAlerts (fun a => (storedPoiAlert prev choice snap.currentEpoch a).toList)
        (fun a => (storedDeniedAlert prev choice a).toList ++
          (storedSignalAlert amounts prev choice a).toList) [] snap.allocations).filterMap told := by
  have cuts : (storedCutsAlert prev choice snap).toList.filterMap told = [] := by
    cases found : storedCutsAlert prev choice snap with
    | none => rfl
    | some alert => simp [silent alert (.inl (kind_storedCutsAlert found))]
  have reo : (storedReoAlert prev choice snap).toList.filterMap told = [] := by
    cases found : storedReoAlert prev choice snap with
    | none => rfl
    | some alert => simp [silent alert (.inr (kind_storedReoAlert found))]
  rw [evaluateStored, List.filterMap_append, List.filterMap_append, cuts, reo, List.append_nil,
    List.append_nil, storedWalk, alerts_foldl, List.nil_append]

/-- The amounts of a signal alert of the deployment. -/
def signalMoveOf (hash : String) : Alert → Option (ℚ × ℚ)
  | .signal a baseline => if a.ipfsHash = hash then some (baseline, a.signalGrt) else none
  | _ => none

/-- The tone of a POI alert of the allocation. -/
def poiToneOf (id : String) : Alert → Option Tone
  | .poi a daysLeft => if a.id = id then some (Core.tone daysLeft) else none
  | _ => none

private theorem signalMoveOf_of_kind {hash : String} {alert : Alert} (kind : alert.kind ≠ .signal) :
    signalMoveOf hash alert = none := by
  cases alert with
  | signal => exact absurd rfl kind
  | _ => rfl

private theorem poiToneOf_of_kind {id : String} {alert : Alert} (kind : alert.kind ≠ .poi) :
    poiToneOf id alert = none := by
  cases alert with
  | poi => exact absurd rfl kind
  | _ => rfl

/-- A cycle tells of a deployment's signal once, from its stored baseline to the first row's
value. -/
theorem signalMoves_evaluateStored {hash : String} :
    (evaluateStored amounts prev choice snap).1.filterMap (signalMoveOf hash) =
      ((snap.allocations.find? fun a => a.ipfsHash = hash).map fun a =>
        if choice.on .signal ∧ prev ≠ ∅ then
          (storedMovedFrom amounts prev choice a).toList.map fun baseline =>
            (baseline, a.signalGrt)
        else []).getD [] := by
  have poi (a : AllocSnap) :
      (storedPoiAlert prev choice snap.currentEpoch a).toList.filterMap (signalMoveOf hash) = [] := by
    rw [storedPoiAlert]
    split <;> rfl
  have denied (a : AllocSnap) :
      (storedDeniedAlert prev choice a).toList.filterMap (signalMoveOf hash) = [] := by
    rw [storedDeniedAlert]
    split <;> rfl
  have moved (a : AllocSnap) : (storedSignalAlert amounts prev choice a).toList.filterMap
      (signalMoveOf hash) = if a.ipfsHash = hash ∧ choice.on .signal ∧ prev ≠ ∅ then
        (storedMovedFrom amounts prev choice a).toList.map fun baseline => (baseline, a.signalGrt)
      else [] := by
    rw [storedSignalAlert]
    by_cases heard : choice.on .signal ∧ prev ≠ ∅
    · cases storedMovedFrom amounts prev choice a <;> by_cases same : a.ipfsHash = hash <;>
        simp [heard, same, signalMoveOf]
    · simp [heard]
  have elsewhere (a : AllocSnap) (other : a.ipfsHash ≠ hash) :
      ((storedDeniedAlert prev choice a).toList ++
        (storedSignalAlert amounts prev choice a).toList).filterMap (signalMoveOf hash) = [] := by
    rw [List.filterMap_append, denied, moved, if_neg fun both => other both.1, List.nil_append]
  have silent (alert : Alert) (kind : alert.kind = .cuts ∨ alert.kind = .reo) :
      signalMoveOf hash alert = none :=
    signalMoveOf_of_kind (by rcases kind with kind | kind <;> simp [kind])
  rw [filterMap_evaluateStored silent, filterMap_walkAlerts_lead poi elsewhere,
    if_neg List.not_mem_nil]
  cases found : snap.allocations.find? (fun a => decide (a.ipfsHash = hash)) with
  | none => rfl
  | some a =>
    have same : a.ipfsHash = hash := by simpa using List.find?_some found
    simp [denied, moved, same]

/-- A cycle tells of an allocation's POI once, when its tone rose above the stored one. -/
theorem poiTones_evaluateStored {id : String}
    (distinct : (snap.allocations.map AllocSnap.id).Nodup) :
    (evaluateStored amounts prev choice snap).1.filterMap (poiToneOf id) =
      ((snap.allocations.find? fun a => a.id = id).map fun a =>
        if choice.on .poi ∧ prev ≠ ∅ ∧ toneRank ((prev.get (.poi id)).getD "fresh") <
            (a.tone snap.currentEpoch).rank then [a.tone snap.currentEpoch]
        else []).getD [] := by
  have lead (a : AllocSnap) : ((storedDeniedAlert prev choice a).toList ++
      (storedSignalAlert amounts prev choice a).toList).filterMap (poiToneOf id) = [] := by
    rw [storedDeniedAlert, storedSignalAlert]
    cases storedMovedFrom amounts prev choice a <;> split <;> split <;> rfl
  have poi (a : AllocSnap) : (storedPoiAlert prev choice snap.currentEpoch a).toList.filterMap
      (poiToneOf id) = if a.id = id ∧ choice.on .poi ∧ prev ≠ ∅ ∧
        toneRank ((prev.get (.poi a.id)).getD "fresh") < (a.tone snap.currentEpoch).rank
      then [a.tone snap.currentEpoch] else [] := by
    rw [storedPoiAlert, toneRank_text]
    by_cases same : a.id = id
    · split <;> simp_all [poiToneOf, AllocSnap.tone]
    · split <;> simp [same, poiToneOf]
  have silent (alert : Alert) (kind : alert.kind = .cuts ∨ alert.kind = .reo) :
      poiToneOf id alert = none :=
    poiToneOf_of_kind (by rcases kind with kind | kind <;> simp [kind])
  rw [filterMap_evaluateStored silent, filterMap_walkAlerts_each distinct lead fun a other => by
    rw [poi, if_neg fun both => other both.1]]
  cases found : snap.allocations.find? (fun a => decide (a.id = id)) with
  | none => rfl
  | some a =>
    have same : a.id = id := by simpa using List.find?_some found
    simp [poi, same]

end Step

section Run

variable (amounts : AmountText) (choice : AlertChoice)

/-- The alerts of a run in order, and the state it stores. -/
def evaluateRun (snaps : List Snapshot) : List Alert × StoredState :=
  snaps.foldl (fun (run : List Alert × StoredState) snap =>
    let (alerts, next) := evaluateStored amounts run.2 choice snap
    (run.1 ++ alerts, next)) ([], ∅)

variable {amounts choice}

/-- A run's last cycle starts from the state its earlier cycles stored. -/
theorem evaluateRun_concat (before : List Snapshot) (snap : Snapshot) :
    evaluateRun amounts choice (before ++ [snap]) =
      ((evaluateRun amounts choice before).1 ++
          (evaluateStored amounts (evaluateRun amounts choice before).2 choice snap).1,
        (evaluateStored amounts (evaluateRun amounts choice before).2 choice snap).2) := by
  rw [evaluateRun, List.foldl_append]
  rfl

/-- A run of one cycle starts from the empty state. -/
theorem evaluateRun_singleton (first : Snapshot) :
    evaluateRun amounts choice [first] = evaluateStored amounts ∅ choice first := by
  rw [← List.nil_append [first], evaluateRun_concat]
  rfl

/-- After a first cycle the stored state is never empty again. -/
theorem evaluateRun_ne_empty {snaps : List Snapshot} (nonempty : snaps ≠ []) :
    (evaluateRun amounts choice snaps).2 ≠ ∅ := by
  rw [← List.dropLast_append_getLast nonempty, evaluateRun_concat]
  exact evaluateStored_ne_empty

end Run

end Foghorn.Core
