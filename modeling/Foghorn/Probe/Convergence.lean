import Mathlib.Tactic.IntervalCases
import Foghorn.Std.IncrementalView
import Foghorn.Probe.Reroll
import Foghorn.Probe.System

/-!
# The QoS table converges

A group is stale when the table does not hold its wanted measure. Every step that can make
a group stale either leaves a request that reaches it (`pending`), in the queue or among
the statements a detection has still to execute, or stores an answer in its cell
(`touched`), which the trailing window has to sweep in time. `accounts` is that ledger for
one step; `Maintenance.stored_eq_wanted` turns it into convergence.
-/

namespace Foghorn.Probe

open Foghorn.Std Foghorn.Core

/-- A roll of the request recomputes the group. -/
def Reaches (cfg : QosRollupConfig) (request : RerollRow) (group : QosGroup) : Prop :=
  (windowRange cfg request.fromTs (some request.toTs)).Holds group.2.2 ∧
    forDeployment request.deploymentId group.2.1

namespace Pass

/-- The requests a pass has still to roll or to delete. -/
def requests : Pass → List RerollRow
  | draining requests => requests
  | deleting head rest => head :: rest
  | _ => []

/-- The request has been rolled and is about to be deleted. -/
def Rolled (pass : Pass) (request : RerollRow) : Prop :=
  ∃ head rest, pass = deleting head rest ∧ request.id = head.id

end Pass

namespace System

/-- The groups that a request will have recomputed. -/
def pending (cfg : QosRollupConfig) (s : System) : Set QosGroup :=
  {group | (∃ request ∈ s.db.qosReroll, ¬ s.pass.Rolled request ∧ Reaches cfg request group) ∨
    .request group.2.1 ∈ s.detecting}

/-- The groups an event stores an answer for, or makes visible by storing their probe. -/
def touched (cfg : QosRollupConfig) (s : System) : Event → Set QosGroup
  | .store statement => {group | ∃ p ∈ statement.probeOf s.db, InCell cfg p group}
  | _ => ∅

/-- The groups of the trailing window, when an event rolls it. -/
def swept (cfg : QosRollupConfig) (s : System) : Event → Option (Set QosGroup)
  | .rollWindow =>
    match s.pass with
    | .begun lower => some {group | floorTo cfg.bucketMicros lower ≤ group.2.2}
    | _ => none
  | _ => none

def stale (cfg : QosRollupConfig) (s : System) : Set QosGroup :=
  Stale (storedMeasure cfg s.db) (wantedMeasure cfg s.db)

/-- Why a group may be stale after a step: it is asked for, or was touched by the step, or was
stale before, with nothing asking for it and no sweep reaching it. -/
def Accounted (cfg : QosRollupConfig) (s : System) (event : Event) (s' : System)
    (group : QosGroup) : Prop :=
  group ∈ s'.pending cfg ∨ group ∈ s.touched cfg event ∨
    group ∈ s.stale cfg ∧ group ∉ s.pending cfg ∧ ∀ groups ∈ s.swept cfg event, group ∉ groups

end System

/-- The effect of a statement on the flags. -/
def DetectStatement.flags (flagged : String → Bool) : DetectStatement → String → Bool
  | .flag deployment _ _ _, other => flagged other || other = deployment
  | .keepOnly deployments, other => flagged other && other ∈ deployments
  | .request _, other => flagged other

/-- Every flag that the statements change is asked for later. -/
def Announced : (String → Bool) → List DetectStatement → Prop
  | _, [] => True
  | flagged, statement :: rest =>
    (∀ deployment, statement.flags flagged deployment ≠ flagged deployment →
      .request deployment ∈ rest) ∧ Announced (statement.flags flagged) rest

section Announced

private theorem flagged_exec (statement : DetectStatement) (now : Int) (db : Db) :
    (statement.exec now db).flagged = statement.flags db.flagged := by
  funext other
  rw [Bool.eq_iff_iff]
  cases statement with
  | flag deployment total divergent sample =>
    simp [flagged_exec_flag, DetectStatement.flags]
  | keepOnly deployments => simp [flagged_exec_keepOnly, DetectStatement.flags]
  | request deployment => rfl

private theorem announced_requests (flagged : String → Bool) (deployments : List String) :
    Announced flagged (deployments.map .request) := by
  induction deployments with
  | nil => trivial
  | cons deployment rest ih => exact ⟨fun _ changed => absurd rfl changed, ih⟩

/-- Flags are written, then the others deleted, and every change is among the requests. -/
theorem announced_flags {flagged : String → Bool} {rows : List NoisyRow}
    {sample : NoisyRow → List String} {noisy changes : List String}
    (named : ∀ row ∈ rows, row.deploymentId ∈ noisy)
    (added : ∀ row ∈ rows, flagged row.deploymentId = false → row.deploymentId ∈ changes)
    (dropped : ∀ deployment, flagged deployment → deployment ∉ noisy → deployment ∈ changes) :
    Announced flagged
      ((rows.map fun row => .flag row.deploymentId row.total row.divergent (sample row)) ++
        .keepOnly noisy :: changes.map .request) := by
  induction rows generalizing flagged with
  | nil =>
    refine ⟨fun deployment changed => ?_, announced_requests _ _⟩
    have gone : flagged deployment ∧ deployment ∉ noisy := by
      by_cases before : flagged deployment <;> simp_all [DetectStatement.flags]
    exact List.mem_map_of_mem (dropped deployment gone.1 gone.2)
  | cons row rest ih =>
    refine ⟨fun deployment changed => ?_, ih ?_ ?_ ?_⟩
    · have new : flagged row.deploymentId = false ∧ deployment = row.deploymentId := by
        by_cases same : deployment = row.deploymentId <;>
          simp_all [DetectStatement.flags]
      have asked := added row List.mem_cons_self new.1
      simp [new.2, asked]
    · exact fun later member => named later (List.mem_cons_of_mem _ member)
    · intro later member unflagged
      apply added later (List.mem_cons_of_mem _ member)
      simp only [DetectStatement.flags, Bool.or_eq_false_iff] at unflagged
      exact unflagged.1
    · intro deployment after other
      by_cases before : flagged deployment
      · exact dropped deployment before other
      · have same : deployment = row.deploymentId := by simpa [DetectStatement.flags, before] using after
        exact absurd (same ▸ named row List.mem_cons_self) other

/-- A detector run announces a re-roll for every deployment whose flag it changes. -/
theorem announced_program (run : DetectRun) (db : Db) : Announced db.flagged (run.program db) := by
  have split : run.program db = ((run.rows db).map (run.flagOf db)) ++
      .keepOnly (run.noisy db) :: (run.changes db).map .request := by
    simp [DetectRun.program, DetectRun.writes]
  rw [split]
  apply announced_flags
  · exact fun row member => List.mem_map_of_mem member
  · intro row member unflagged
    exact mem_changes.mpr (Or.inr ⟨List.mem_map_of_mem member, unflagged⟩)
  · intro deployment flagged quiet
    exact mem_changes.mpr (Or.inl ⟨flagged, quiet⟩)

end Announced

/-- What holds in every state of a run. -/
structure Sound (cfg : QosRollupConfig) (s : System) : Prop where
  /-- A stored group has a probe. -/
  grounded : ∀ group, storedMeasure cfg s.db group ≠ none → ∃ p ∈ s.db.probe, InCell cfg p group
  announced : Announced s.db.flagged s.detecting
  /-- A listed request is the one in the queue under its id, if there is one. -/
  listed : ∀ request ∈ s.pass.requests, request.id < s.db.qosReroll.next ∧
    ∀ queued ∈ s.db.qosReroll, queued.id = request.id → queued = request
  windowed : ∀ lower, s.pass = .begun lower → lower ≤ cfg.trailing s.clock

section Steps

variable {cfg : QosRollupConfig} {s s' : System} {event : Event} {group : QosGroup}

/-- A stale cell has a probe in it. -/
theorem exists_probe_of_stale (sound : Sound cfg s) (stale : group ∈ s.stale cfg) :
    ∃ p ∈ s.db.probe, InCell cfg p group := by
  by_cases stored : storedMeasure cfg s.db group = none
  · apply exists_probe_of_wantedMeasure
    intro unwanted
    exact stale (stored.trans unwanted.symm)
  · exact sound.grounded group stored

private theorem trailing_mono {early late : Int} (le : early ≤ late) :
    cfg.trailing early ≤ cfg.trailing late := by
  have := floorTo_mono (show (0 : Int) < microsPerSecond by decide) le
  unfold QosRollupConfig.trailing
  omega

/-- A request that spans the time of a probe reaches the probe's cell. -/
theorem reaches_of_spans {request : RerollRow} {p : ProbeRow} (positive : 0 < cfg.bucketMicros)
    (inCell : InCell cfg p group) (named : request.deploymentId = some p.deploymentId)
    (from_ : request.fromTs ≤ p.dispatchedAt) (to_ : p.dispatchedAt ≤ request.toTs) :
    Reaches cfg request group := by
  obtain ⟨sameDeployment, sameBucket⟩ := inCell
  refine ⟨⟨?_, ?_⟩, ?_⟩
  · rw [← sameBucket]
    exact floorTo_mono positive from_
  · rintro upper ⟨⟩
    have below := floorTo_mono positive to_
    rw [sameBucket] at below
    exact Int.lt_add_of_le_of_pos below positive
  · intro wanted isWanted
    rw [named] at isWanted
    rw [← sameDeployment]
    exact Option.some.inj isWanted

/-- An event that neither sweeps nor makes the group stale has to keep it pending. -/
theorem carried (unswept : s.swept cfg event = none)
    (same : storedMeasure cfg s'.db group = storedMeasure cfg s.db group ∧
      wantedMeasure cfg s'.db group = wantedMeasure cfg s.db group)
    (kept : group ∈ s.pending cfg → group ∈ s'.pending cfg) (stale : group ∈ s'.stale cfg) :
    s.Accounted cfg event s' group := by
  by_cases queued : group ∈ s.pending cfg
  · exact Or.inl (kept queued)
  · refine Or.inr (Or.inr ⟨?_, queued, ?_⟩)
    · intro fresh
      apply stale
      rw [same.1, same.2, fresh]
    · rw [unswept]
      exact fun _ none_ => nomatch none_

/-- Requests stay when the queue grows and neither the pass nor the detection moves. -/
theorem pending_of_grows (grown : s.db.qosReroll.Grows s'.db.qosReroll)
    (samePass : s'.pass = s.pass) (sameDetecting : s'.detecting = s.detecting)
    (queued : group ∈ s.pending cfg) : group ∈ s'.pending cfg := by
  rcases queued with ⟨request, member, waiting, reaches⟩ | asked
  · exact Or.inl ⟨request, grown.kept request member, samePass ▸ waiting, reaches⟩
  · exact Or.inr (sameDetecting ▸ asked)

/-- Requests stay when a pass moves without deleting one. -/
theorem pending_of_pass (sameQueue : s'.db.qosReroll = s.db.qosReroll)
    (sameDetecting : s'.detecting = s.detecting)
    (notDeleting : ∀ head rest, s'.pass ≠ .deleting head rest)
    (queued : group ∈ s.pending cfg) : group ∈ s'.pending cfg := by
  rcases queued with ⟨request, member, _, reaches⟩ | asked
  · exact Or.inl ⟨request, sameQueue ▸ member,
      fun ⟨head, rest, deleting, _⟩ => notDeleting head rest deleting, reaches⟩
  · exact Or.inr (sameDetecting ▸ asked)

/-- A request under a new id has not been rolled. -/
theorem not_rolled_of_next_le (sound : Sound cfg s) {request : RerollRow}
    (new : s.db.qosReroll.next ≤ request.id) : ¬ s.pass.Rolled request := by
  rintro ⟨head, rest, deleting, same⟩
  have listed := (sound.listed head (by simp [deleting, Pass.requests])).1
  omega

/-- What is stale after a roll is out of its range, and was stale before. -/
theorem stale_rollRange (positive : 0 < cfg.bucketSecs) {now lower : Int} {upper : Option Int}
    {deployment : Option String} {db : Db}
    (stale : storedMeasure cfg (rollRange cfg now lower upper deployment db).1 group ≠
      wantedMeasure cfg db group) :
    ¬ ((windowRange cfg lower upper).Holds group.2.2 ∧ forDeployment deployment group.2.1) ∧
      storedMeasure cfg db group ≠ wantedMeasure cfg db group := by
  rw [storedMeasure_rollRange positive] at stale
  split at stale
  · exact absurd rfl stale
  · exact ⟨‹_›, stale⟩

/-- A stored statement touches the cell of its probe and changes nothing elsewhere. -/
theorem accounted_store (statement : StoreStatement)
    (stale : group ∈ ({ s with db := statement.exec s.db } : System).stale cfg) :
    s.Accounted cfg (.store statement) { s with db := statement.exec s.db } group := by
  by_cases touched : group ∈ s.touched cfg (.store statement)
  · exact Or.inr (Or.inl touched)
  · have outside : ∀ p ∈ statement.probeOf s.db, ¬ InCell cfg p group :=
      fun p isProbe inCell => touched ⟨p, isProbe, inCell⟩
    have table : (statement.exec s.db).foghornQos = s.db.foghornQos ∧
        (statement.exec s.db).qosReroll = s.db.qosReroll := by
      cases statement <;> exact ⟨rfl, rfl⟩
    refine carried rfl ⟨?_, wantedMeasure_store statement outside⟩
      (pending_of_grows ?_ rfl rfl) stale
    · simp only [storedMeasure, table.1]
    · rw [table.2]
      exact Serial.Grows.refl _

/-- News about a key asks for the cells it answered in. -/
theorem accounted_attributed (sound : Sound cfg s) (bucket : 0 < cfg.bucketMicros)
    (groupOrder : IterOrder (String × List ProbeRow)) (key indexer : String) (url : Option String)
    (stale : group ∈ ({ s with
      db := recordAttribution groupOrder s.clock key indexer url s.db } : System).stale cfg) :
    s.Accounted cfg (.attributed groupOrder key indexer url)
      { s with db := recordAttribution groupOrder s.clock key indexer url s.db } group := by
  by_cases answered : s.db.resolved key ≠ some indexer ∧ ∃ o ∈ s.db.observation,
      o.indexerAddress = key ∧ ∃ p, s.db.probe.lookup o.probeId = some p ∧ InCell cfg p group
  · obtain ⟨news, o, observed, signed, p, found, inCell⟩ := answered
    obtain ⟨request, member, new, named, from_, to_⟩ :
        ∃ request ∈ (recordAttribution groupOrder s.clock key indexer url s.db).qosReroll, _ :=
      exists_request_recordAttribution news observed signed found
    exact Or.inl (Or.inl ⟨request, member, not_rolled_of_next_le sound new,
      reaches_of_spans bucket inCell named from_ to_⟩)
  · refine carried rfl ⟨rfl, wantedMeasure_recordAttribution _ _ _ _ _ ?_⟩
      (pending_of_grows grows_recordAttribution rfl rfl) stale
    intro news o observed signed p found inCell
    exact answered ⟨news, o, observed, signed, p, found, inCell⟩

/-- A statement of a detection keeps what is asked for; a request among them goes out. -/
theorem pending_detect (sound : Sound cfg s) (bucket : 0 < cfg.bucketMicros)
    {statement : DetectStatement} {rest : List DetectStatement}
    (next : s.detecting = statement :: rest) (before : group ∈ s.stale cfg)
    (queued : group ∈ s.pending cfg) :
    group ∈ ({ s with db := statement.exec s.clock s.db, detecting := rest } : System).pending cfg := by
  rcases queued with ⟨request, member, waiting, reaches⟩ | asked
  · exact Or.inl ⟨request, (grows_exec statement).kept request member, waiting, reaches⟩
  · rw [next] at asked
    rcases List.mem_cons.mp asked with rfl | later
    · -- The request goes out: it spans every probe of the deployment.
      obtain ⟨p, probed, inCell⟩ := exists_probe_of_stale sound before
      obtain ⟨request, member, new, named, spans⟩ :=
        exists_requestDeploymentReroll probed inCell.1
      have span := spans p probed inCell.1
      exact Or.inl ⟨request, member, not_rolled_of_next_le sound (Nat.le_of_eq new.symm),
        reaches_of_spans bucket inCell (inCell.1 ▸ named) span.1 span.2⟩
    · exact Or.inr later

/-- A flag that changes is asked for by a later statement. -/
theorem accounted_detect (sound : Sound cfg s) (bucket : 0 < cfg.bucketMicros)
    {statement : DetectStatement} {rest : List DetectStatement}
    (next : s.detecting = statement :: rest)
    (stale : group ∈
      ({ s with db := statement.exec s.clock s.db, detecting := rest } : System).stale cfg) :
    s.Accounted cfg .detect { s with db := statement.exec s.clock s.db, detecting := rest } group := by
  have announced := sound.announced
  rw [next] at announced
  have table : (statement.exec s.clock s.db).foghornQos = s.db.foghornQos := by
    cases statement <;> rfl
  have stored : storedMeasure cfg (statement.exec s.clock s.db) group =
      storedMeasure cfg s.db group := by simp only [storedMeasure, table]
  by_cases changed : (statement.exec s.clock s.db).flagged group.2.1 = s.db.flagged group.2.1
  · have wanted : wantedMeasure cfg (statement.exec s.clock s.db) group =
        wantedMeasure cfg s.db group := wantedMeasure_detect statement s.clock changed
    have before : group ∈ s.stale cfg := fun fresh => stale (stored.trans (fresh.trans wanted.symm))
    exact carried rfl ⟨stored, wanted⟩ (pending_detect sound bucket next before) stale
  · rw [flagged_exec] at changed
    exact Or.inl (Or.inr (announced.1 _ changed))

/-- What the window leaves stale is out of its reach. -/
theorem accounted_rollWindow (positive : 0 < cfg.bucketSecs) {lower : Int}
    (begun : s.pass = .begun lower)
    (stale : group ∈ ({ s with
      db := (rollRange cfg s.clock lower none none s.db).1, pass := .rolledWindow } : System).stale cfg) :
    s.Accounted cfg .rollWindow { s with
      db := (rollRange cfg s.clock lower none none s.db).1, pass := .rolledWindow } group := by
  obtain ⟨outside, before⟩ := stale_rollRange positive stale
  by_cases queued : group ∈ s.pending cfg
  · left
    revert queued
    exact pending_of_pass rfl rfl (by simp)
  · refine Or.inr (Or.inr ⟨before, queued, ?_⟩)
    intro groups isSwept member
    have window : {group : QosGroup | floorTo cfg.bucketMicros lower ≤ group.2.2} = groups := by
      simpa [System.swept, begun] using isSwept
    rw [← window] at member
    exact outside ⟨⟨member, fun _ none_ => absurd none_ (Option.not_mem_none _)⟩,
      fun _ none_ => absurd none_ (Option.not_mem_none _)⟩

/-- What a rolled request leaves stale is asked for by another one. -/
theorem accounted_rollRequest (sound : Sound cfg s) (positive : 0 < cfg.bucketSecs)
    {head : RerollRow} {rest : List RerollRow} (next : s.pass = .draining (head :: rest))
    (stale : group ∈ ({ s with
      db := (rollRequest cfg s.clock head s.db).1, pass := .deleting head rest } : System).stale cfg) :
    s.Accounted cfg .rollRequest { s with
      db := (rollRequest cfg s.clock head s.db).1, pass := .deleting head rest } group := by
  obtain ⟨outside, before⟩ := stale_rollRange positive stale
  have listed := sound.listed head (by simp [next, Pass.requests])
  by_cases queued : group ∈ s.pending cfg
  · left
    rcases queued with ⟨request, member, _, reaches⟩ | asked
    · refine Or.inl ⟨request, member, ?_, reaches⟩
      rintro ⟨_, _, ⟨⟩, same⟩
      -- The queue holds this request under the id, and it does not reach the group.
      obtain rfl := listed.2 request member same
      exact outside reaches
    · exact Or.inr asked
  · exact Or.inr (Or.inr ⟨before, queued, fun _ none_ => absurd none_ (Option.not_mem_none _)⟩)

/-- Deleting the request that was rolled keeps the others. -/
theorem pending_deleteRequest {head : RerollRow} {rest : List RerollRow}
    (rolled : s.pass = .deleting head rest) (queued : group ∈ s.pending cfg) :
    group ∈ ({ s with db := deleteRequest head s.db, pass := .draining rest } : System).pending cfg := by
  rcases queued with ⟨request, member, waiting, reaches⟩ | asked
  · have other : request.id ≠ head.id := fun same => waiting ⟨head, rest, rolled, same⟩
    refine Or.inl ⟨request, Serial.mem_deleteWhere.mpr ⟨member, by simpa using other⟩, ?_, reaches⟩
    rintro ⟨_, _, same, _⟩
    cases same
  · exact Or.inr asked

/-- The ledger: whatever is stale after a step is accounted for. -/
theorem accounts (sound : Sound cfg s) (positive : 0 < cfg.bucketSecs)
    (move : Step cfg s event s') (stale : group ∈ s'.stale cfg) :
    s.Accounted cfg event s' group := by
  have bucket : 0 < cfg.bucketMicros := Int.lt_of_lt_of_le (by decide) (bucketMicros_pos positive)
  cases move with
  | tick micros =>
    exact carried rfl ⟨rfl, rfl⟩ (pending_of_grows (Serial.Grows.refl _) rfl rfl) stale
  | store statement => exact accounted_store statement stale
  | attributed groupOrder key indexer url =>
    exact accounted_attributed sound bucket groupOrder key indexer url stale
  | missing key =>
    exact carried rfl ⟨rfl, wantedMeasure_recordMissing _ _⟩
      (pending_of_grows (Serial.Grows.refl _) rfl rfl) stale
  | beginDetect rowOrder changeOrder alone =>
    refine carried rfl ⟨rfl, rfl⟩ ?_ stale
    rintro (queued | asked)
    · exact Or.inl queued
    · rw [alone] at asked
      cases asked
  | detect statement rest next => exact accounted_detect sound bucket next stale
  | rollWindow lower begun _ => exact accounted_rollWindow positive begun stale
  | rollRequest head rest next _ => exact accounted_rollRequest sound positive next stale
  | deleteRequest head rest rolled =>
    exact carried rfl ⟨rfl, rfl⟩ (pending_deleteRequest rolled) stale
  | beginPass | listRequests | endPass | failPass =>
    exact carried rfl ⟨rfl, rfl⟩ (pending_of_pass rfl rfl (by simp)) stale

/-- A roll stores nothing for a group without a probe. -/
theorem grounded_rollRange {db : Db} (positive : 0 < cfg.bucketSecs)
    (grounded : storedMeasure cfg db group ≠ none → ∃ p ∈ db.probe, InCell cfg p group)
    {now lower : Int} {upper : Option Int} {deployment : Option String}
    (stored : storedMeasure cfg (rollRange cfg now lower upper deployment db).1 group ≠ none) :
    ∃ p ∈ db.probe, InCell cfg p group := by
  rw [storedMeasure_rollRange positive] at stored
  split at stored
  · exact exists_probe_of_wantedMeasure stored
  · exact grounded stored

/-- After every step a stored cell has a probe in it. -/
theorem grounded_step (sound : Sound cfg s) (move : Step cfg s event s')
    (stored : storedMeasure cfg s'.db group ≠ none) : ∃ p ∈ s'.db.probe, InCell cfg p group := by
  cases move with
  | store statement =>
    cases statement with
    | insertProbe row =>
      obtain ⟨p, probed, inCell⟩ := sound.grounded group stored
      exact ⟨p, Table.mem_insertNew.mpr (Or.inl probed), inCell⟩
    | insertObservation row => exact sound.grounded group stored
    | insertDivergence row => exact sound.grounded group stored
  | detect statement rest next => cases statement <;> exact sound.grounded group stored
  | rollWindow lower begun positive =>
    obtain ⟨p, probed, inCell⟩ := grounded_rollRange positive (sound.grounded group) stored
    exact ⟨p, probed, inCell⟩
  | rollRequest head rest next positive =>
    obtain ⟨p, probed, inCell⟩ := grounded_rollRange positive (sound.grounded group) stored
    exact ⟨p, probed, inCell⟩
  | _ => exact sound.grounded group stored

/-- Every step leaves the flag changes that are under way announced. -/
theorem announced_step (sound : Sound cfg s) (move : Step cfg s event s') :
    Announced s'.db.flagged s'.detecting := by
  cases move with
  | store statement => cases statement <;> exact sound.announced
  | beginDetect rowOrder changeOrder alone => exact announced_program _ _
  | detect statement rest next =>
    have announced := sound.announced
    rw [next] at announced
    rw [flagged_exec]
    exact announced.2
  | _ => exact sound.announced

/-- What is listed stays what is queued under its id, as ids are never handed out again. -/
theorem listed_of_grows (sound : Sound cfg s) {queue : RerollQueue}
    (grown : s.db.qosReroll.Grows queue) {request : RerollRow}
    (listed : request ∈ s.pass.requests) : request.id < queue.next ∧
      ∀ queued ∈ queue, queued.id = request.id → queued = request := by
  obtain ⟨below, only⟩ := sound.listed request listed
  refine ⟨Nat.lt_of_lt_of_le below grown.next_le, ?_⟩
  intro queued member same
  rcases grown.fresh queued member with old | new
  · exact only queued old same
  · omega

/-- Every step keeps the requests of a pass as they are in the queue. -/
theorem listed_step (sound : Sound cfg s) (move : Step cfg s event s') {request : RerollRow}
    (listed : request ∈ s'.pass.requests) : request.id < s'.db.qosReroll.next ∧
      ∀ queued ∈ s'.db.qosReroll, queued.id = request.id → queued = request := by
  cases move with
  | store statement => cases statement <;> exact sound.listed request listed
  | attributed groupOrder key indexer url =>
    exact listed_of_grows sound grows_recordAttribution listed
  | detect statement rest next => exact listed_of_grows sound (grows_exec statement) listed
  | listRequests rolled =>
    have queued : request ∈ s.db.qosReroll := List.mem_mergeSort.mp listed
    exact ⟨s.db.qosReroll.below request queued,
      fun other member same => Table.eq_of_key_eq member queued same⟩
  | rollRequest head rest next positive =>
    exact sound.listed request (by rwa [next])
  | deleteRequest head rest rolled =>
    obtain ⟨below, only⟩ := sound.listed request (by rw [rolled]; exact List.mem_cons_of_mem _ listed)
    exact ⟨below, fun queued member => only queued (Serial.mem_deleteWhere.mp member).1⟩
  | beginPass | rollWindow | endPass | failPass => cases listed
  | _ => exact sound.listed request listed

/-- Every step keeps a begun pass within the trailing window. -/
theorem windowed_step (sound : Sound cfg s) (move : Step cfg s event s') {lower : Int}
    (begun : s'.pass = .begun lower) : lower ≤ cfg.trailing s'.clock := by
  cases move with
  | tick micros =>
    exact Int.le_trans (sound.windowed lower begun)
      (trailing_mono (Int.le_add_of_nonneg_right (Int.natCast_nonneg micros)))
  | beginPass alone =>
    obtain rfl := Pass.begun.inj begun
    exact Int.le_refl _
  | listRequests | rollWindow | rollRequest | deleteRequest | endPass | failPass => cases begun
  | _ => exact sound.windowed lower begun

/-- Every step keeps the system sound. -/
theorem sound_step (sound : Sound cfg s) (move : Step cfg s event s') : Sound cfg s' where
  grounded _ := grounded_step sound move
  announced := announced_step sound move
  listed _ := listed_step sound move
  windowed _ := windowed_step sound move

end Steps

/-- A state between calls whose table holds the wanted measures. -/
structure Converged (cfg : QosRollupConfig) (s : System) : Prop where
  fresh : s.stale cfg = ∅
  notDetecting : s.detecting = []
  idle : s.pass = .idle

/-- Any interleaving of the loops' statements, from a converged state on. -/
structure Run (cfg : QosRollupConfig) where
  state : ℕ → System
  event : ℕ → Event
  move : ∀ n, Step cfg (state n) (event n) (state (n + 1))
  start : Converged cfg (state 0)

namespace Run

variable {cfg : QosRollupConfig} (run : Run cfg)

/-- Whatever is stored of a probe is stored while its bucket is in the trailing window of a
pass that has yet to roll it. -/
def StoredInTime : Prop :=
  ∀ n statement, run.event n = .store statement → ∀ p ∈ statement.probeOf (run.state n).db,
    ∃ later lower, n < later ∧ run.event later = .rollWindow ∧
      (run.state later).pass = .begun lower ∧
      floorTo cfg.bucketMicros lower ≤ floorTo cfg.bucketMicros p.dispatchedAt

/-- A pass that rolled the window at one step and ended at another: it left the queue empty,
nothing was stored in between, and no detection is under way. -/
structure DrainedPass (rolled ended : ℕ) : Prop where
  order : rolled < ended
  rolls : run.event rolled = .rollWindow
  ends : run.event ended = .endPass
  quiet : ∀ n, rolled < n → n < ended → ∀ statement, run.event n ≠ .store statement
  notDetecting : (run.state ended).detecting = []
  drained : (run.state ended).db.qosReroll.table.rows = []

/-- The system is sound in every state of a run. -/
theorem sound (n : ℕ) : Sound cfg (run.state n) := by
  induction n with
  | zero =>
    obtain ⟨fresh, notDetecting, idle⟩ := run.start
    refine ⟨?_, ?_, ?_, ?_⟩
    · intro group stored
      apply exists_probe_of_wantedMeasure
      intro unwanted
      have stale : group ∈ (run.state 0).stale cfg := fun same => stored (same.trans unwanted)
      rw [fresh] at stale
      exact stale
    · rw [notDetecting]
      trivial
    · rw [idle]
      exact fun _ listed => nomatch listed
    · rw [idle]
      exact fun _ begun => nomatch begun
  | succ n ih => exact sound_step ih (run.move n)

/-- Whether a bound stays below every window a pass may roll from now on. -/
def Ahead (cfg : QosRollupConfig) (bound : Int) (s : System) : Prop :=
  bound ≤ cfg.trailing s.clock ∧ ∀ lower, s.pass = .begun lower → bound ≤ lower

private theorem ahead_step {s s' : System} {event : Event} {bound : Int} (ahead : Ahead cfg bound s)
    (move : Step cfg s event s') : Ahead cfg bound s' := by
  obtain ⟨below, windows⟩ := ahead
  cases move with
  | tick micros =>
    exact ⟨Int.le_trans below (trailing_mono (Int.le_add_of_nonneg_right (Int.natCast_nonneg micros))),
      windows⟩
  | beginPass alone =>
    refine ⟨below, ?_⟩
    rintro lower ⟨⟩
    exact below
  | listRequests | rollWindow | rollRequest | deleteRequest | endPass | failPass =>
    exact ⟨below, fun _ begun => nomatch begun⟩
  | _ => exact ⟨below, windows⟩

/-- Later windows start no earlier. -/
theorem ahead_of_begun {early : ℕ} {bound : Int} (begun : (run.state early).pass = .begun bound)
    (n : ℕ) : Ahead cfg bound (run.state (early + n)) := by
  induction n with
  | zero =>
    refine ⟨(run.sound early).windowed bound begun, ?_⟩
    intro lower begun'
    rw [Nat.add_zero, begun] at begun'
    cases begun'
    exact Int.le_refl _
  | succ n ih => exact ahead_step ih (run.move (early + n))

private theorem swept_eq_some_iff {s : System} {event : Event} {groups : Set QosGroup} :
    s.swept cfg event = some groups ↔ event = .rollWindow ∧ ∃ lower, s.pass = .begun lower ∧
      groups = {group | floorTo cfg.bucketMicros lower ≤ group.2.2} := by
  cases event with
  | rollWindow =>
    cases pass : s.pass <;> simp [System.swept, pass, eq_comm]
  | _ => simp [System.swept]

/-- The run as the maintenance of a view: the table against the wanted measures. -/
def maintenance (positive : 0 < cfg.bucketSecs) : Maintenance QosGroup (Option QosMeasure) where
  stored n := storedMeasure cfg (run.state n).db
  wanted n := wantedMeasure cfg (run.state n).db
  pending n := (run.state n).pending cfg
  touched n := (run.state n).touched cfg (run.event n)
  swept n := (run.state n).swept cfg (run.event n)
  accounts n _ stale := accounts (run.sound n) positive (run.move n) stale
  shrinks := by
    intro early late earlier later le earlySweeps lateSweeps
    obtain ⟨_, bound, begun, rfl⟩ := swept_eq_some_iff.mp earlySweeps
    obtain ⟨_, lower, begun', rfl⟩ := swept_eq_some_iff.mp lateSweeps
    obtain ⟨n, rfl⟩ := Nat.exists_eq_add_of_le le
    have above := (run.ahead_of_begun begun n).2 lower begun'
    have width : 0 < cfg.bucketMicros := Int.lt_of_lt_of_le (by decide) (bucketMicros_pos positive)
    intro group inside
    exact Int.le_trans (floorTo_mono width above) inside
  apart := by
    intro n groups sweeps
    rw [(swept_eq_some_iff.mp sweeps).1]
    rfl

/-- If answers are stored in time, the run maintains its buckets promptly. -/
theorem prompt (positive : 0 < cfg.bucketSecs) (inTime : run.StoredInTime) :
    (run.maintenance positive).Prompt := by
  intro n group touched
  cases event : run.event n with
  | store statement =>
    have touched' : group ∈ (run.state n).touched cfg (.store statement) := event ▸ touched
    obtain ⟨p, isProbe, _, sameBucket⟩ := touched'
    obtain ⟨later, lower, after, rolls, begun, reached⟩ := inTime n statement event p isProbe
    refine ⟨later, after, _, swept_eq_some_iff.mpr ⟨rolls, lower, begun, rfl⟩, ?_⟩
    change floorTo cfg.bucketMicros lower ≤ group.2.2
    rw [← sameBucket]
    exact reached
  | _ =>
    have nothing : group ∈ (run.state n).touched cfg (run.event n) := touched
    rw [event] at nothing
    cases nothing

private theorem begun_of_rollWindow {n : ℕ} (rolls : run.event n = .rollWindow) :
    ∃ lower, (run.state n).pass = .begun lower ∧ 0 < cfg.bucketSecs := by
  have moved := run.move n
  rw [rolls] at moved
  generalize run.state (n + 1) = next at moved
  cases moved with
  | rollWindow lower begun positive => exact ⟨lower, begun, positive⟩

/-- A drained pass leaves nothing stale. -/
theorem fresh_of_drainedPass (inTime : run.StoredInTime) {rolled ended : ℕ}
    (drained : run.DrainedPass rolled ended) :
    storedMeasure cfg (run.state ended).db = wantedMeasure cfg (run.state ended).db := by
  obtain ⟨lower, begun, positive⟩ := run.begun_of_rollWindow drained.rolls
  have sweeps : (run.maintenance positive).swept rolled = some _ :=
    swept_eq_some_iff.mpr ⟨drained.rolls, lower, begun, rfl⟩
  refine (run.maintenance positive).stored_eq_wanted (run.prompt positive inTime) run.start.fresh
    drained.order sweeps ?_ ?_
  · intro n after before
    change (run.state n).touched cfg (run.event n) = ∅
    cases event : run.event n with
    | store statement => exact absurd event (drained.quiet n after before statement)
    | _ => rfl
  · change (run.state ended).pending cfg = ∅
    apply Set.eq_empty_of_forall_notMem
    rintro group (⟨request, member, _⟩ | asked)
    · rw [← Serial.mem_table, ← Table.mem_rows, drained.drained] at member
      cases member
    · rw [drained.notDetecting] at asked
      cases asked

end Run

/-- At the end of a drained pass the table holds, under every key of its width, the measure
that one roll over all time would write there into an empty table, and no other key. -/
theorem qos_converges (cfg : QosRollupConfig) (run : Run cfg) (inTime : run.StoredInTime)
    {rolled ended : ℕ} (drained : run.DrainedPass rolled ended) (now beginning : Int)
    (early : ∀ p ∈ (run.state (ended + 1)).db.probe, beginning ≤ p.dispatchedAt)
    (key : QosKey) (sameWidth : key.2.2.2 = cfg.width) :
    ((run.state (ended + 1)).db.foghornQos.lookup key).map QosRow.measure =
      ((rollRange cfg now beginning none none
        { (run.state (ended + 1)).db with foghornQos := Table.empty }).1.foghornQos.lookup key).map
          QosRow.measure := by
  have ends := run.move ended
  rw [drained.ends] at ends
  have same : (run.state (ended + 1)).db = (run.state ended).db := by
    generalize run.state (ended + 1) = next at ends
    cases ends
    rfl
  obtain ⟨lower, _, positive⟩ := run.begun_of_rollWindow drained.rolls
  rw [lookup_freshRollup positive now beginning _ early sameWidth, measure_wantedRow, same,
    ← run.fresh_of_drainedPass inTime drained, storedMeasure, QosKey.group, ← sameWidth]

section Samples

private theorem converged_empty (cfg : QosRollupConfig) (clock : Int) :
    Converged cfg ⟨clock, Db.empty, [], .idle⟩ where
  fresh := by
    apply Set.eq_empty_of_forall_notMem
    exact fun _ stale => stale rfl
  notDetecting := rfl
  idle := rfl

/-- An answer through the gateway is stored and rolled up, then its key is attributed and a
second pass drains the request. -/
def lateAttribution : List Event :=
  [.store (.insertProbe ⟨1, "Qm", "0x00", 7, "q", "Q_byid", "", 0⟩),
    .store (.insertObservation ⟨1, "0xkey", some "a", some 40, none, none, some 200, none,
      .exact 1, .gateway, none, none, none⟩),
    .beginPass, .rollWindow, .listRequests, .endPass,
    .attributed IterOrder.asInserted "0xkey" "0xindexer" none,
    .beginDetect IterOrder.asInserted IterOrder.asInserted, .detect,
    .beginPass, .rollWindow, .listRequests, .rollRequest, .deleteRequest, .endPass]

def lateEvent (n : ℕ) : Event := lateAttribution.getD n (.tick 1)

private theorem lateEvent_of_le {n : ℕ} (past : 15 ≤ n) : lateEvent n = .tick 1 := by
  rw [lateEvent, List.getD_eq_getElem?_getD, List.getElem?_eq_none past]
  rfl

def lateState : ℕ → System
  | 0 => ⟨1000000000, Db.empty, [], .idle⟩
  | n + 1 => (step sampleRollup (lateState n) (lateEvent n)).getD (lateState n)

def lateRun : Run sampleRollup where
  state := lateState
  event := lateEvent
  move := by
    intro n
    have listed : ∀ n < 15, (step sampleRollup (lateState n) (lateEvent n)).isSome := by
      decide +kernel
    have possible : (step sampleRollup (lateState n) (lateEvent n)).isSome := by
      by_cases early : n < 15
      · exact listed n early
      · rw [lateEvent_of_le (by omega)]
        rfl
    obtain ⟨next, moved⟩ := Option.isSome_iff_exists.mp possible
    rw [lateState, moved, Option.getD_some]
    exact step_eq_some_iff.mp moved
  start := converged_empty _ _

/-- After an attribution that came late the bucket holds what a fresh rollup would write. -/
theorem lateAttribution_converges :
    ((lateRun.state 15).db.foghornQos.lookup ("0xindexer", "Qm", 0, 300)).map QosRow.measure =
      ((rollRange sampleRollup 0 0 none none
        { (lateRun.state 15).db with foghornQos := Table.empty }).1.foghornQos.lookup
          ("0xindexer", "Qm", 0, 300)).map QosRow.measure := by
  have inTime : lateRun.StoredInTime := by
    intro n statement stored p isProbe
    have reached : ∀ n < 2, ∀ statement, lateEvent n = .store statement →
        ∀ p ∈ statement.probeOf (lateState n).db, p.dispatchedAt = 0 := by
      intro n first statement stored
      obtain rfl | rfl : n = 0 ∨ n = 1 := by omega
      all_goals
        obtain rfl := Event.store.inj stored
        decide
    have first : n < 2 := by
      by_contra later
      by_cases past : 15 ≤ n
      · cases (lateEvent_of_le past).symm.trans stored
      · have event : lateEvent n = .store statement := stored
        interval_cases n <;> cases event
    refine ⟨3, sampleRollup.trailing 1000000000, by omega, rfl, rfl, ?_⟩
    rw [reached n first statement stored p isProbe]
    decide
  have drained : lateRun.DrainedPass 10 14 := {
    order := by decide
    rolls := rfl
    ends := rfl
    quiet := by
      intro n after before statement
      obtain rfl | rfl | rfl : n = 11 ∨ n = 12 ∨ n = 13 := by omega
      all_goals exact fun same => nomatch same
    notDetecting := by
      change (lateState 14).detecting = []
      decide +kernel
    drained := by decide +kernel }
  have early : ∀ p ∈ (lateState 15).db.probe.rows, (0 : Int) ≤ p.dispatchedAt := by decide +kernel
  exact qos_converges sampleRollup lateRun inTime drained 0 0 early _ (by decide +kernel)

end Samples

end Foghorn.Probe
