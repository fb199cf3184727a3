import Foghorn.Probe.Locality

/-!
# The loops side by side

Probing, attribution, detection and the rollup run as independent loops over one
database. A statement is the unit that commits, so a step executes one statement of one
of them. At most one detection and one rollup pass are under way, as each loop awaits
its own calls. `step` evaluates `Step`, and the `execEvents_` theorems say that the statements
of a call executed in a row are the call.
-/

namespace Foghorn.Probe

open Foghorn.Std Foghorn.Core

/-- How far a rollup pass has come. -/
inductive Pass where
  | idle
  /-- The clock is read: the window starts at `lower`. -/
  | begun (lower : Int)
  | rolledWindow
  /-- The requests that were listed and are still to be rolled. -/
  | draining (requests : List RerollRow)
  /-- The head is rolled and not yet deleted. -/
  | deleting (head : RerollRow) (rest : List RerollRow)

structure System where
  clock : Int
  db : Db
  /-- The statements a detection has still to execute. -/
  detecting : List DetectStatement
  pass : Pass

inductive Event where
  | tick (micros : Nat)
  | store (statement : StoreStatement)
  | attributed (groupOrder : IterOrder (String × List ProbeRow)) (key indexer : String)
    (url : Option String)
  | missing (key : String)
  | beginDetect (rowOrder : IterOrder NoisyRow) (changeOrder : IterOrder String)
  | detect
  | beginPass
  | rollWindow
  | listRequests
  | rollRequest
  | deleteRequest
  | endPass
  | failPass

/-- What one event does. A detection reads when it begins; what it reads later, samples of
diverging fields, no other loop reads. A rollup over buckets of no width divides by zero
and fails. -/
inductive Step (cfg : QosRollupConfig) : System → Event → System → Prop where
  | tick {s} (micros) : Step cfg s (.tick micros) { s with clock := s.clock + (micros : Int) }
  | store {s} (statement) : Step cfg s (.store statement) { s with db := statement.exec s.db }
  | attributed {s} (groupOrder key indexer url) :
    Step cfg s (.attributed groupOrder key indexer url)
      { s with db := recordAttribution groupOrder s.clock key indexer url s.db }
  | missing {s} (key) : Step cfg s (.missing key) { s with db := recordMissing s.clock key s.db }
  | beginDetect {s} (rowOrder changeOrder) (alone : s.detecting = []) :
    Step cfg s (.beginDetect rowOrder changeOrder)
      { s with detecting := DetectRun.program ⟨s.clock, rowOrder, changeOrder⟩ s.db }
  | detect {s} (statement rest) (next : s.detecting = statement :: rest) :
    Step cfg s .detect { s with db := statement.exec s.clock s.db, detecting := rest }
  | beginPass {s} (alone : s.pass = .idle) :
    Step cfg s .beginPass { s with pass := .begun (cfg.trailing s.clock) }
  | rollWindow {s} (lower) (begun : s.pass = .begun lower) (positive : 0 < cfg.bucketSecs) :
    Step cfg s .rollWindow
      { s with db := (rollRange cfg s.clock lower none none s.db).1, pass := .rolledWindow }
  | listRequests {s} (rolled : s.pass = .rolledWindow) :
    Step cfg s .listRequests { s with pass := .draining (listRequests s.db) }
  | rollRequest {s} (head rest) (next : s.pass = .draining (head :: rest))
      (positive : 0 < cfg.bucketSecs) :
    Step cfg s .rollRequest
      { s with db := (rollRequest cfg s.clock head s.db).1, pass := .deleting head rest }
  | deleteRequest {s} (head rest) (rolled : s.pass = .deleting head rest) :
    Step cfg s .deleteRequest
      { s with db := deleteRequest head s.db, pass := .draining rest }
  | endPass {s} (done : s.pass = .draining []) : Step cfg s .endPass { s with pass := .idle }
  | failPass {s} : Step cfg s .failPass { s with pass := .idle }

/-- The successor under an event, if the event can happen. -/
def step (cfg : QosRollupConfig) (s : System) : Event → Option System
  | .tick micros => some { s with clock := s.clock + (micros : Int) }
  | .store statement => some { s with db := statement.exec s.db }
  | .attributed groupOrder key indexer url =>
    some { s with db := recordAttribution groupOrder s.clock key indexer url s.db }
  | .missing key => some { s with db := recordMissing s.clock key s.db }
  | .beginDetect rowOrder changeOrder =>
    match s.detecting with
    | [] => some { s with detecting := DetectRun.program ⟨s.clock, rowOrder, changeOrder⟩ s.db }
    | _ => none
  | .detect =>
    match s.detecting with
    | statement :: rest => some { s with db := statement.exec s.clock s.db, detecting := rest }
    | _ => none
  | .beginPass =>
    match s.pass with
    | .idle => some { s with pass := .begun (cfg.trailing s.clock) }
    | _ => none
  | .rollWindow =>
    match s.pass with
    | .begun lower =>
      if 0 < cfg.bucketSecs then
        some { s with db := (rollRange cfg s.clock lower none none s.db).1, pass := .rolledWindow }
      else none
    | _ => none
  | .listRequests =>
    match s.pass with
    | .rolledWindow => some { s with pass := .draining (listRequests s.db) }
    | _ => none
  | .rollRequest =>
    match s.pass with
    | .draining (head :: rest) =>
      if 0 < cfg.bucketSecs then
        some { s with db := (rollRequest cfg s.clock head s.db).1, pass := .deleting head rest }
      else none
    | _ => none
  | .deleteRequest =>
    match s.pass with
    | .deleting head rest => some { s with db := deleteRequest head s.db, pass := .draining rest }
    | _ => none
  | .endPass =>
    match s.pass with
    | .draining [] => some { s with pass := .idle }
    | _ => none
  | .failPass => some { s with pass := .idle }

/-- The executable step makes exactly the moves of the relation. -/
theorem step_eq_some_iff {cfg : QosRollupConfig} {s s' : System} {event : Event} :
    step cfg s event = some s' ↔ Step cfg s event s' := by
  constructor
  · intro moved
    cases event with
    | tick micros => obtain rfl := Option.some.inj moved; exact .tick micros
    | store statement => obtain rfl := Option.some.inj moved; exact .store statement
    | attributed groupOrder key indexer url =>
      obtain rfl := Option.some.inj moved
      exact .attributed groupOrder key indexer url
    | missing key => obtain rfl := Option.some.inj moved; exact .missing key
    | failPass => obtain rfl := Option.some.inj moved; exact .failPass
    | beginDetect rowOrder changeOrder =>
      simp only [step] at moved
      split at moved <;> cases moved
      exact .beginDetect rowOrder changeOrder ‹_›
    | detect =>
      simp only [step] at moved
      split at moved <;> cases moved
      exact .detect _ _ ‹_›
    | beginPass =>
      simp only [step] at moved
      split at moved <;> cases moved
      exact .beginPass ‹_›
    | rollWindow =>
      simp only [step] at moved
      split at moved
      · obtain ⟨positive, same⟩ := Option.ite_none_right_eq_some.mp moved
        cases same
        exact .rollWindow _ ‹_› positive
      · cases moved
    | listRequests =>
      simp only [step] at moved
      split at moved <;> cases moved
      exact .listRequests ‹_›
    | rollRequest =>
      simp only [step] at moved
      split at moved
      · obtain ⟨positive, same⟩ := Option.ite_none_right_eq_some.mp moved
        cases same
        exact .rollRequest _ _ ‹_› positive
      · cases moved
    | deleteRequest =>
      simp only [step] at moved
      split at moved <;> cases moved
      exact .deleteRequest _ _ ‹_›
    | endPass =>
      simp only [step] at moved
      split at moved <;> cases moved
      exact .endPass ‹_›
  · intro move
    cases move with
    | tick | store | attributed | missing | failPass => rfl
    | beginDetect rowOrder changeOrder alone => simp [step, alone]
    | detect statement rest next => simp [step, next]
    | beginPass alone => simp [step, alone]
    | rollWindow lower begun positive => simp [step, begun, positive]
    | listRequests rolled => simp [step, rolled]
    | rollRequest head rest next positive => simp [step, next, positive]
    | deleteRequest head rest rolled => simp [step, rolled]
    | endPass done => simp [step, done]

/-- A sequence of events from a state. -/
def execEvents (cfg : QosRollupConfig) (s : System) (events : List Event) : Option System :=
  events.foldlM (step cfg) s

section Calls

variable {cfg : QosRollupConfig} {s : System}

private theorem execEvents_cons {event : Event} {next : System} (move : Step cfg s event next)
    (events : List Event) : execEvents cfg s (event :: events) = execEvents cfg next events := by
  rw [execEvents, List.foldlM_cons, step_eq_some_iff.mpr move]
  rfl

/-- The statements of `store_results` in a row. -/
theorem execEvents_store (statements : List StoreStatement) :
    execEvents cfg s (statements.map .store) =
      some { s with db := runAll StoreStatement.exec statements s.db } := by
  induction statements generalizing s with
  | nil => rfl
  | cons statement rest ih => rw [List.map_cons, execEvents_cons (.store statement), ih]; rfl

/-- Running what is left of a detector run is executing its statements. -/
theorem execEvents_detect {statements : List DetectStatement}
    (under : s.detecting = statements) :
    execEvents cfg s (statements.map fun _ => .detect) =
      some { s with
        db := runAll (DetectStatement.exec s.clock) statements s.db, detecting := [] } := by
  induction statements generalizing s with
  | nil =>
    obtain ⟨clock, db, detecting, pass⟩ := s
    cases under
    rfl
  | cons statement rest ih => rw [List.map_cons, execEvents_cons (.detect _ _ under), ih rfl]; rfl

/-- A detection that nothing comes between. -/
theorem execEvents_detection (alone : s.detecting = []) (rowOrder : IterOrder NoisyRow)
    (changeOrder : IterOrder String) :
    let run : DetectRun := ⟨s.clock, rowOrder, changeOrder⟩
    execEvents cfg s (.beginDetect rowOrder changeOrder :: (run.program s.db).map fun _ => .detect) =
      some { s with db := run.complete s.db } := by
  intro run
  rw [execEvents_cons (.beginDetect rowOrder changeOrder alone), execEvents_detect rfl]
  simp only [run, DetectRun.complete, alone]

/-- The rolling and deleting of listed requests, and the end of the pass. -/
theorem execEvents_drain (positive : 0 < cfg.bucketSecs) (requests : List RerollRow)
    (rows : Nat) (draining : s.pass = .draining requests) :
    execEvents cfg s
        ((requests.flatMap fun _ => [.rollRequest, .deleteRequest]) ++ [.endPass]) =
      some { s with
        db := (requests.foldl (fun (db, rows) request =>
          let (db, more) := rollRequest cfg s.clock request db
          (deleteRequest request db, rows + more)) (s.db, rows)).1
        pass := .idle } := by
  induction requests generalizing s rows with
  | nil => exact execEvents_cons (.endPass draining) []
  | cons head rest ih =>
    rw [List.flatMap_cons, List.append_assoc, List.cons_append,
      execEvents_cons (.rollRequest _ _ draining positive), List.cons_append,
      execEvents_cons (.deleteRequest _ _ rfl), List.nil_append]
    exact ih _ rfl

/-- A pass that nothing comes between is `rollup_once`. -/
theorem execEvents_pass (positive : 0 < cfg.bucketSecs) (alone : s.pass = .idle) :
    execEvents cfg s ([.beginPass, .rollWindow, .listRequests] ++
        ((listRequests s.db).flatMap fun _ => [.rollRequest, .deleteRequest]) ++ [.endPass]) =
      some { s with db := (rollupOnce cfg s.clock s.db).1 } := by
  rw [List.append_assoc, List.cons_append, execEvents_cons (.beginPass alone), List.cons_append,
    execEvents_cons (.rollWindow _ rfl positive), List.cons_append,
    execEvents_cons (.listRequests rfl), List.nil_append]
  let window := rollRange cfg s.clock (cfg.trailing s.clock) none none s.db
  let rolled : System := { s with db := window.1, pass := .draining (listRequests s.db) }
  have drain : execEvents cfg rolled _ = _ :=
    execEvents_drain positive (listRequests s.db) window.2 rfl
  refine drain.trans ?_
  simp only [rolled, ← alone]
  rfl

end Calls

end Foghorn.Probe
