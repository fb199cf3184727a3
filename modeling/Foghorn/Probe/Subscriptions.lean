import Foghorn.Core.AlertFacts
import Foghorn.Std.Program

/-!
# Cycles of a subscription

A cycle stores what it saw when there is nothing to deliver or the delivery went through, and
nothing otherwise, so the next cycle compares with the same old state and reports the same
facts again. A cycle in between that stores a newer state, because it is quiet or because it
delivers something else, loses a fact only where that state forgets about a deployment that the
snapshot does not list, or where a newer level of its signal is reported.
-/

namespace Foghorn.Probe

open Foghorn.Std Foghorn.Core

/-- `DISABLE_AFTER_FAILURES`. -/
def disableAfterFailures : Int := 96

/-- `alert_subscription` with its `alert_subscription_state`. -/
structure Subscription where
  choice : AlertChoice
  consecutiveFailures : Int
  lastError : Option String
  disabled : Bool
  state : AlertState

/-- A new subscription has no stored state. -/
def Subscription.new (choice : AlertChoice) : Subscription := ⟨choice, 0, none, false, .empty⟩

/-- What a cycle meets: the snapshot unless it could not be fetched, the answer of the webhook,
and whether the database takes the write. -/
structure SubscriptionCycle where
  snapshot : Option Snapshot
  delivery : Except String Unit
  written : Bool

namespace Subscription

/-- `save_state`. -/
def saveState (sub : Subscription) (next : AlertState) (delivered : Bool) : Subscription :=
  { sub with
    state := next
    consecutiveFailures := if delivered then 0 else sub.consecutiveFailures
    lastError := if delivered then none else sub.lastError }

def recordFailure (sub : Subscription) (error : String) : Subscription :=
  { sub with
    consecutiveFailures := sub.consecutiveFailures + 1
    lastError := some error
    disabled := disableAfterFailures ≤ sub.consecutiveFailures + 1 }

/-- The alerts that a cycle has to deliver. -/
def alerts (sub : Subscription) (cycle : SubscriptionCycle) : List Alert :=
  match sub.disabled, cycle.snapshot with
  | false, some snap => (evaluate sub.state sub.choice snap).1
  | _, _ => []

/-- `run_cycle`, for one subscription. -/
def runCycle (cycle : SubscriptionCycle) (sub : Subscription) : Subscription :=
  match sub.disabled, cycle.snapshot with
  | false, some snap =>
    let (events, next) := evaluate sub.state sub.choice snap
    if ¬ cycle.written then sub
    else if events = [] then sub.saveState next false
    else
      match cycle.delivery with
      | .ok () => sub.saveState next true
      | .error e => sub.recordFailure e
  | _, _ => sub

/-- The events that reach the subscriber. -/
def delivered (sub : Subscription) (cycle : SubscriptionCycle) : List Alert :=
  match cycle.delivery with
  | .ok () => sub.alerts cycle
  | .error _ => []

end Subscription

/-- A subscription, and the facts that were reported without a delivery and are not covered by a
delivery since. -/
structure Watched where
  sub : Subscription
  undelivered : List Fact

namespace Watched

def step (cycle : SubscriptionCycle) (watched : Watched) : Watched where
  sub := watched.sub.runCycle cycle
  undelivered :=
    if watched.sub.delivered cycle = [] then
      watched.undelivered ++ (watched.sub.alerts cycle).map Alert.fact
    else
      watched.undelivered.filter fun fact =>
        ∀ alert ∈ watched.sub.delivered cycle, ¬ fact.CoveredBy alert.fact

/-- A cycle whose delivery succeeds delivers every undelivered fact that still holds. -/
def Retries (cycle : SubscriptionCycle) (watched : Watched) : Prop :=
  watched.sub.delivered cycle ≠ [] → ∀ snap, cycle.snapshot = some snap →
    ∀ fact ∈ watched.undelivered, fact.HoldsIn snap →
      ∃ alert ∈ watched.sub.delivered cycle, fact.CoveredBy alert.fact

/-- A cycle that stores what it saw, since the webhook answers or nothing that the stored state
awaits holds, keeps every undelivered fact that its snapshot does not have. -/
def Lists (cycle : SubscriptionCycle) (watched : Watched) : Prop :=
  watched.sub.disabled = false → cycle.written = true → ∀ snap, cycle.snapshot = some snap →
    (cycle.delivery = .ok () ∨
      ∀ fact : Fact, watched.sub.state.Awaits watched.sub.choice fact → ¬ fact.HoldsIn snap) →
      ∀ fact ∈ watched.undelivered, ¬ fact.HoldsIn snap →
        fact.KeptBy watched.sub.state watched.sub.choice snap

/-- The invariant: the stored state awaits every undelivered fact. -/
def Ready (watched : Watched) : Prop :=
  ∀ fact ∈ watched.undelivered, watched.sub.state.Awaits watched.sub.choice fact

variable {cycle : SubscriptionCycle} {watched : Watched}

/-- A cycle evaluates a snapshot, or does nothing. -/
theorem cycle_cases (cycle : SubscriptionCycle) (sub : Subscription) :
    (sub.alerts cycle = [] ∧ sub.runCycle cycle = sub) ∨
      ∃ snap, sub.disabled = false ∧ cycle.snapshot = some snap ∧
        sub.alerts cycle = (evaluate sub.state sub.choice snap).1 := by
  cases off : sub.disabled with
  | true => exact .inl ⟨by rw [Subscription.alerts, off], by rw [Subscription.runCycle, off]⟩
  | false =>
    cases seen : cycle.snapshot with
    | none =>
      exact .inl ⟨by rw [Subscription.alerts, off, seen], by rw [Subscription.runCycle, off, seen]⟩
    | some snap => exact .inr ⟨snap, rfl, rfl, by rw [Subscription.alerts, off, seen]⟩

/-- A cycle keeps what the subscriber chose. -/
theorem choice_runCycle (cycle : SubscriptionCycle) (sub : Subscription) :
    (sub.runCycle cycle).choice = sub.choice := by
  fun_cases Subscription.runCycle cycle sub <;> rfl

/-- A cycle that has nothing to deliver or delivers stores the new state, if the database takes
it. -/
theorem state_stored {sub : Subscription} {snap : Snapshot} (on : sub.disabled = false)
    (seen : cycle.snapshot = some snap)
    (stores : (evaluate sub.state sub.choice snap).1 = [] ∨ cycle.delivery = .ok ()) :
    (sub.runCycle cycle).state =
      if cycle.written then (evaluate sub.state sub.choice snap).2 else sub.state := by
  rw [Subscription.runCycle, on, seen]
  dsimp only
  cases cycle.written with
  | false => rfl
  | true =>
    rw [if_neg (not_not.mpr rfl), if_pos rfl]
    split
    · rfl
    · next reported =>
      rw [stores.resolve_left reported]
      rfl

/-- A cycle that could not deliver keeps the state. -/
theorem state_undelivered {sub : Subscription} (reported : sub.alerts cycle ≠ [])
    (failed : sub.delivered cycle = []) : (sub.runCycle cycle).state = sub.state := by
  rcases cycle_cases cycle sub with ⟨nothing, -⟩ | ⟨snap, on, seen, told⟩
  · exact absurd nothing reported
  · rw [told] at reported
    rw [Subscription.runCycle, on, seen]
    cases delivery : cycle.delivery with
    | ok answer =>
      rw [Subscription.delivered, delivery, told] at failed
      exact absurd failed reported
    | error e => cases cycle.written <;> simp [reported, Subscription.recordFailure]

/-- What reaches the subscriber is all there was to deliver. -/
theorem delivered_cases (cycle : SubscriptionCycle) (sub : Subscription) :
    sub.delivered cycle = [] ∨
      cycle.delivery = .ok () ∧ sub.delivered cycle = sub.alerts cycle := by
  rw [Subscription.delivered]
  cases cycle.delivery with
  | ok answer => exact .inr ⟨rfl, rfl⟩
  | error e => exact .inl rfl

/-- Storing a snapshot keeps the facts awaited that it does not have. -/
theorem awaits_stored (consistent : ∀ snap, cycle.snapshot = some snap → snap.Consistent)
    (lists : watched.Lists cycle) (ready : watched.Ready) {snap : Snapshot}
    (on : watched.sub.disabled = false) (seen : cycle.snapshot = some snap)
    (stores : (evaluate watched.sub.state watched.sub.choice snap).1 = [] ∨
      cycle.delivery = .ok ())
    {fact : Fact} (member : fact ∈ watched.undelivered) (absent : ¬ fact.HoldsIn snap) :
    (watched.sub.runCycle cycle).state.Awaits watched.sub.choice fact := by
  rw [state_stored on seen stores]
  cases stored : cycle.written with
  | false => exact ready fact member
  | true =>
    have kept := lists on stored snap seen
      (stores.symm.imp id (evaluate_eq_nil_iff (consistent snap seen)).mp) fact member absent
    exact awaits_evaluate (consistent snap seen) (ready fact member) absent kept

/-- A cycle that lists what is awaited leaves the subscription ready. -/
theorem ready_step (consistent : ∀ snap, cycle.snapshot = some snap → snap.Consistent)
    (lists : watched.Lists cycle) (ready : watched.Ready) : (watched.step cycle).Ready := by
  intro fact member
  rw [step] at member ⊢
  simp only [choice_runCycle] at member ⊢
  rcases cycle_cases cycle watched.sub with ⟨nothing, same⟩ | ⟨snap, on, seen, told⟩
  · -- Nothing is evaluated, so nothing is reported or struck off.
    have silent : watched.sub.delivered cycle = [] :=
      (delivered_cases cycle watched.sub).elim id fun posted => posted.2.trans nothing
    rw [if_pos silent, nothing, List.map_nil, List.append_nil] at member
    rw [same]
    exact ready fact member
  · by_cases silent : watched.sub.delivered cycle = []
    · rw [if_pos silent] at member
      by_cases quiet : watched.sub.alerts cycle = []
      · rw [quiet, List.map_nil, List.append_nil] at member
        rw [told] at quiet
        refine awaits_stored consistent lists ready on seen (.inl quiet) member ?_
        exact (evaluate_eq_nil_iff (consistent snap seen)).mp quiet fact (ready fact member)
      · rw [state_undelivered quiet silent]
        rcases List.mem_append.mp member with old | new
        · exact ready fact old
        · obtain ⟨alert, reported, rfl⟩ := List.mem_map.mp new
          exact (awaits_of_mem (told ▸ reported)).1
    · rw [if_neg silent] at member
      obtain ⟨among, uncovered⟩ := List.mem_filter.mp member
      obtain ⟨answered, posted⟩ := (delivered_cases cycle watched.sub).resolve_left silent
      refine awaits_stored consistent lists ready on seen (.inr answered) among fun holds => ?_
      obtain ⟨alert, reported, covers⟩ :=
        exists_mem_of_awaits (consistent snap seen) (ready fact among) holds
      rw [← told, ← posted] at reported
      exact of_decide_eq_true uncovered alert reported covers

/-- A ready subscription retries what it still owes. -/
theorem retries_of_ready (consistent : ∀ snap, cycle.snapshot = some snap → snap.Consistent)
    (ready : watched.Ready) : watched.Retries cycle := by
  intro success snap seen fact member holds
  obtain ⟨-, posted⟩ := (delivered_cases cycle watched.sub).resolve_left success
  rcases cycle_cases cycle watched.sub with ⟨nothing, -⟩ | ⟨other, -, same, told⟩
  · exact absurd (posted.trans nothing) success
  · cases same.symm.trans seen
    rw [posted, told]
    exact exists_mem_of_awaits (consistent snap seen) (ready fact member) holds

end Watched

/-- In a run whose storing cycles keep the undelivered facts, every cycle that delivers delivers
the facts that were reported before without a delivery, were not covered by one since, and
still hold. -/
theorem listing_run_retries (sub : Subscription) (cycles : List SubscriptionCycle)
    (consistent : ∀ cycle ∈ cycles, ∀ snap, cycle.snapshot = some snap → snap.Consistent)
    (lists : Throughout Watched.step (fun cycle watched => watched.Lists cycle) cycles ⟨sub, []⟩) :
    Throughout Watched.step (fun cycle watched => watched.Retries cycle) cycles ⟨sub, []⟩ := by
  refine Throughout.imp Watched.Ready (fun cycle member watched ready listed => ?_)
    (fun cycle member watched ready _ => ?_) (fun fact none_yet => absurd none_yet (by simp)) lists
  · exact Watched.ready_step (consistent cycle member) listed ready
  · exact Watched.retries_of_ready (consistent cycle member) ready

section Samples

def everyKind : AlertChoice := ⟨["poi", "denied", "signal", "cuts", "reo"], 20⟩

/-- An allocation on one deployment. -/
def onDeployment (denied : Bool) : AllocSnap := ⟨"0xa", "QmA", none, 100, 1000, denied⟩

def snapshotOf (allocations : List AllocSnap) (queryFeeCut : Int) : Snapshot :=
  ⟨100, allocations, some 100000, some queryFeeCut, some "eligible"⟩

def answeredCycle (snap : Snapshot) : SubscriptionCycle := ⟨some snap, .ok (), true⟩

def refusedCycle (snap : Snapshot) : SubscriptionCycle :=
  ⟨some snap, .error "the webhook did not answer", true⟩

/-- A denial is lifted while the webhook is down. -/
def liftedUnheard : List SubscriptionCycle :=
  [answeredCycle (snapshotOf [onDeployment true] 0), refusedCycle (snapshotOf [onDeployment false] 0)]

private theorem consistent_snapshotOf {queryFeeCut : Int} {allocations : List AllocSnap}
    (few : allocations.length ≤ 1) : (snapshotOf allocations queryFeeCut).Consistent := by
  have alike : ∀ a ∈ allocations, ∀ b ∈ allocations, a = b := by
    intro a first b second
    match allocations with
    | [] => cases first
    | [only] => rw [List.mem_singleton.mp first, List.mem_singleton.mp second]
  exact ⟨fun a first b second _ => congrArg AllocSnap.denied (alike a first b second),
    fun a first b second _ => congrArg AllocSnap.signalGrt (alike a first b second)⟩

private theorem consistent_liftedUnheard {more : List SubscriptionCycle}
    (few : ∀ cycle ∈ more, ∃ allocations queryFeeCut, allocations.length ≤ 1 ∧
      cycle.snapshot = some (snapshotOf allocations queryFeeCut)) :
    ∀ cycle ∈ liftedUnheard ++ more, ∀ snap, cycle.snapshot = some snap → snap.Consistent := by
  intro cycle member snap seen
  rcases List.mem_append.mp member with first | later
  · simp only [liftedUnheard, List.mem_cons, List.not_mem_nil, or_false] at first
    rcases first with rfl | rfl <;> cases seen <;> exact consistent_snapshotOf (by decide)
  · obtain ⟨allocations, queryFeeCut, short, shown⟩ := few cycle later
    cases seen.symm.trans shown
    exact consistent_snapshotOf short

/-- The webhook is back, first for other cuts while the denial is there again. -/
def liftedAgain : List SubscriptionCycle :=
  [answeredCycle (snapshotOf [onDeployment true] 1), answeredCycle (snapshotOf [onDeployment false] 2)]

/-- The lifted denial is reported as soon as it holds. -/
theorem lifted_denial_retried :
    Throughout Watched.step (fun cycle watched => watched.Retries cycle)
      (liftedUnheard ++ liftedAgain) ⟨Subscription.new everyKind, []⟩ := by
  refine listing_run_retries (Subscription.new everyKind) _
    (consistent_liftedUnheard (by simp [liftedAgain, answeredCycle, snapshotOf])) ?_
  have first : (runAll Watched.step (liftedUnheard.take 1)
      ⟨Subscription.new everyKind, []⟩).undelivered = [] := by decide
  have second : (runAll Watched.step liftedUnheard ⟨Subscription.new everyKind, []⟩).undelivered =
      [.denied "QmA" false] := by decide +kernel
  have third : (runAll Watched.step (liftedUnheard ++ liftedAgain.take 1)
      ⟨Subscription.new everyKind, []⟩).undelivered = [.denied "QmA" false] := by decide +kernel
  refine ⟨fun _ _ _ _ _ fact member => ?_, fun _ _ _ _ _ fact member => ?_,
    fun _ _ snap seen _ fact member _ => ?_, fun _ _ snap seen _ fact member absent => ?_, trivial⟩
  · cases member
  · change fact ∈ (runAll Watched.step (liftedUnheard.take 1)
      ⟨Subscription.new everyKind, []⟩).undelivered at member
    rw [first] at member
    cases member
  · change fact ∈ (runAll Watched.step liftedUnheard
      ⟨Subscription.new everyKind, []⟩).undelivered at member
    rw [second, List.mem_singleton] at member
    subst member
    cases seen
    exact ⟨onDeployment true, List.mem_cons_self, rfl⟩
  · change fact ∈ (runAll Watched.step (liftedUnheard ++ liftedAgain.take 1)
      ⟨Subscription.new everyKind, []⟩).undelivered at member
    rw [third, List.mem_singleton] at member
    subst member
    cases seen
    exact absurd ⟨onDeployment false, List.mem_cons_self, rfl, rfl⟩ absent

/-- A quiet cycle without the allocation comes in between: its state has no denial left that
could be lifted. -/
theorem unlisted_deployment_refutes :
    ¬ ∀ (sub : Subscription) (cycles : List SubscriptionCycle), 1 ≤ sub.choice.signalMovePct →
      (∀ cycle ∈ cycles, ∀ snap, cycle.snapshot = some snap → snap.Consistent) →
        Throughout Watched.step (fun cycle watched => watched.Retries cycle) cycles ⟨sub, []⟩ := by
  intro claim
  have run := claim (Subscription.new everyKind)
    (liftedUnheard ++ [answeredCycle (snapshotOf [] 0),
      answeredCycle (snapshotOf [onDeployment false] 1)]) (by decide)
    (consistent_liftedUnheard (by simp [answeredCycle, snapshotOf]))
  obtain ⟨-, -, -, last, -⟩ := run
  obtain ⟨alert, posted, covers⟩ := last (by decide) _ rfl (.denied "QmA" false) (by decide)
    ⟨onDeployment false, List.mem_cons_self, rfl, rfl⟩
  have only : alert = .cuts (100000, 0) (100000, 1) := by
    simpa using (show alert ∈ [Alert.cuts (100000, 0) (100000, 1)] from posted)
  subst only
  cases covers

end Samples

end Foghorn.Probe
