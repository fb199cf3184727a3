import Foghorn.Api.CreateSubscription
import Foghorn.Std.Collections

/-!
# The alert loop beside the requests

A cycle of the alert loop reads the active subscriptions once and then asks, posts and stores for
one after the other, while requests insert and remove subscriptions. It stores what it computed
from rows it read long before. Nothing else writes what it stores, so each subscription lives the
life of `Subscription.runCycle` on its own, in any order of the steps.
-/

namespace Foghorn.Api

open Foghorn.Std Foghorn.Core Foghorn.Probe

section Describe

-- `token_hash`
variable (tokenHash : String → String)

structure Described where
  id : Uuid
  indexer : String
  webhookHost : String
  choice : AlertChoice
  consecutiveFailures : Int
  lastError : Option String
  disabled : Bool

def SubscriptionRow.described (row : SubscriptionRow) : Described where
  id := row.id
  indexer := row.indexerAddress
  webhookHost :=
    match checkWebhookUrl row.webhookUrl with
    | .ok (host, _) => host
    | .error _ => ""
  choice := row.sub.choice
  consecutiveFailures := row.sub.consecutiveFailures
  lastError := row.sub.lastError
  disabled := row.sub.disabled

/-- A wrong token and a missing row are refused alike. -/
def describe (id : Uuid) (token : String) (subs : SubscriptionTable) : Except Refusal Described :=
  match (subs.lookup id).filter fun row => row.manageTokenSha256 = tokenHash token with
  | some row => .ok row.described
  | none => .error ⟨404, "no such subscription"⟩

end Describe

section Loop

/-- An active subscription, as a cycle read it. -/
structure Sub where
  id : Uuid
  indexer : String
  url : String
  choice : AlertChoice
  state : AlertState

def SubscriptionRow.read (row : SubscriptionRow) : Sub where
  id := row.id
  indexer := row.indexerAddress
  url := row.webhookUrl
  choice := row.sub.choice
  state := row.sub.state

/-- The subscriptions of one indexer come in any order. -/
def readSubs (order : IterOrder SubscriptionRow) (subs : SubscriptionTable) : List Sub :=
  ((order.arrange (subs.rows.filter SubscriptionRow.isActive)).mergeSort
    fun left right => left.indexerAddress ≤ right.indexerAddress).map SubscriptionRow.read

/-- What was evaluated for a subscription, and posted if there was anything to post. -/
structure Turn where
  sub : Sub
  snap : Snapshot
  delivery : Except String Unit

def Turn.events (turn : Turn) : List Alert := (evaluate turn.sub.state turn.sub.choice turn.snap).1

def Turn.next (turn : Turn) : AlertState := (evaluate turn.sub.state turn.sub.choice turn.snap).2

def updateSub (id : Uuid) (update : Subscription → Subscription) (subs : SubscriptionTable) :
    SubscriptionTable :=
  subs.updateWhere (·.id = id) (fun row => { row with sub := update row.sub }) fun _ => rfl

/-- `save_state`; a state belongs to a subscription that is there. -/
def saveState (id : Uuid) (next : AlertState) (delivered : Bool) (subs : SubscriptionTable) :
    Option SubscriptionTable :=
  if subs.holds id then some (updateSub id (·.saveState next delivered) subs) else none

/-- The statements after a post, or without one; `none` is their failure. A failed post of a
subscription that is gone is counted nowhere. -/
def Turn.store (turn : Turn) (subs : SubscriptionTable) : Option SubscriptionTable :=
  if turn.events = [] then saveState turn.sub.id turn.next false subs
  else
    match turn.delivery with
    | .ok () => saveState turn.sub.id turn.next true subs
    | .error e => some (updateSub turn.sub.id (·.recordFailure e) subs)

/-- A cycle that was begun. -/
structure CycleState where
  pending : List Sub
  currentEpoch : Option Int
  snapshots : List (String × Option Snapshot)
  unsaved : Option Turn

/-- The service, the cycle of the loop if it is not asleep, and every post it made. -/
structure Alerting where
  service : Service
  cycle : Option CycleState
  posted : List Turn

/-- An event of a request, not of the loop. -/
def ServiceEvent.isRequest : ServiceEvent → Bool
  | .cycle _ _ => false
  | _ => true

inductive LoopEvent where
  | request (event : { event : ServiceEvent // event.isRequest })
  | read (order : IterOrder SubscriptionRow)
  /-- The network statistics, with the epoch if they were served. -/
  | network (currentEpoch : Option Int)
  /-- The next subscription: what is served of its indexer, and how its webhook answers. -/
  | turn (served : Option Snapshot) (delivery : Except String Unit)
  /-- Whether the database takes the statements of the turn. -/
  | store (written : Bool)
  | restart

namespace CycleState

/-- One snapshot for each indexer, failed or not, in the epoch of the cycle. -/
def takeTurn (sub : Sub) (rest : List Sub) (epoch : Int) (served : Option Snapshot)
    (delivery : Except String Unit) (cycle : CycleState) : CycleState :=
  let snap := (cycle.snapshots.lookup sub.indexer).getD
    (served.map fun snap => { snap with currentEpoch := epoch })
  { pending := rest
    currentEpoch := epoch
    snapshots :=
      if (cycle.snapshots.lookup sub.indexer).isSome then cycle.snapshots
      else (sub.indexer, snap) :: cycle.snapshots
    unsaved := snap.map fun snap => ⟨sub, snap, delivery⟩ }

/-- The subscriptions it has not stored yet. -/
def subs (cycle : CycleState) : List Sub := (cycle.unsaved.map Turn.sub).toList ++ cycle.pending

end CycleState

namespace Alerting

def subscriptions (system : Alerting) : SubscriptionTable := system.service.subscriptions

def begin (order : IterOrder SubscriptionRow) (system : Alerting) : Alerting :=
  let subs := readSubs order system.subscriptions
  { system with cycle := if subs.isEmpty then none else some ⟨subs, none, [], none⟩ }

def sleep (system : Alerting) : Alerting := { system with cycle := none }

/-- A turn begins where the one before was stored. -/
def turn (served : Option Snapshot) (delivery : Except String Unit)
    (system : Alerting) : Alerting :=
  match system.cycle with
  | some ⟨[], some _, _, none⟩ => system.sleep
  | some ⟨sub :: rest, some epoch, snapshots, none⟩ =>
    let cycle := CycleState.takeTurn sub rest epoch served delivery
      ⟨sub :: rest, some epoch, snapshots, none⟩
    { system with
      cycle := some cycle
      posted := system.posted ++ cycle.unsaved.toList.filter fun turn => turn.events ≠ [] }
  | _ => system

/-- A statement that fails ends the cycle. -/
def store (written : Bool) (system : Alerting) : Alerting :=
  match system.cycle with
  | some ⟨pending, epoch, snapshots, some turn⟩ =>
    match written, turn.store system.subscriptions with
    | true, some subscriptions =>
      { system with
        service := { system.service with subscriptions }
        cycle := some ⟨pending, epoch, snapshots, none⟩ }
    | _, _ => system.sleep
  | _ => system

-- `token_hash`
variable (tokenHash : String → String)

def step : LoopEvent → Alerting → Alerting
  | .request event, system => { system with service := system.service.step tokenHash event }
  | .read order, system => if system.cycle.isNone then system.begin order else system
  | .network epoch, system =>
    match system.cycle with
    | some ⟨pending, none, snapshots, none⟩ =>
      { system with cycle := epoch.map fun epoch => ⟨pending, some epoch, snapshots, none⟩ }
    | _ => system
  | .turn served delivery, system => system.turn served delivery
  | .store written, system => system.store written
  | .restart, system => system.sleep

/-- The subscriptions the cycle has not stored yet. -/
def subs (system : Alerting) : List Sub := system.cycle.elim [] CycleState.subs

/-- The turn that is not stored yet. -/
def unsaved (system : Alerting) : Option Turn := system.cycle.bind CycleState.unsaved

end Alerting

end Loop

section Lives

-- `token_hash`
variable (tokenHash : String → String)

/-- The cycle of a subscription that ends with the statements of the turn. -/
def cycleOf (id : Uuid) (written : Bool) (system : Alerting) : List SubscriptionCycle :=
  (system.unsaved.toList.filter fun turn => turn.sub.id = id).map fun turn =>
    ⟨some turn.snap, turn.delivery, written⟩

/-- The cycle of a subscription that an event ends. A restart before the statements of a turn is a
failure of theirs. -/
def turnsAt (id : Uuid) : LoopEvent → Alerting → List SubscriptionCycle
  | .store written, system => cycleOf id written system
  | .restart, system => cycleOf id false system
  | _, _ => []

/-- The cycles of a subscription in a run. -/
def turnsOf (id : Uuid) : List LoopEvent → Alerting → List SubscriptionCycle
  | [], _ => []
  | event :: rest, system =>
    turnsAt id event system ++ turnsOf id rest (system.step tokenHash event)

/-- What a subscription has to deliver in a list of cycles. -/
def toldIn : List SubscriptionCycle → Subscription → List Alert
  | [], _ => []
  | cycle :: rest, sub => sub.alerts cycle ++ toldIn rest (sub.runCycle cycle)

/-- What was posted to a subscription. -/
def toldTo (id : Uuid) (system : Alerting) : List Alert :=
  (system.posted.filter fun turn => turn.sub.id = id).flatMap Turn.events

/-- What was posted in a turn that is not stored yet. -/
def unsavedAlerts (id : Uuid) (system : Alerting) : List Alert :=
  (system.unsaved.toList.filter fun turn => turn.sub.id = id).flatMap Turn.events

/-- The event is a removal that names the subscription and knows its token. -/
def Removes (row : SubscriptionRow) (event : LoopEvent) : Prop :=
  ∃ token, tokenHash token = row.manageTokenSha256 ∧
    event = .request ⟨.remove row.id token, rfl⟩

/-- How a subscription stands in a run: its row, and what it was told. -/
structure Follows (row : SubscriptionRow) (sub : Subscription) (told : List Alert)
    (system : Alerting) : Prop where
  stored : system.subscriptions.lookup row.id = some { row with sub }
  read : ∀ taken ∈ system.subs, taken.id = row.id →
    taken = SubscriptionRow.read { row with sub } ∧ sub.disabled = false
  distinct : (system.subs.map Sub.id).Nodup
  posted : toldTo row.id system = told ++ unsavedAlerts row.id system
  addressed : ∀ turn ∈ system.posted, turn.sub.id = row.id →
    turn.sub.url = row.webhookUrl ∧ turn.sub.indexer = row.indexerAddress

variable {tokenHash} {row : SubscriptionRow} {sub : Subscription} {told : List Alert}
  {system : Alerting}

/-- A request inserts a row under a free id, or removes those of an id and a token, or writes no
subscription. -/
theorem subscriptions_request (tokenHash : String → String)
    (event : { event : ServiceEvent // event.isRequest }) (service : Service) :
    (service.step tokenHash event).subscriptions = service.subscriptions ∨
    (∃ request v id token, event.1 = .insert request id token ∧
      (service.step tokenHash event).subscriptions =
        service.subscriptions.insertNew (newRow tokenHash v id token)) ∨
    ∃ id token, event.1 = .remove id token ∧ (service.step tokenHash event).subscriptions =
      service.subscriptions.deleteWhere fun row =>
        decide (row.id = id ∧ row.manageTokenSha256 = tokenHash token) := by
  obtain ⟨event, isRequest⟩ := event
  cases event with
  | check request =>
    rw [Service.step]
    cases admission request service.subscriptions <;> exact .inl rfl
  | posted request answer => cases answer <;> exact .inl rfl
  | insert request id token =>
    rw [Service.step, Service.save]
    split
    · rename_i _ v _
      rw [insert]
      split
      · rename_i next saved
        split at saved
        · cases saved
        · obtain rfl := Except.ok.inj saved
          exact .inr (.inl ⟨request, v, id, token, rfl, rfl⟩)
      · exact .inl rfl
    · exact .inl rfl
  | abandon request => exact .inl rfl
  | remove id token =>
    dsimp only [Service.step]
    rw [remove]
    split
    · exact .inr (.inr ⟨id, token, rfl, rfl⟩)
    · exact .inl rfl
  | cycle id cycle => cases isRequest

/-- Requests keep what the loop reads, unless they remove it. -/
theorem lookup_step_request {event : { event : ServiceEvent // event.isRequest }}
    {service : Service}
    (held : service.subscriptions.lookup row.id = some { row with sub })
    (kept : ¬ Removes tokenHash row (.request event)) :
    (service.step tokenHash event).subscriptions.lookup row.id = some { row with sub } := by
  rcases subscriptions_request tokenHash event service with
    same | ⟨request, v, id, token, -, inserted⟩ | ⟨id, token, named, removed⟩
  · rw [same, held]
  · rw [inserted, Table.lookup_insertNew, held]
    rfl
  · rw [removed, Table.lookup_deleteWhere, held, Option.filter_some, if_pos]
    rw [Bool.not_eq_true', decide_eq_false_iff_not]
    rintro ⟨rfl, same⟩
    exact kept ⟨token, same.symm, congrArg LoopEvent.request (Subtype.ext named)⟩

/-- An update reaches the row of its own id and no other. -/
theorem lookup_updateSub {id wanted : Uuid} {update : Subscription → Subscription}
    {subs : SubscriptionTable} : (updateSub id update subs).lookup wanted =
      (subs.lookup wanted).map fun row =>
        if wanted = id then { row with sub := update row.sub } else row := by
  rw [updateSub, Table.lookup_updateWhere]
  refine Option.map_congr fun row found => ?_
  rw [Table.key_of_lookup found]
  simp only [decide_eq_true_eq]

/-- The statements of a turn write under its subscription only. -/
theorem store_eq_updateSub {turn : Turn} {subs next : SubscriptionTable}
    (stores : turn.store subs = some next) : ∃ update, next = updateSub turn.sub.id update subs := by
  have saved {delivered : Bool}
      (state : saveState turn.sub.id turn.next delivered subs = some next) :
      ∃ update, next = updateSub turn.sub.id update subs := by
    rw [saveState] at state
    split at state
    · exact ⟨_, (Option.some.inj state).symm⟩
    · cases state
  rw [Turn.store] at stores
  split at stores
  · exact saved stores
  · split at stores
    · exact saved stores
    · exact ⟨_, (Option.some.inj stores).symm⟩

/-- A turn's write leaves every row but that of its subscription alone. -/
theorem lookup_store_ne {turn : Turn} {subs next : SubscriptionTable} {id : Uuid}
    (stores : turn.store subs = some next) (other : id ≠ turn.sub.id) :
    next.lookup id = subs.lookup id := by
  obtain ⟨update, rfl⟩ := store_eq_updateSub stores
  simp [lookup_updateSub, other]

/-- What the turn of a row that is as it was read stores is what its own cycle does. -/
theorem lookup_store {turn : Turn} {subs : SubscriptionTable}
    (held : subs.lookup row.id = some { row with sub })
    (read : turn.sub = SubscriptionRow.read { row with sub }) (on : sub.disabled = false) :
    ∃ next, turn.store subs = some next ∧
      next.lookup row.id =
        some { row with sub := sub.runCycle ⟨some turn.snap, turn.delivery, true⟩ } := by
  have events : turn.events = (evaluate sub.state sub.choice turn.snap).1 := by
    rw [Turn.events, read]
    rfl
  have next : turn.next = (evaluate sub.state sub.choice turn.snap).2 := by
    rw [Turn.next, read]
    rfl
  have own : turn.sub.id = row.id := by
    rw [read]
    rfl
  have there : subs.holds row.id := by
    by_contra absent
    rw [Table.not_holds_iff_lookup, held] at absent
    cases absent
  have written (update : Subscription → Subscription) :
      (updateSub row.id update subs).lookup row.id = some { row with sub := update sub } := by
    rw [lookup_updateSub, held, Option.map_some, if_pos rfl]
  rw [Turn.store, own, saveState, saveState, if_pos there, if_pos there, events, next,
    Subscription.runCycle, on]
  dsimp only
  by_cases quiet : (evaluate sub.state sub.choice turn.snap).1 = []
  · exact ⟨_, if_pos quiet, by rw [written]; simp [quiet]⟩
  · cases delivery : turn.delivery with
    | ok answer => exact ⟨_, if_neg quiet, by rw [written]; simp [quiet]⟩
    | error e => exact ⟨_, if_neg quiet, by rw [written]; simp [quiet]⟩

/-- A turn whose statements fail does not change its subscription. -/
theorem runCycle_unwritten (snap : Snapshot) (delivery : Except String Unit) (sub : Subscription) :
    sub.runCycle ⟨some snap, delivery, false⟩ = sub := by
  rw [Subscription.runCycle]
  cases sub.disabled <;> rfl

/-- What a turn posts for a row that is as it was read is what its cycle has to deliver. -/
theorem alerts_of_read {turn : Turn} {written : Bool}
    (read : turn.sub = SubscriptionRow.read { row with sub }) (on : sub.disabled = false) :
    sub.alerts ⟨some turn.snap, turn.delivery, written⟩ = turn.events := by
  rw [Subscription.alerts, on, Turn.events, read]
  rfl

/-- A turn that nobody has stored was a turn of the row as it was read. -/
theorem unsaved_read (follows : Follows row sub told system) {turn : Turn}
    (unsaved : turn ∈ system.unsaved) (own : turn.sub.id = row.id) :
    turn.sub = SubscriptionRow.read { row with sub } ∧ sub.disabled = false := by
  refine follows.read turn.sub ?_ own
  obtain ⟨service, cycle, posted⟩ := system
  obtain ⟨cycle, rfl, held⟩ := Option.bind_eq_some_iff.mp unsaved
  exact List.mem_append_left _ (by rw [held]; exact List.mem_singleton_self _)

/-- The cycle that ends delivers what the turn posted. -/
theorem toldIn_cycleOf (follows : Follows row sub told system) (written : Bool) :
    toldIn (cycleOf row.id written system) sub = unsavedAlerts row.id system := by
  rw [cycleOf, unsavedAlerts]
  cases unsaved : system.unsaved with
  | none => rfl
  | some turn =>
    by_cases own : turn.sub.id = row.id
    · obtain ⟨read, on⟩ := unsaved_read follows unsaved own
      simp [own, toldIn, alerts_of_read read on]
    · simp [own, toldIn]

/-- The end of a cycle, from wherever it was. -/
theorem follows_sleep (follows : Follows row sub told system) :
    Follows row sub (told ++ unsavedAlerts row.id system) system.sleep where
  stored := follows.stored
  read := fun _ listed => absurd listed List.not_mem_nil
  distinct := List.nodup_nil
  posted := follows.posted.trans (List.append_nil _).symm
  addressed := follows.addressed

/-- The end of a cycle between two turns. -/
theorem follows_sleep_idle (idle : system.unsaved = none) (follows : Follows row sub told system) :
    Follows row sub told system.sleep := by
  have nothing : unsavedAlerts row.id system = [] := by
    rw [unsavedAlerts, idle]
    rfl
  have slept := follows_sleep follows
  rwa [nothing, List.append_nil] at slept

private theorem runAll_cycleOf_unwritten :
    runAll Subscription.runCycle (cycleOf row.id false system) sub = sub := by
  rw [cycleOf]
  generalize system.unsaved.toList.filter (fun turn => turn.sub.id = row.id) = turns
  induction turns with
  | nil => rfl
  | cons turn rest ih => rw [List.map_cons, runAll_cons, runCycle_unwritten, ih]

/-- A turn ended by a failed delivery keeps the subscription in step with its lone run. -/
theorem follows_failed (follows : Follows row sub told system) :
    Follows row (runAll Subscription.runCycle (cycleOf row.id false system) sub)
      (told ++ toldIn (cycleOf row.id false system) sub) system.sleep := by
  rw [runAll_cycleOf_unwritten, toldIn_cycleOf follows]
  exact follows_sleep follows

/-- An event that ends no turn. -/
theorem follows_quiet (follows : Follows row sub told system) :
    Follows row (runAll Subscription.runCycle [] sub) (told ++ toldIn [] sub) system := by
  rwa [runAll_nil, toldIn, List.append_nil]

/-- A cycle reads exactly the active rows. -/
theorem mem_readSubs {order : IterOrder SubscriptionRow} {subs : SubscriptionTable} {taken : Sub} :
    taken ∈ readSubs order subs ↔ ∃ row ∈ subs, row.isActive ∧ row.read = taken := by
  simp [readSubs, and_assoc, ← Table.mem_rows]

private theorem nodup_readSubs (order : IterOrder SubscriptionRow) (subs : SubscriptionTable) :
    ((readSubs order subs).map Sub.id).Nodup := by
  rw [readSubs, List.map_map]
  have perm := (List.mergeSort_perm (order.arrange (subs.rows.filter SubscriptionRow.isActive))
    fun left right => left.indexerAddress ≤ right.indexerAddress).trans (order.perm _)
  exact ((perm.map SubscriptionRow.id).nodup_iff).mpr
    (subs.unique.sublist (List.filter_sublist.map _))

private theorem subs_begin (order : IterOrder SubscriptionRow) (system : Alerting) :
    (system.begin order).subs = readSubs order system.subscriptions ∧
      (system.begin order).unsaved = none := by
  rw [Alerting.subs, Alerting.unsaved, Alerting.begin]
  cases subs : readSubs order system.subscriptions with
  | nil => exact ⟨rfl, rfl⟩
  | cons first rest => exact ⟨rfl, rfl⟩

/-- Beginning a cycle keeps the subscription in step with its lone run. -/
theorem follows_begin (follows : Follows row sub told system) (order : IterOrder SubscriptionRow)
    (asleep : system.cycle = none) : Follows row sub told (system.begin order) := by
  obtain ⟨subs, unsaved⟩ := subs_begin order system
  refine ⟨follows.stored, ?_, ?_, ?_, follows.addressed⟩
  · rw [subs]
    intro taken listed own
    obtain ⟨found, stored, active, rfl⟩ := mem_readSubs.mp listed
    have same : some found = some { row with sub } := by
      rw [← follows.stored, ← Table.lookup_of_mem stored]
      exact congrArg _ own
    obtain rfl := Option.some.inj same
    exact ⟨rfl, by simpa [SubscriptionRow.isActive] using active⟩
  · rw [subs]
    exact nodup_readSubs order _
  · have before : system.unsaved = none := by rw [Alerting.unsaved, asleep, Option.bind_none]
    have posted := follows.posted
    rw [unsavedAlerts, before] at posted
    rw [unsavedAlerts, unsaved]
    exact posted

/-- A turn without events posts nothing. -/
theorem flatMap_posted (id : Uuid) (unsaved : Option Turn) :
    ((unsaved.toList.filter fun turn => turn.events ≠ []).filter
      fun turn => turn.sub.id = id).flatMap Turn.events =
        (unsaved.toList.filter fun turn => turn.sub.id = id).flatMap Turn.events := by
  cases unsaved with
  | none => rfl
  | some turn =>
    by_cases quiet : turn.events = []
    · by_cases own : turn.sub.id = id <;> simp [quiet, own]
    · simp [quiet]

/-- Serving a turn and posting it moves neither the stored row nor what was told. -/
theorem follows_turn (follows : Follows row sub told system) (served : Option Snapshot)
    (delivery : Except String Unit) : Follows row sub told (system.turn served delivery) := by
  obtain ⟨service, cycle, posted⟩ := system
  rw [Alerting.turn]
  split
  · rename_i epoch snapshots begun
    obtain rfl : cycle = some ⟨[], some epoch, snapshots, none⟩ := begun
    exact follows_sleep_idle rfl follows
  · rename_i taken rest epoch snapshots begun
    obtain rfl : cycle = some ⟨taken :: rest, some epoch, snapshots, none⟩ := begun
    let cycle := CycleState.takeTurn taken rest epoch served delivery
      ⟨taken :: rest, some epoch, snapshots, none⟩
    have fewer : List.Sublist cycle.subs (taken :: rest) := by
      rw [CycleState.subs]
      cases unsaved : cycle.unsaved with
      | none => exact List.sublist_cons_self taken rest
      | some turn =>
        obtain ⟨snap, -, rfl⟩ := Option.map_eq_some_iff.mp unsaved
        exact List.Sublist.refl _
    refine ⟨follows.stored, fun other listed => follows.read other (fewer.subset listed),
      follows.distinct.sublist (fewer.map Sub.id), ?_, ?_⟩
    · have before : toldTo row.id ⟨service, some ⟨taken :: rest, some epoch, snapshots, none⟩, posted⟩ =
          told ++ [] := follows.posted
      have after : ((posted ++ cycle.unsaved.toList.filter fun turn => turn.events ≠ []).filter
          fun turn => turn.sub.id = row.id).flatMap Turn.events =
            told ++ (cycle.unsaved.toList.filter fun turn => turn.sub.id = row.id).flatMap
              Turn.events := by
        rw [List.filter_append, List.flatMap_append, flatMap_posted]
        exact congrArg (· ++ _) (before.trans (List.append_nil told))
      exact after
    · intro turn listed own
      rcases List.mem_append.mp listed with old | new
      · exact follows.addressed turn old own
      · have unsaved : cycle.unsaved = some turn := by
          simpa using (List.mem_filter.mp new).1
        obtain ⟨snap, -, rfl⟩ := Option.map_eq_some_iff.mp unsaved
        obtain ⟨read, -⟩ := follows.read taken List.mem_cons_self own
        exact ⟨congrArg Sub.url read, congrArg Sub.indexer read⟩
  · exact follows

private theorem cycleOf_other {written : Bool} {turn : Turn} (unsaved : system.unsaved = some turn)
    (other : turn.sub.id ≠ row.id) : cycleOf row.id written system = [] := by
  rw [cycleOf, unsaved]
  simp [other]

private theorem cycleOf_own {written : Bool} {turn : Turn} (unsaved : system.unsaved = some turn)
    (own : turn.sub.id = row.id) :
    cycleOf row.id written system = [⟨some turn.snap, turn.delivery, written⟩] := by
  rw [cycleOf, unsaved]
  simp [own]

section Stores

variable {service : Service} {pending : List Sub} {epoch : Option Int}
  {snapshots : List (String × Option Snapshot)} {turn : Turn} {posted : List Turn}

/-- The statements of a turn go through. -/
theorem follows_stored {next : SubscriptionTable} (stores : turn.store service.subscriptions = some next)
    (follows : Follows row sub told ⟨service, some ⟨pending, epoch, snapshots, some turn⟩, posted⟩) :
    Follows row
      (runAll Subscription.runCycle
        (cycleOf row.id true ⟨service, some ⟨pending, epoch, snapshots, some turn⟩, posted⟩) sub)
      (told ++ toldIn
        (cycleOf row.id true ⟨service, some ⟨pending, epoch, snapshots, some turn⟩, posted⟩) sub)
      ⟨{ service with subscriptions := next }, some ⟨pending, epoch, snapshots, none⟩, posted⟩ := by
  obtain ⟨apart, distinct⟩ := List.nodup_cons.mp follows.distinct
  refine ⟨?_, fun taken listed own => ?_, distinct, ?_, follows.addressed⟩
  · by_cases own : turn.sub.id = row.id
    · obtain ⟨read, on⟩ := unsaved_read follows rfl own
      obtain ⟨_, stores', held⟩ := lookup_store follows.stored read on
      obtain rfl := Option.some.inj (stores.symm.trans stores')
      rw [cycleOf_own rfl own]
      exact held
    · rw [cycleOf_other rfl own]
      exact (lookup_store_ne stores fun same => own same.symm).trans follows.stored
  · by_cases first : turn.sub.id = row.id
    · exact absurd (List.mem_map.mpr ⟨taken, listed, own.trans first.symm⟩) apart
    · rw [cycleOf_other rfl first]
      exact follows.read taken (List.mem_cons_of_mem _ listed) own
  · rw [toldIn_cycleOf follows]
    exact follows.posted.trans (List.append_nil _).symm

/-- A statement of a turn of this subscription fails only if the database does. -/
theorem follows_unstored {written : Bool}
    (fails : ∀ next, written = true → turn.store service.subscriptions ≠ some next)
    (follows : Follows row sub told ⟨service, some ⟨pending, epoch, snapshots, some turn⟩, posted⟩) :
    Follows row
      (runAll Subscription.runCycle
        (cycleOf row.id written ⟨service, some ⟨pending, epoch, snapshots, some turn⟩, posted⟩) sub)
      (told ++ toldIn
        (cycleOf row.id written ⟨service, some ⟨pending, epoch, snapshots, some turn⟩, posted⟩) sub)
      ⟨service, none, posted⟩ := by
  have unwritten :
      cycleOf row.id written ⟨service, some ⟨pending, epoch, snapshots, some turn⟩, posted⟩ =
        cycleOf row.id false ⟨service, some ⟨pending, epoch, snapshots, some turn⟩, posted⟩ := by
    by_cases own : turn.sub.id = row.id
    · obtain ⟨read, on⟩ := unsaved_read follows rfl own
      obtain ⟨next, stores, -⟩ := lookup_store follows.stored read on
      have off : written = false := Bool.eq_false_iff.mpr fun on => fails next on stores
      rw [off]
    · rw [cycleOf_other rfl own, cycleOf_other rfl own]
  rw [unwritten]
  exact follows_failed follows

/-- Writing a turn back is the lone run's own step, for the subscription and beside it. -/
theorem follows_store (follows : Follows row sub told system) (written : Bool) :
    Follows row (runAll Subscription.runCycle (cycleOf row.id written system) sub)
      (told ++ toldIn (cycleOf row.id written system) sub) (system.store written) := by
  obtain ⟨service, cycle, posted⟩ := system
  rw [Alerting.store]
  split
  · rename_i pending epoch snapshots turn begun
    obtain rfl : cycle = some ⟨pending, epoch, snapshots, some turn⟩ := begun
    split
    · rename_i stores
      exact follows_stored stores follows
    · rename_i fails
      exact follows_unstored (fun next on stores => fails next on stores) follows
  · rename_i idle
    have nothing : cycleOf row.id written ⟨service, cycle, posted⟩ = [] := by
      rcases cycle with _ | ⟨pending, epoch, snapshots, _ | turn⟩
      · rfl
      · rfl
      · exact absurd rfl (idle pending epoch snapshots turn)
    rw [nothing]
    exact follows_quiet follows

end Stores

/-- Every event but the subscription's removal keeps it in step with its lone run. -/
theorem follows_step {event : LoopEvent} (kept : ¬ Removes tokenHash row event)
    (follows : Follows row sub told system) :
    Follows row (runAll Subscription.runCycle (turnsAt row.id event system) sub)
      (told ++ toldIn (turnsAt row.id event system) sub) (system.step tokenHash event) := by
  cases event with
  | request event =>
    exact follows_quiet { follows with stored := lookup_step_request follows.stored kept }
  | read order =>
    refine follows_quiet ?_
    rw [Alerting.step]
    split
    · exact follows_begin follows order (Option.isNone_iff_eq_none.mp (by assumption))
    · exact follows
  | network epoch =>
    refine follows_quiet ?_
    obtain ⟨service, cycle, posted⟩ := system
    rw [Alerting.step]
    split
    · rename_i pending snapshots begun
      obtain rfl : cycle = some ⟨pending, none, snapshots, none⟩ := begun
      cases epoch with
      | none => exact follows_sleep_idle rfl follows
      | some epoch => exact ⟨follows.stored, follows.read, follows.distinct, follows.posted,
          follows.addressed⟩
    · exact follows
  | turn served delivery => exact follows_quiet (follows_turn follows served delivery)
  | store written => exact follows_store follows written
  | restart => exact follows_failed follows

private theorem toldIn_append (first second : List SubscriptionCycle) (sub : Subscription) :
    toldIn (first ++ second) sub =
      toldIn first sub ++ toldIn second (runAll Subscription.runCycle first sub) := by
  induction first generalizing sub with
  | nil => rfl
  | cons cycle rest ih => rw [List.cons_append, toldIn, ih, toldIn, runAll_cons, List.append_assoc]

/-- Over any events without its removal the subscription is in step with its lone run. -/
theorem follows_run {events : List LoopEvent}
    (kept : ∀ event ∈ events, ¬ Removes tokenHash row event)
    (follows : Follows row sub told system) :
    Follows row (runAll Subscription.runCycle (turnsOf tokenHash row.id events system) sub)
      (told ++ toldIn (turnsOf tokenHash row.id events system) sub)
      (runAll (Alerting.step tokenHash) events system) := by
  induction events generalizing sub told system with
  | nil => exact follows_quiet follows
  | cons event rest ih =>
    obtain ⟨first, later⟩ := List.forall_mem_cons.mp kept
    have next := ih later (follows_step first follows)
    rwa [← runAll_append, List.append_assoc, ← toldIn_append] at next

/-- The life of a subscription: what its own cycles make of its row and tell it, the turn under way
included, at its own webhook; and its token shows it. -/
structure LivesAlone (tokenHash : String → String) (row : SubscriptionRow)
    (cycles : List SubscriptionCycle) (system : Alerting) : Prop where
  stored : system.subscriptions.lookup row.id =
    some { row with sub := runAll Subscription.runCycle cycles row.sub }
  told : toldTo row.id system = toldIn cycles row.sub ++ unsavedAlerts row.id system
  addressed : ∀ turn ∈ system.posted, turn.sub.id = row.id →
    turn.sub.url = row.webhookUrl ∧ turn.sub.indexer = row.indexerAddress
  described : ∀ token, describe tokenHash row.id token system.subscriptions =
    if tokenHash token = row.manageTokenSha256 then
      .ok (SubscriptionRow.described
        { row with sub := runAll Subscription.runCycle cycles row.sub })
    else .error ⟨404, "no such subscription"⟩

/-- A service whose loop is asleep and has posted nothing yet. -/
def asleep (service : Service) : Alerting := ⟨service, none, []⟩

/-- Whatever requests and other subscriptions come between the steps of the loop, a subscription
that nobody removes with its token lives as if it were alone. -/
theorem subscription_lives_alone (tokenHash : String → String) (service : Service)
    (row : SubscriptionRow) (held : service.subscriptions.lookup row.id = some row)
    (events : List LoopEvent) (kept : ∀ event ∈ events, ¬ Removes tokenHash row event) :
    LivesAlone tokenHash row (turnsOf tokenHash row.id events (asleep service))
      (runAll (Alerting.step tokenHash) events (asleep service)) := by
  have start : Follows row row.sub [] (asleep service) :=
    { stored := held
      read := fun _ listed => absurd listed List.not_mem_nil
      distinct := List.nodup_nil
      posted := rfl
      addressed := fun _ listed => absurd listed List.not_mem_nil }
  have follows := follows_run kept start
  refine ⟨follows.stored, follows.posted, follows.addressed, fun token => ?_⟩
  rw [describe, follows.stored]
  by_cases same : tokenHash token = row.manageTokenSha256
  · simp [Option.filter, same]
  · have other : ¬ row.manageTokenSha256 = tokenHash token := fun eq => same eq.symm
    simp [Option.filter, same, other]

/-- A subscription to everything, after a cycle that saw a denied deployment. -/
def watchingRow : SubscriptionRow where
  id := 1
  indexerAddress := "0x2b3c7d1ef5fdfc0557934019c531d3e70d6200ae"
  webhookUrl := "https://discord.com/api/webhooks/1/abc"
  manageTokenSha256 := "token"
  sub :=
    { Subscription.new everyKind with
      state := (evaluate .empty everyKind (snapshotOf [onDeployment true] 0)).2 }

def watchingService : Service := ⟨Table.empty.insertNew watchingRow, .empty⟩

/-- Beside a request and a guess at the token, the denial is lifted. -/
def liftedBeside : List LoopEvent :=
  [.read IterOrder.asInserted, .request ⟨.check hookRequest, rfl⟩, .network (some 100),
    .turn (some (snapshotOf [onDeployment false] 0)) (.ok ()),
    .request ⟨.remove 1 "guess", rfl⟩, .store true]

/-- Beside a request and a guess at its token the watching row is told the lift. -/
theorem watchingRow_lives :
    LivesAlone id watchingRow (turnsOf id 1 liftedBeside (asleep watchingService))
      (runAll (Alerting.step id) liftedBeside (asleep watchingService)) ∧
    toldTo 1 (runAll (Alerting.step id) liftedBeside (asleep watchingService)) =
      [.denied (onDeployment false)] := by
  refine ⟨subscription_lives_alone id watchingService watchingRow rfl liftedBeside ?_, ?_⟩
  · rintro event listed ⟨token, same, rfl⟩
    have guess : token = "guess" := by
      simp only [liftedBeside, watchingRow, List.mem_cons, LoopEvent.request.injEq, reduceCtorEq,
        List.not_mem_nil, false_or, or_false] at listed
      rcases listed with check | remove
      · cases congrArg Subtype.val check
      · cases congrArg Subtype.val remove
        rfl
    subst guess
    exact absurd same (by decide)
  · decide +kernel

end Lives

section Removed

variable {tokenHash : String → String} {system : Alerting} {id : Uuid}

namespace Alerting

/-- The subscriptions that the cycle has still to turn to. -/
def pending (system : Alerting) : List Sub := system.cycle.elim [] CycleState.pending

/-- The posts to a subscription. -/
def postsTo (id : Uuid) (system : Alerting) : Nat :=
  system.posted.countP fun turn => turn.sub.id = id

/-- The turns that a cycle still owes a subscription. -/
def owes (id : Uuid) (system : Alerting) : Nat :=
  system.pending.countP fun taken => taken.id = id

end Alerting

/-- The event is an insert under this id. -/
def Inserts (id : Uuid) (event : LoopEvent) : Prop :=
  ∃ request token, event = .request ⟨.insert request id token, rfl⟩

/-- What a step posts and turns to: nothing new, or the next turn, or a fresh reading. -/
theorem step_pending (tokenHash : String → String) (event : LoopEvent) (system : Alerting) :
    ((system.step tokenHash event).posted = system.posted ∧
      ((system.step tokenHash event).pending = system.pending ∨
        (system.step tokenHash event).pending = [] ∨
        ∃ order, (system.step tokenHash event).pending = readSubs order system.subscriptions)) ∨
    ∃ taken, system.pending = taken :: (system.step tokenHash event).pending ∧
      ∃ turn : Option Turn, (∀ held ∈ turn, held.sub = taken) ∧
        (system.step tokenHash event).posted = system.posted ++ turn.toList := by
  cases event with
  | request event => exact .inl ⟨rfl, .inl rfl⟩
  | read order =>
    rw [Alerting.step]
    split
    · refine .inl ⟨rfl, ?_⟩
      rw [Alerting.begin, Alerting.pending]
      cases subs : readSubs order system.subscriptions with
      | nil => exact .inr (.inl rfl)
      | cons first rest => exact .inr (.inr ⟨order, subs.symm⟩)
    · exact .inl ⟨rfl, .inl rfl⟩
  | network epoch =>
    obtain ⟨service, cycle, posted⟩ := system
    rw [Alerting.step]
    split
    · rename_i pending snapshots begun
      obtain rfl : cycle = some ⟨pending, none, snapshots, none⟩ := begun
      cases epoch with
      | none => exact .inl ⟨rfl, .inr (.inl rfl)⟩
      | some epoch => exact .inl ⟨rfl, .inl rfl⟩
    · exact .inl ⟨rfl, .inl rfl⟩
  | turn served delivery =>
    obtain ⟨service, cycle, posted⟩ := system
    rw [Alerting.step, Alerting.turn]
    split
    · exact .inl ⟨rfl, .inr (.inl rfl)⟩
    · rename_i taken rest epoch snapshots begun
      obtain rfl : cycle = some ⟨taken :: rest, some epoch, snapshots, none⟩ := begun
      let cycle := CycleState.takeTurn taken rest epoch served delivery
        ⟨taken :: rest, some epoch, snapshots, none⟩
      refine .inr ⟨taken, rfl, cycle.unsaved.filter fun turn => turn.events ≠ [], ?_, ?_⟩
      · intro turn held
        obtain ⟨unsaved, -⟩ := Option.filter_eq_some_iff.mp held
        obtain ⟨snap, -, rfl⟩ := Option.map_eq_some_iff.mp unsaved
        rfl
      · rw [Option.toList_filter]
    · exact .inl ⟨rfl, .inl rfl⟩
  | store written =>
    obtain ⟨service, cycle, posted⟩ := system
    rw [Alerting.step, Alerting.store]
    split
    · rename_i pending epoch snapshots turn begun
      obtain rfl : cycle = some ⟨pending, epoch, snapshots, some turn⟩ := begun
      split
      · exact .inl ⟨rfl, .inl rfl⟩
      · exact .inl ⟨rfl, .inr (.inl rfl)⟩
    · exact .inl ⟨rfl, .inl rfl⟩
  | restart => exact .inl ⟨rfl, .inr (.inl rfl)⟩

/-- A cycle turns to a subscription once. -/
theorem pending_step (event : LoopEvent) (distinct : (system.pending.map Sub.id).Nodup) :
    ((system.step tokenHash event).pending.map Sub.id).Nodup := by
  rcases step_pending tokenHash event system with ⟨-, same | none_ | ⟨order, fresh⟩⟩ |
    ⟨taken, first, -⟩
  · rwa [same]
  · rw [none_]
    exact List.nodup_nil
  · rw [fresh]
    exact nodup_readSubs order _
  · rw [first, List.map_cons, List.nodup_cons] at distinct
    exact distinct.2

/-- While a subscription is absent, a post to it is one that was owed. -/
theorem owes_step (event : LoopEvent) (absent : system.subscriptions.lookup id = none) :
    (system.step tokenHash event).postsTo id + (system.step tokenHash event).owes id ≤
      system.postsTo id + system.owes id := by
  rw [Alerting.postsTo, Alerting.owes, Alerting.postsTo, Alerting.owes]
  rcases step_pending tokenHash event system with
    ⟨posted, same | none_ | ⟨order, fresh⟩⟩ | ⟨taken, first, turn, ofTaken, posted⟩
  · rw [posted, same]
  · rw [posted, none_]
    exact Nat.le_add_right _ _
  · have nobody : (readSubs order system.subscriptions).countP (fun taken => taken.id = id) = 0 := by
      rw [List.countP_eq_zero]
      intro taken listed
      obtain ⟨row, stored, -, rfl⟩ := mem_readSubs.mp listed
      rw [decide_eq_true_eq]
      exact fun own => Table.lookup_eq_none_iff.mp absent row stored own
    rw [posted, fresh, nobody]
    exact Nat.le_add_right _ _
  · have one : turn.toList.countP (fun turn => turn.sub.id = id) ≤
        if taken.id = id then 1 else 0 := by
      cases turn with
      | none => exact Nat.zero_le _
      | some turn => simp [ofTaken turn rfl]
    rw [posted, first, List.countP_append, List.countP_cons]
    simp only [decide_eq_true_eq]
    omega

/-- An id that no event inserts stays absent. -/
theorem absent_step {event : LoopEvent} (absent : system.subscriptions.lookup id = none)
    (never : ¬ Inserts id event) :
    (system.step tokenHash event).subscriptions.lookup id = none := by
  obtain ⟨service, cycle, posted⟩ := system
  cases event with
  | request event =>
    rcases subscriptions_request tokenHash event service with
      same | ⟨request, v, other, token, named, inserted⟩ | ⟨other, token, -, removed⟩
    · exact (congrArg (Table.lookup · id) same).trans absent
    · refine (congrArg (Table.lookup · id) inserted).trans ?_
      rw [Table.lookup_insertNew, if_neg]
      · exact (Option.or_none).trans absent
      · rintro rfl
        exact never ⟨request, token, congrArg LoopEvent.request (Subtype.ext named)⟩
    · refine (congrArg (Table.lookup · id) removed).trans ?_
      rw [Table.lookup_deleteWhere]
      exact (congrArg _ absent).trans rfl
  | read order =>
    rw [Alerting.step]
    split <;> exact absent
  | network epoch =>
    rw [Alerting.step]
    split <;> exact absent
  | turn served delivery =>
    rw [Alerting.step, Alerting.turn]
    split <;> exact absent
  | store written =>
    rw [Alerting.step, Alerting.store]
    split
    · split
      · rename_i next stores
        obtain ⟨update, rfl⟩ := store_eq_updateSub stores
        exact lookup_updateSub.trans ((congrArg _ absent).trans rfl)
      · exact absent
    · exact absent
  | restart => exact absent

/-- To an absent subscription the loop posts at most what it still owed. -/
theorem owes_run {events : List LoopEvent} (absent : system.subscriptions.lookup id = none)
    (never : ∀ event ∈ events, ¬ Inserts id event) :
    (runAll (Alerting.step tokenHash) events system).postsTo id +
        (runAll (Alerting.step tokenHash) events system).owes id ≤
      system.postsTo id + system.owes id := by
  induction events generalizing system with
  | nil => exact Nat.le_refl _
  | cons event rest ih =>
    obtain ⟨first, later⟩ := List.forall_mem_cons.mp never
    exact (ih (absent_step absent first) later).trans (owes_step event absent)

private theorem owes_of_distinct (distinct : (system.pending.map Sub.id).Nodup) :
    system.owes id = if id ∈ system.pending.map Sub.id then 1 else 0 := by
  have counted : system.owes id = (system.pending.map Sub.id).count id := by
    rw [Alerting.owes, List.count, List.countP_map]
    refine List.countP_congr fun taken _ => ?_
    simp
  rw [counted]
  split
  · exact List.count_eq_one_of_mem distinct (by assumption)
  · exact List.count_eq_zero_of_not_mem (by assumption)

/-- Of a subscription that is gone, a run posts what the cycle under way still owes it: at most one
more post, and none once that cycle is over. -/
theorem removed_posted_once (tokenHash : String → String) (service : Service)
    (before later : List LoopEvent) (id : Uuid)
    (gone : (runAll (Alerting.step tokenHash) before (asleep service)).subscriptions.lookup id = none)
    (never : ∀ event ∈ later, ¬ Inserts id event) :
    (runAll (Alerting.step tokenHash) (before ++ later) (asleep service)).postsTo id ≤
      (runAll (Alerting.step tokenHash) before (asleep service)).postsTo id +
        if id ∈ (runAll (Alerting.step tokenHash) before (asleep service)).pending.map Sub.id
          then 1 else 0 := by
  have distinct : ((runAll (Alerting.step tokenHash) before (asleep service)).pending.map
      Sub.id).Nodup :=
    runAll_preserves (fun system : Alerting => (system.pending.map Sub.id).Nodup) List.nodup_nil
      fun event _ _ => pending_step event
  have bounded := @owes_run tokenHash _ _ later gone never
  rw [owes_of_distinct distinct, ← runAll_append] at bounded
  exact (Nat.le_add_right _ _).trans bounded

end Removed

/-- Removed between the reading of the cycle and its turn, it is told once more. -/
theorem watchingRow_removed :
    (runAll (Alerting.step id)
      ([.read IterOrder.asInserted, .network (some 100), .request ⟨.remove 1 "token", rfl⟩] ++
        [.turn (some (snapshotOf [onDeployment false] 0)) (.ok ()), .store true])
      (asleep watchingService)).postsTo 1 ≤ 0 + 1 := by
  refine (removed_posted_once id watchingService
    [.read IterOrder.asInserted, .network (some 100), .request ⟨.remove 1 "token", rfl⟩]
    [.turn (some (snapshotOf [onDeployment false] 0)) (.ok ()), .store true] 1 ?_ ?_).trans ?_
  · decide +kernel
  · rintro event listed ⟨request, token, rfl⟩
    simp at listed
  · decide +kernel

end Foghorn.Api
