import Mathlib.Data.List.Destutter
import Mathlib.Data.List.Sort
import Mathlib.Data.String.Basic
import Foghorn.Core.Deployment
import Foghorn.Core.DeploymentId
import Foghorn.Core.Tables
import Foghorn.Core.WebhookUrl
import Foghorn.Probe.Subscriptions

/-!
# Subscriptions under way

A request to subscribe is checked against the limits, is tested with a post to its webhook, and
is inserted. Each is a statement or a request of its own, so the steps of several requests
interleave with each other, with removals and with the alert loop.
-/

namespace Foghorn.Api

open Foghorn.Std Foghorn.Core Foghorn.Probe

/-- `MAX_PER_WEBHOOK` and `MAX_PER_INDEXER`. -/
def maxPerWebhook : Nat := 10

def maxPerIndexer : Nat := 100

structure Refusal where
  status : Nat
  message : String
deriving DecidableEq

structure CreateSubscription where
  indexer : String
  webhookUrl : String
  kinds : Option (List String)
  signalMovePct : Option ℚ

structure Validated where
  indexer : String
  webhookUrl : String
  choice : AlertChoice

/-- `KINDS`. -/
def allKinds : List String := [AlertKind.poi, .denied, .signal, .cuts, .reo].map AlertKind.text

def isAddressText (indexer : List Char) : Bool :=
  match ['0', 'x'].isPrefixOf? indexer with
  | some hex => byteLength hex = 40 && hex.all fun digit => (hexDigit digit).isSome
  | none => false

def validate (request : CreateSubscription) : Except String Validated := do
  let indexer := (trimText request.indexer).map Char.toLower
  unless isAddressText indexer do throw "indexer must be a 0x address"
  let webhookUrl := String.ofList (trimText request.webhookUrl)
  let _ ← checkWebhookUrl webhookUrl
  let kinds := ((request.kinds.getD allKinds).insertionSort (· ≤ ·)).destutter (· ≠ ·)
  if kinds = [] then throw "choose at least one alert"
  unless kinds.all (· ∈ allKinds) do throw "unknown alert kind"
  let signalMovePct := request.signalMovePct.getD 20
  unless 1 ≤ signalMovePct ∧ signalMovePct ≤ 1000 do
    throw "signal_move_pct must be between 1 and 1000"
  return ⟨String.ofList indexer, webhookUrl, ⟨kinds, signalMovePct⟩⟩

private theorem length_of_isAddressText {indexer : List Char} (address : isAddressText indexer) :
    indexer.length = 42 := by
  unfold isAddressText at address
  split at address
  · rename_i hex marked
    rw [Bool.and_eq_true, decide_eq_true_eq, List.all_eq_true] at address
    have bytes : hex.map (fun c => c.utf8Size) = hex.map fun _ => 1 := by
      refine List.map_congr_left fun digit member => ?_
      obtain ⟨_, read⟩ := Option.isSome_iff_exists.mp (address.2 digit member)
      exact (plain_of_hexDigit read).2.1
    have digits : hex.length = 40 := by
      rw [← address.1, byteLength, bytes]
      simp
    rw [← List.isPrefixOf?_eq_some_iff_append_eq.mp marked, List.length_append, digits]
    rfl
  · cases address

/-- An indexer that is let through is an address. -/
theorem length_of_validate {request : CreateSubscription} {v : Validated}
    (valid : validate request = .ok v) : v.indexer.length = 42 := by
  by_cases address : isAddressText ((trimText request.indexer).map Char.toLower)
  · have kept : v.indexer = String.ofList ((trimText request.indexer).map Char.toLower) := by
      simp only [validate, bind, Except.bind, pure, Except.pure, throw, throwThe,
        MonadExceptOf.throw] at valid
      repeat' split at valid
      all_goals first
        | exact (congrArg Validated.indexer (Except.ok.inj valid)).symm
        | cases valid
    rw [kept, String.length_ofList]
    exact length_of_isAddressText address
  · rw [validate, if_neg address] at valid
    cases valid

/-- `alert_subscription`, with what the alert loop reads and writes of it. -/
structure SubscriptionRow where
  id : Uuid
  indexerAddress : String
  webhookUrl : String
  manageTokenSha256 : String
  sub : Subscription

def SubscriptionRow.isActive (row : SubscriptionRow) : Bool := !row.sub.disabled

abbrev SubscriptionTable := Table SubscriptionRow Uuid SubscriptionRow.id

section Statements

-- `token_hash`, the hex of a SHA-256
variable (tokenHash : String → String)

def newRow (v : Validated) (id : Uuid) (token : String) : SubscriptionRow :=
  ⟨id, v.indexer, v.webhookUrl, tokenHash token, Subscription.new v.choice⟩

/-- A limit on the active subscriptions that name the same webhook, or the same indexer. -/
structure Limit where
  most : Nat
  ofRow : SubscriptionRow → String
  ofRequest : Validated → String
  refusal : Refusal
  /-- The alert loop does not write the name. -/
  ofRow_sub : ∀ row sub, ofRow { row with sub } = ofRow row
  ofRow_new : ∀ tokenHash v id token, ofRow (newRow tokenHash v id token) = ofRequest v

def perWebhook : Limit where
  most := maxPerWebhook
  ofRow := SubscriptionRow.webhookUrl
  ofRequest := Validated.webhookUrl
  refusal := ⟨429, "this webhook already has as many subscriptions as it may"⟩
  ofRow_sub _ _ := rfl
  ofRow_new _ _ _ _ := rfl

def perIndexer : Limit where
  most := maxPerIndexer
  ofRow := SubscriptionRow.indexerAddress
  ofRequest := Validated.indexer
  refusal := ⟨429, "this indexer already has as many subscriptions as it may"⟩
  ofRow_sub _ _ := rfl
  ofRow_new _ _ _ _ := rfl

/-- The active subscriptions under a name. -/
def Limit.active (limit : Limit) (name : String) (subs : SubscriptionTable) : Nat :=
  subs.rows.countP fun row => row.isActive && limit.ofRow row = name

def checkLimits (subs : SubscriptionTable) (v : Validated) : Except Refusal Unit :=
  if perWebhook.most ≤ perWebhook.active v.webhookUrl subs then .error perWebhook.refusal
  else if perIndexer.most ≤ perIndexer.active v.indexer subs then .error perIndexer.refusal
  else .ok ()

/-- A taken id fails. -/
def insert (v : Validated) (id : Uuid) (token : String) (subs : SubscriptionTable) :
    Except Refusal SubscriptionTable :=
  if subs.holds id then .error ⟨500, "the subscription could not be saved"⟩
  else .ok (subs.insertNew (newRow tokenHash v id token))

def remove (id : Uuid) (token : String) (subs : SubscriptionTable) :
    Except Refusal SubscriptionTable :=
  let doomed row := decide (row.id = id ∧ row.manageTokenSha256 = tokenHash token)
  if subs.rows.any doomed then .ok (subs.deleteWhere doomed)
  else .error ⟨404, "no such subscription"⟩

def refuseTest (error : String) : Refusal := ⟨422, "The test post failed: " ++ error ++ "."⟩

/-- `create` up to the test post. -/
def admission (request : CreateSubscription) (subs : SubscriptionTable) :
    Except Refusal Validated := do
  let v ← (validate request).mapError (⟨400, ·⟩)
  checkLimits subs v
  return v

/-- One request without another in between: its refusal, or the table it leaves. -/
def create (request : CreateSubscription) (posted : Except String Unit) (id : Uuid)
    (token : String) (subs : SubscriptionTable) : Except Refusal SubscriptionTable := do
  let v ← admission request subs
  posted.mapError refuseTest
  insert tokenHash v id token subs

/-- A request that passed its checks and is not finished. -/
structure Flight where
  request : Nat
  v : Validated
  tested : Bool

/-- The table, and the requests under way. -/
structure Service where
  subscriptions : SubscriptionTable
  inFlight : Serial Flight Flight.request

/-- What may happen next, to any of the requests under way. -/
inductive ServiceEvent where
  | check (request : CreateSubscription)
  | posted (request : Nat) (answer : Except String Unit)
  | insert (request : Nat) (id : Uuid) (token : String)
  /-- The connection or the database fails. -/
  | abandon (request : Nat)
  | remove (id : Uuid) (token : String)
  | cycle (id : Uuid) (cycle : SubscriptionCycle)

namespace Service

def begin (v : Validated) (state : Service) : Service :=
  { state with inFlight := state.inFlight.append (⟨·, v, false⟩) fun _ => rfl }

def finish (request : Nat) (state : Service) : Service :=
  { state with inFlight := state.inFlight.deleteWhere (·.request = request) }

def passTest (request : Nat) (state : Service) : Service :=
  { state with
    inFlight := state.inFlight.updateWhere (·.request = request)
      (fun flight => { flight with tested := true }) fun _ => rfl }

/-- The insert of a request whose test post landed. -/
def save (request : Nat) (id : Uuid) (token : String) (state : Service) : Service :=
  match state.inFlight.table.lookup request with
  | some ⟨_, v, true⟩ =>
    match insert tokenHash v id token state.subscriptions with
    | .ok subscriptions => { state.finish request with subscriptions }
    | .error _ => state.finish request
  | _ => state

def step : ServiceEvent → Service → Service
  | .check request, state =>
    match admission request state.subscriptions with
    | .ok v => state.begin v
    | .error _ => state
  | .posted request (.ok ()), state => state.passTest request
  | .posted request (.error _), state => state.finish request
  | .insert request id token, state => state.save tokenHash request id token
  | .abandon request, state => state.finish request
  | .remove id token, state =>
    { state with
      subscriptions :=
        (remove tokenHash id token state.subscriptions).toOption.getD state.subscriptions }
  | .cycle id cycle, state =>
    { state with
      subscriptions := state.subscriptions.updateWhere (·.id = id)
        (fun row => { row with sub := row.sub.runCycle cycle }) fun _ => rfl }

end Service

end Statements

section Uninterrupted

variable {tokenHash : String → String} {state : Service}

/-- A request that is admitted is valid and within the limits. -/
theorem admission_eq_ok {request : CreateSubscription} {subs : SubscriptionTable} {v : Validated}
    (admitted : admission request subs = .ok v) :
    validate request = .ok v ∧ checkLimits subs v = .ok () := by
  unfold admission at admitted
  cases valid : validate request with
  | error refusal =>
    rw [valid] at admitted
    cases admitted
  | ok v =>
    cases within : checkLimits subs v with
    | error refusal =>
      simp only [valid, within, Except.mapError, bind, Except.bind] at admitted
      cases admitted
    | ok _ =>
      simp only [valid, within, Except.mapError, bind, Except.bind] at admitted
      cases admitted
      exact ⟨rfl, within⟩

private theorem lookup_passTest (request wanted : Nat) (state : Service) :
    (state.passTest request).inFlight.table.lookup wanted =
      (state.inFlight.table.lookup wanted).map fun flight =>
        if flight.request = request then { flight with tested := true } else flight := by
  rw [Service.passTest, Serial.updateWhere, Table.lookup_updateWhere]
  simp only [decide_eq_true_eq]

private theorem lookup_finish (request : Nat) (state : Service) :
    (state.finish request).inFlight.table.lookup request = none := by
  rw [Service.finish, Serial.deleteWhere, Table.lookup_deleteWhere]
  refine Option.eq_none_iff_forall_ne_some.mpr fun flight found => ?_
  obtain ⟨found, other⟩ := Option.filter_eq_some_iff.mp found
  simp [Table.key_of_lookup found] at other

/-- A request that is no longer in flight saves nothing. -/
theorem save_of_absent {request : Nat} (absent : state.inFlight.table.lookup request = none)
    (id : Uuid) (token : String) : state.save tokenHash request id token = state := by
  rw [Service.save, absent]

/-- The later steps of a request that is not under way change no subscription. -/
theorem subscriptions_of_absent {request : Nat}
    (absent : state.inFlight.table.lookup request = none) (answer : Except String Unit)
    (id : Uuid) (token : String) :
    ((state.step tokenHash (.posted request answer)).save tokenHash request id
      token).subscriptions = state.subscriptions := by
  cases answer with
  | ok _ =>
    rw [Service.step, save_of_absent]
    · rfl
    · rw [lookup_passTest, absent, Option.map_none]
  | error e =>
    rw [Service.step, save_of_absent (lookup_finish request state)]
    rfl

/-- The steps of a request that nothing comes between are `create`. -/
theorem create_run (request : CreateSubscription) (answer : Except String Unit) (id : Uuid)
    (token : String) (state : Service) :
    (runAll (Service.step tokenHash) [.check request, .posted state.inFlight.next answer,
      .insert state.inFlight.next id token] state).subscriptions =
      (create tokenHash request answer id token state.subscriptions).toOption.getD
        state.subscriptions := by
  simp only [runAll_cons, runAll_nil, Service.step, create]
  cases admitted : admission request state.subscriptions with
  | error refusal => exact subscriptions_of_absent state.inFlight.lookup_next answer id token
  | ok v =>
    have begun : (state.begin v).inFlight.table.lookup state.inFlight.next =
        some ⟨state.inFlight.next, v, false⟩ :=
      Table.lookup_of_mem (Serial.mem_append.mpr (.inr rfl))
    cases answer with
    | error e =>
      have ended : (((state.begin v).finish state.inFlight.next).save tokenHash
          state.inFlight.next id token).subscriptions = state.subscriptions := by
        rw [save_of_absent (lookup_finish _ _)]
        rfl
      exact ended
    | ok _ =>
      have tested : ((state.begin v).passTest state.inFlight.next).inFlight.table.lookup
          state.inFlight.next = some ⟨state.inFlight.next, v, true⟩ := by
        rw [lookup_passTest, begun, Option.map_some, if_pos rfl]
      have landed : (((state.begin v).passTest state.inFlight.next).save tokenHash
          state.inFlight.next id token).subscriptions =
            (insert tokenHash v id token state.subscriptions).toOption.getD
              state.subscriptions := by
        rw [Service.save, tested]
        dsimp only [Service.passTest, Service.begin]
        cases insert tokenHash v id token state.subscriptions <;> rfl
      exact landed

end Uninterrupted

section Counts

variable {tokenHash : String → String} {limit : Limit} {name : String}

/-- The requests under way for a name. -/
def Limit.flying (limit : Limit) (name : String) (state : Service) : Nat :=
  state.inFlight.table.rows.countP fun flight => limit.ofRequest flight.v = name

/-- An insert adds one active row to the name its request falls under. -/
theorem active_insert {v : Validated} {id : Uuid} {token : String} {subs next : SubscriptionTable}
    (saved : insert tokenHash v id token subs = .ok next) :
    limit.active name next =
      limit.active name subs + if limit.ofRequest v = name then 1 else 0 := by
  unfold insert at saved
  split at saved
  · cases saved
  · next free =>
    cases saved
    have active : (newRow tokenHash v id token).isActive = true := rfl
    rw [Limit.active, Table.rows_insertNew free, List.countP_append, List.countP_singleton, active,
      limit.ofRow_new]
    simp [Limit.active]

/-- A removal adds no active row. -/
theorem active_remove_le {id : Uuid} {token : String} {subs next : SubscriptionTable}
    (removed : remove tokenHash id token subs = .ok next) :
    limit.active name next ≤ limit.active name subs := by
  unfold remove at removed
  dsimp only at removed
  split at removed
  · cases removed
    exact List.filter_sublist.countP_le
  · cases removed

/-- A cycle of the alert loop enables nothing. -/
theorem disabled_runCycle {sub : Subscription} (cycle : SubscriptionCycle)
    (disabled : sub.disabled = true) : (sub.runCycle cycle).disabled = true := by
  rw [Subscription.runCycle, disabled]
  exact disabled

/-- A cycle of the alert loop adds no active row. -/
theorem active_cycle_le (id : Uuid) (cycle : SubscriptionCycle) (state : Service) :
    limit.active name (state.step tokenHash (.cycle id cycle)).subscriptions ≤
      limit.active name state.subscriptions := by
  simp only [Limit.active, Service.step, Table.updateWhere, List.countP_map]
  refine List.countP_mono_left fun row _ counted => ?_
  rw [Function.comp_apply] at counted
  split at counted
  · rw [limit.ofRow_sub] at counted
    rw [Bool.and_eq_true] at counted ⊢
    refine ⟨?_, counted.2⟩
    by_contra off
    have disabled : row.sub.disabled = true := by simpa [SubscriptionRow.isActive] using off
    simp [SubscriptionRow.isActive, disabled_runCycle cycle disabled] at counted
  · exact counted

private theorem flying_finish_le (limit : Limit) (name : String) (request : Nat) (state : Service) :
    limit.flying name (state.finish request) ≤ limit.flying name state :=
  List.filter_sublist.countP_le

/-- A request that ends is one fewer under way for its name. -/
theorem flying_finish_lt {request : Nat} {state : Service} {flight : Flight}
    (found : state.inFlight.table.lookup request = some flight)
    (same : limit.ofRequest flight.v = name) :
    limit.flying name (state.finish request) < limit.flying name state := by
  obtain ⟨listed, numbered⟩ := Table.lookup_eq_some_iff.mp found
  simp only [Limit.flying, Service.finish, Serial.deleteWhere, Table.deleteWhere,
    List.countP_eq_length_filter]
  rw [List.filter_comm, List.length_filter_lt_length_iff_exists]
  exact ⟨flight, List.mem_filter.mpr ⟨listed, decide_eq_true same⟩, by simp [numbered]⟩

private theorem flying_passTest (request : Nat) (state : Service) :
    limit.flying name (state.passTest request) = limit.flying name state := by
  simp only [Limit.flying, Service.passTest, Serial.updateWhere, Table.updateWhere, List.countP_map]
  refine List.countP_congr fun flight _ => ?_
  rw [Function.comp_apply]
  split <;> exact Iff.rfl

/-- A request that passed the checks is one more in flight under its name. -/
theorem flying_begin (v : Validated) (state : Service) :
    limit.flying name (state.begin v) =
      limit.flying name state + if limit.ofRequest v = name then 1 else 0 := by
  simp only [Limit.flying, Service.begin, Serial.rows_append, List.countP_append,
    List.countP_singleton, decide_eq_true_eq]

/-- A request under way that is saved moves from one count to the other. -/
theorem save_load (request : Nat) (id : Uuid) (token : String) (state : Service) :
    limit.flying name (state.save tokenHash request id token) ≤ limit.flying name state ∧
      limit.active name (state.save tokenHash request id token).subscriptions +
          limit.flying name (state.save tokenHash request id token) ≤
        limit.active name state.subscriptions + limit.flying name state := by
  unfold Service.save
  split
  · next v found =>
    have fewer := flying_finish_le limit name request state
    split
    · next subscriptions saved =>
      refine ⟨fewer, ?_⟩
      rw [active_insert saved]
      split
      · next same =>
        have one_fewer := flying_finish_lt found same
        calc limit.active name state.subscriptions + 1 + limit.flying name (state.finish request)
            = limit.active name state.subscriptions +
                (limit.flying name (state.finish request) + 1) := by omega
          _ ≤ limit.active name state.subscriptions + limit.flying name state :=
            Nat.add_le_add_left one_fewer _
      · exact Nat.add_le_add_left fewer _
    · exact ⟨fewer, Nat.add_le_add_left fewer _⟩
  · exact ⟨Nat.le_refl _, Nat.le_refl _⟩

/-- What a step does to the load of a name: a request that passes its check adds to what is under
way, and nothing else adds to what is active and under way together. -/
theorem step_load (tokenHash : String → String) (limit : Limit) (name : String)
    (event : ServiceEvent) (state : Service) :
    (limit.flying name (state.step tokenHash event) ≤ limit.flying name state ∧
      limit.active name (state.step tokenHash event).subscriptions +
          limit.flying name (state.step tokenHash event) ≤
        limit.active name state.subscriptions + limit.flying name state) ∨
    ∃ request v, event = .check request ∧ validate request = .ok v ∧
      checkLimits state.subscriptions v = .ok () ∧
      (state.step tokenHash event).subscriptions = state.subscriptions ∧
      limit.flying name (state.step tokenHash event) =
        limit.flying name state + if limit.ofRequest v = name then 1 else 0 := by
  cases event with
  | check request =>
    rw [Service.step]
    cases admitted : admission request state.subscriptions with
    | error refusal => exact .inl ⟨Nat.le_refl _, Nat.le_refl _⟩
    | ok v =>
      obtain ⟨valid, within⟩ := admission_eq_ok admitted
      exact .inr ⟨request, v, rfl, valid, within, rfl, flying_begin v state⟩
  | posted request answer =>
    cases answer with
    | ok done =>
      refine .inl ⟨(flying_passTest request state).le, ?_⟩
      exact Nat.add_le_add_left (flying_passTest request state).le _
    | error e =>
      exact .inl ⟨flying_finish_le limit name request state,
        Nat.add_le_add_left (flying_finish_le limit name request state) _⟩
  | insert request id token => exact .inl (save_load request id token state)
  | abandon request =>
    exact .inl ⟨flying_finish_le limit name request state,
      Nat.add_le_add_left (flying_finish_le limit name request state) _⟩
  | remove id token =>
    refine .inl ⟨Nat.le_refl _, Nat.add_le_add_right ?_ _⟩
    cases removed : remove tokenHash id token state.subscriptions with
    | error refusal => simp [Service.step, removed, Except.toOption]
    | ok next => simpa [Service.step, removed, Except.toOption] using active_remove_le removed
  | cycle id cycle =>
    exact .inl ⟨Nat.le_refl _, Nat.add_le_add_right (active_cycle_le id cycle state) _⟩

end Counts

section Runs

variable {tokenHash : String → String}

def limits : List Limit := [perWebhook, perIndexer]

/-- A check that passes leaves room, beside what is active, for all that is under way. -/
def RoomFor : ServiceEvent → Service → Prop
  | .check request, state => ∀ v, validate request = .ok v →
      checkLimits state.subscriptions v = .ok () → ∀ limit ∈ limits,
        limit.active (limit.ofRequest v) state.subscriptions +
          limit.flying (limit.ofRequest v) state < limit.most
  | _, _ => True

/-- What is under way still fits. -/
def Fits (state : Service) : Prop :=
  ∀ limit ∈ limits, ∀ name, limit.flying name state = 0 ∨
    limit.active name state.subscriptions + limit.flying name state ≤ limit.most

/-- With room at each check, one step keeps stored rows and requests in flight within the limit. -/
theorem fits_step {event : ServiceEvent} {state : Service} (room : RoomFor event state)
    (fits : Fits state) : Fits (state.step tokenHash event) := by
  intro limit listed name
  rcases step_load tokenHash limit name event state with
    ⟨fewer, load⟩ | ⟨request, v, rfl, valid, within, same, more⟩
  · rcases fits limit listed name with none | fit <;> omega
  · rw [same, more]
    split
    · next named =>
      subst named
      exact .inr (room v valid within limit listed)
    · exact fits limit listed name

/-- A step from a state that fits takes no name over its limit. -/
theorem active_step_le {event : ServiceEvent} {state : Service} (fits : Fits state)
    {limit : Limit} (listed : limit ∈ limits) (name : String) :
    limit.active name (state.step tokenHash event).subscriptions ≤
      max limit.most (limit.active name state.subscriptions) := by
  rcases step_load tokenHash limit name event state with
    ⟨fewer, load⟩ | ⟨request, v, rfl, valid, within, same, more⟩
  · rcases fits limit listed name with none | fit <;> omega
  · rw [same]
    exact le_max_right _ _

/-- With room at each check, no step takes a limit's active rows above its bound. -/
theorem steps_bounded {start : Service} (fits : Fits start) {events : List ServiceEvent}
    (room : Throughout (Service.step tokenHash) RoomFor events start)
    {limit : Limit} (listed : limit ∈ limits) (name : String) :
    Throughout (Service.step tokenHash) (fun event state =>
      limit.active name (state.step tokenHash event).subscriptions ≤
        max limit.most (limit.active name state.subscriptions)) events start :=
  Throughout.imp Fits (fun _ _ _ fits room => fits_step room fits)
    (fun _ _ _ fits _ => active_step_le fits listed name) fits room

private theorem active_le_of_bounded {limit : Limit} {name : String} {events : List ServiceEvent}
    {state : Service} (bounded : Throughout (Service.step tokenHash) (fun event state =>
      limit.active name (state.step tokenHash event).subscriptions ≤
        max limit.most (limit.active name state.subscriptions)) events state) :
    limit.active name (runAll (Service.step tokenHash) events state).subscriptions ≤
      max limit.most (limit.active name state.subscriptions) :=
  bounded.bound (fun after before => after ≤ max limit.most before) (fun _ => le_max_right _ _)
    (fun first second => by omega) fun (state : Service) => limit.active name state.subscriptions

/-- Whether an event begins a request. -/
def ServiceEvent.begins : ServiceEvent → Bool
  | .check _ => true
  | _ => false

private theorem throughout_of_quiet {events : List ServiceEvent} {state : Service}
    (quiet : ∀ event ∈ events, event.begins = false) :
    Throughout (Service.step tokenHash) RoomFor events state := by
  induction events generalizing state with
  | nil => trivial
  | cons event rest ih =>
    obtain ⟨first, later⟩ := List.forall_mem_cons.mp quiet
    refine ⟨?_, ih later⟩
    cases event with
    | check request => cases first
    | _ => trivial

/-- The test post of the first request under way lands, and it is saved. -/
theorem land_first (tokenHash : String → String) {state : Service} {flight : Flight} {others : List Flight} {id : Uuid}
    (first : state.inFlight.table.rows = flight :: others)
    (free : ¬state.subscriptions.holds id) (token : String) :
    ((state.passTest flight.request).save tokenHash flight.request id token).inFlight.table.rows =
        others ∧
      ((state.passTest flight.request).save tokenHash flight.request id token).subscriptions =
        state.subscriptions.insertNew (newRow tokenHash flight.v id token) := by
  have listed : flight ∈ state.inFlight.table := by
    rw [← Table.mem_rows, first]
    exact List.mem_cons_self
  have tested : (state.passTest flight.request).inFlight.table.lookup flight.request =
      some ⟨flight.request, flight.v, true⟩ := by
    rw [lookup_passTest, Table.lookup_of_mem listed, Option.map_some, if_pos rfl]
  have saved : insert tokenHash flight.v id token (state.passTest flight.request).subscriptions =
      .ok (state.subscriptions.insertNew (newRow tokenHash flight.v id token)) := if_neg free
  rw [Service.save, tested]
  dsimp only
  rw [saved]
  refine ⟨?_, rfl⟩
  have apart : ∀ other ∈ others, other.request ≠ flight.request := by
    have unique := state.inFlight.table.unique
    rw [first, List.map_cons, List.nodup_cons] at unique
    exact fun other among same => unique.1 (same ▸ List.mem_map_of_mem among)
  have unchanged : others.map (fun other =>
      if decide (other.request = flight.request) then { other with tested := true } else other) =
        others :=
    (List.map_congr_left fun other among => by simp [apart other among]).trans (List.map_id others)
  simp only [Service.finish, Service.passTest, Serial.deleteWhere, Serial.updateWhere,
    Table.deleteWhere, Table.updateWhere, first, List.map_cons]
  rw [unchanged, List.filter_cons_of_neg (by simp), List.filter_eq_self]
  exact fun other among => by simp [apart other among]

/-- There are more ids than rows. -/
theorem exists_free (subs : SubscriptionTable) (ids : subs.rows.length < 2 ^ 128) :
    ∃ id, ¬subs.holds id := by
  by_contra none
  have every : ∀ id, subs.holds id := not_exists_not.mp none
  have all : List.range (2 ^ 128) ⊆ (subs.rows.map SubscriptionRow.id).map BitVec.toNat := by
    intro number small
    refine List.mem_map.mpr ⟨BitVec.ofNat 128 number, every _, ?_⟩
    rw [BitVec.toNat_ofNat, Nat.mod_eq_of_lt (List.mem_range.mp small)]
  have enough := (List.subperm_of_subset List.nodup_range all).length_le
  rw [List.length_range, List.length_map, List.length_map] at enough
  exact absurd ids (Nat.not_lt.mpr enough)

/-- While there are ids left, every request under way can still be saved. -/
theorem exists_landing (tokenHash : String → String) {flights : List Flight} {state : Service}
    (flying : state.inFlight.table.rows = flights)
    (ids : state.subscriptions.rows.length + flights.length ≤ 2 ^ 128) :
    ∃ events : List ServiceEvent, (∀ event ∈ events, event.begins = false) ∧
      ∀ limit : Limit, ∀ name,
        limit.active name (runAll (Service.step tokenHash) events state).subscriptions =
          limit.active name state.subscriptions +
            flights.countP fun flight => limit.ofRequest flight.v = name := by
  induction flights generalizing state with
  | nil => exact ⟨[], by simp, fun limit name => rfl⟩
  | cons flight others ih =>
    rw [List.length_cons] at ids
    obtain ⟨id, free⟩ := exists_free state.subscriptions (by omega)
    obtain ⟨left, saved⟩ := land_first tokenHash flying free ""
    have inserted : insert tokenHash flight.v id "" state.subscriptions =
        .ok (state.subscriptions.insertNew (newRow tokenHash flight.v id "")) := if_neg free
    have active : ∀ limit : Limit, ∀ name, limit.active name
        ((state.passTest flight.request).save tokenHash flight.request id "").subscriptions =
          limit.active name state.subscriptions + if limit.ofRequest flight.v = name then 1 else 0 :=
      fun limit name => saved ▸ active_insert inserted
    obtain ⟨events, quiet, landed⟩ := ih left (by
      rw [saved, Table.rows_insertNew free, List.length_append, List.length_singleton]
      omega)
    refine ⟨.posted flight.request (.ok ()) :: .insert flight.request id "" :: events, ?_,
      fun limit name => ?_⟩
    · exact List.forall_mem_cons.mpr ⟨rfl, List.forall_mem_cons.mpr ⟨rfl, quiet⟩⟩
    · rw [runAll_cons, runAll_cons, Service.step, Service.step, landed, active, List.countP_cons]
      simp only [decide_eq_true_eq]
      omega

/-- A state fits exactly where no order of the steps that are still under way takes a name over
its limit. -/
theorem fits_iff {state : Service}
    (ids : state.subscriptions.rows.length + state.inFlight.table.rows.length ≤ 2 ^ 128) :
    Fits state ↔ ∀ events : List ServiceEvent, (∀ event ∈ events, event.begins = false) →
      ∀ limit ∈ limits, ∀ name,
        limit.active name (runAll (Service.step tokenHash) events state).subscriptions ≤
          max limit.most (limit.active name state.subscriptions) := by
  constructor
  · intro fits events quiet limit listed name
    exact active_le_of_bounded (steps_bounded fits (throughout_of_quiet quiet) listed name)
  · intro safe limit listed name
    obtain ⟨events, quiet, landed⟩ := exists_landing tokenHash rfl ids
    have bounded := safe events quiet limit listed name
    rw [landed limit name] at bounded
    change limit.active name state.subscriptions + limit.flying name state ≤ _ at bounded
    omega

/-- Where each check that passes leaves room for the requests under way, no name has more active
subscriptions than its limit at any moment, unless it had as many at an earlier one. -/
theorem limits_hold_of_room {start : Service} (idle : start.inFlight.table.rows = [])
    {events earlier later : List ServiceEvent} (reached : earlier ++ later <+: events)
    (room : Throughout (Service.step tokenHash) RoomFor events start)
    {limit : Limit} (listed : limit ∈ limits) (name : String) :
    limit.active name (runAll (Service.step tokenHash) (earlier ++ later) start).subscriptions ≤
      max limit.most
        (limit.active name (runAll (Service.step tokenHash) earlier start).subscriptions) := by
  have fits : Fits start := fun limit _ name => .inl (by rw [Limit.flying, idle, List.countP_nil])
  obtain ⟨rest, rfl⟩ := reached
  rw [runAll_append]
  exact active_le_of_bounded (steps_bounded fits room listed name).of_append.1.of_append.2

/-- No subscription and no request. -/
def idleService : Service := ⟨.empty, .empty⟩

def hookRequest : CreateSubscription where
  indexer := " 0x2B3C7D1EF5FDFC0557934019C531D3E70D6200AE"
  webhookUrl := "https://discord.com/api/webhooks/1/abc"
  kinds := some ["poi"]
  signalMovePct := none

def hookValidated : Validated where
  indexer := "0x2b3c7d1ef5fdfc0557934019c531d3e70d6200ae"
  webhookUrl := "https://discord.com/api/webhooks/1/abc"
  choice := ⟨["poi"], 20⟩

private theorem validate_hookRequest : validate hookRequest = .ok hookValidated := by rfl

private theorem roomFor_hook {state : Service}
    (room : ∀ limit ∈ limits, limit.active (limit.ofRequest hookValidated) state.subscriptions +
      limit.flying (limit.ofRequest hookValidated) state < limit.most) :
    RoomFor (.check hookRequest) state := by
  intro v valid _
  obtain rfl : hookValidated = v := Except.ok.inj (validate_hookRequest.symm.trans valid)
  exact room

/-- The second request is checked while the first is under way, and is saved before it. -/
def overlappingSteps : List ServiceEvent :=
  [.check hookRequest, .check hookRequest, .posted 2 (.ok ()), .posted 1 (.ok ()),
    .insert 2 2 "token", .insert 1 1 "token"]

/-- Two overlapping requests for one webhook both save, and stay within its limit. -/
theorem two_overlapping_fit :
    perWebhook.active hookValidated.webhookUrl
        (runAll (Service.step id) overlappingSteps idleService).subscriptions = 2 ∧
      perWebhook.active hookValidated.webhookUrl
          (runAll (Service.step id) overlappingSteps idleService).subscriptions ≤
        max maxPerWebhook (perWebhook.active hookValidated.webhookUrl idleService.subscriptions) := by
  have whole : [] ++ overlappingSteps <+: overlappingSteps := List.prefix_refl _
  refine ⟨by decide,
    limits_hold_of_room rfl whole ?_ List.mem_cons_self hookValidated.webhookUrl⟩
  exact ⟨roomFor_hook (by decide), roomFor_hook (by decide), trivial, trivial,
    trivial, trivial, trivial⟩

/-- Eleven requests are checked before the first of them is inserted. -/
theorem eleven_checks_refute :
    perWebhook.active hookValidated.webhookUrl idleService.subscriptions = 0 ∧
      perWebhook.active hookValidated.webhookUrl
        (runAll (Service.step id) ((List.replicate 11 (.check hookRequest)) ++
          (List.range' 1 11).map (.posted · (.ok ())) ++
          (List.range' 1 11).map fun request => .insert request request "token")
          idleService).subscriptions = maxPerWebhook + 1 := by
  refine ⟨rfl, ?_⟩
  decide +kernel

end Runs

end Foghorn.Api
