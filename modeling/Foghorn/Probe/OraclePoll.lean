import Foghorn.Core.Tables
import Foghorn.Probe.DataEdge
import Foghorn.Probe.Executor
import Foghorn.Std.Table

/-!
# Polling the publisher

Foghorn reads the newest page of what was sent to the contract, and stores each message that it
has not seen. For a message that is new it asks for the payload, once. A failed insert ends the
poll, and the program may be stopped at any time; what was stored by then stays.
-/

namespace Foghorn.Probe

open Foghorn.Core Foghorn.Std

structure DataEdgeConfig where
  address : String
  explorerBase : String
  capturePayloads : Bool
  ipfsGateways : List String

structure BlockscoutTx where
  hash : String
  rawInput : String
  timestamp : String
  blockNumber : Int
  status : Option String
deriving DecidableEq

/-- `oracle_message`. -/
structure OracleMessage where
  txHash : String
  topic : String
  ipfsHash : String
  bucketTs : Int
  postedAt : Int
  blockNumber : Int
  lagSeconds : Int
deriving DecidableEq

/-- `oracle_payload`. -/
structure StoredPayload where
  ipfsHash : String
  topic : String
  bucketTs : Int
  raw : String
  bytes : Int
  via : String
deriving DecidableEq

/-- What reads a transaction: `serde_json::from_str` of a payload, and `str::parse` of a time, in
nanoseconds. -/
structure TxReaders where
  payload : String → Option OraclePayload
  time : String → Option Int

/-- `Utc.timestamp_opt(secs, 0).single()`. -/
def timestampOpt (secs : Int) : Option Int :=
  if -8334601228800 ≤ secs ∧ secs ≤ 8210266876799 then some secs else none

def nanosPerSecond : Int := 1000000000

/-- The first second of the year 2000, from which the database counts. -/
def databaseEpoch : Int := 946684800

/-- A time as the database keeps it, in microseconds. -/
def toTimestamptz (nanos : Int) : Int :=
  (nanos - databaseEpoch * nanosPerSecond).tdiv 1000 + databaseEpoch * microsPerSecond

/-- `as i32`. -/
def asI32 (value : Int) : Int := value.bmod (2 ^ 32)

/-- The row of a transaction, if it is a message. A reverted one published nothing. -/
def oracleMessage (readers : TxReaders) (tx : BlockscoutTx) : Option OracleMessage :=
  if tx.status = some "error" then none
  else do
    let payload ← decodePayload readers.payload tx.rawInput
    let bucket ← timestampOpt payload.timestamp
    let posted ← readers.time tx.timestamp
    some
      { txHash := tx.hash
        topic := payload.topic
        ipfsHash := payload.hash
        bucketTs := bucket * microsPerSecond
        postedAt := toTimestamptz posted
        blockNumber := tx.blockNumber
        lagSeconds := asI32 ((posted - bucket * nanosPerSecond).tdiv nanosPerSecond) }

structure GatewayResponse where
  status : Nat
  body : Option String

/-- What becomes of the insert of a message. -/
inductive Insert where
  | refused
  /-- Done, and the program is stopped behind it. -/
  | cutOff
  | done
deriving DecidableEq

/-- What is met while a transaction is handled. -/
structure Visit where
  insert : Insert
  gateway : String → Option GatewayResponse
  /-- Whether the insert of a payload succeeds. -/
  keeps : Bool

/-- A poll, with all that answers it. -/
structure Poll where
  cfg : DataEdgeConfig
  explorer : String → Option (List BlockscoutTx)
  visit : Nat → Visit

/-- A request for the payload of a message. -/
structure Ask where
  gateways : List String
  message : OracleMessage
  visit : Visit

/-- The two tables. What was asked for is in none of them. -/
structure OracleStore where
  messages : Table OracleMessage String OracleMessage.txHash
  payloads : Table StoredPayload String StoredPayload.ipfsHash
  asked : List Ask

def OracleStore.empty : OracleStore := ⟨Table.empty, Table.empty, []⟩

/-- The body that a gateway serves: a page of errors is not JSON. -/
def servedBody (crates : Crates) (response : Option GatewayResponse) : Option String := do
  let response ← response
  if !isSuccess response.status then none
  else
    let body ← response.body
    if (crates.parse body).isSome then some body else none

def Ask.served (crates : Crates) (ask : Ask) (base : String) : Option String :=
  servedBody crates (ask.visit.gateway (trimEndSlashes base ++ "/" ++ ask.message.ipfsHash))

/-- The row of a body that a gateway serves. -/
def Ask.payload (ask : Ask) (base body : String) : StoredPayload where
  ipfsHash := ask.message.ipfsHash
  topic := ask.message.topic
  bucketTs := ask.message.bucketTs
  raw := body
  bytes := asI32 body.utf8ByteSize
  via := base

/-- The loop of `capture_payload`: the gateways in order, the first success wins. -/
def Ask.captured (crates : Crates) (ask : Ask) : Option StoredPayload :=
  ask.gateways.findSome? fun base => (ask.served crates base).map (ask.payload base)

/-- What the database is given of it. -/
def Ask.kept (crates : Crates) (ask : Ask) : Option StoredPayload :=
  if ask.visit.keeps then ask.captured crates else none

def capturePayload (crates : Crates) (ask : Ask) (store : OracleStore) : OracleStore where
  messages := store.messages
  payloads := store.payloads.insertAll (ask.kept crates).toList
  asked := store.asked ++ [ask]

/-- Store a message, and ask for its payload if it is new. -/
def takeMessage (crates : Crates) (cfg : DataEdgeConfig) (visit : Visit) (row : OracleMessage)
    (store : OracleStore) : OracleStore :=
  let taken := { store with messages := store.messages.insertNew row }
  if ¬ store.messages.holds row.txHash ∧ cfg.capturePayloads then
    capturePayload crates ⟨cfg.ipfsGateways, row, visit⟩ taken
  else taken

/-- The loop of `poll_once`, which counts the rows it adds; no count when it ends early. -/
def pollItems (crates : Crates) (readers : TxReaders) (cfg : DataEdgeConfig) :
    List (BlockscoutTx × Visit) → Nat → OracleStore → OracleStore × Option Nat
  | [], stored, store => (store, some stored)
  | (tx, visit) :: rest, stored, store =>
    match oracleMessage readers tx with
    | none => pollItems crates readers cfg rest stored store
    | some row =>
      match visit.insert with
      | .refused => (store, none)
      | .cutOff => ({ store with messages := store.messages.insertNew row }, none)
      | .done =>
        pollItems crates readers cfg rest
          (stored + if store.messages.holds row.txHash then 0 else 1)
          (takeMessage crates cfg visit row store)

def transactionsUrl (cfg : DataEdgeConfig) : String :=
  trimEndSlashes cfg.explorerBase ++ "/api/v2/addresses/" ++ cfg.address ++ "/transactions?filter=to"

/-- The transactions of a page, each with what is met on it. -/
def Poll.items (poll : Poll) : List (BlockscoutTx × Visit) :=
  ((poll.explorer (transactionsUrl poll.cfg)).getD []).mapIdx fun index tx => (tx, poll.visit index)

/-- `poll_once`. -/
def pollOnce (crates : Crates) (readers : TxReaders) (poll : Poll) (store : OracleStore) :
    OracleStore × Option Nat :=
  match poll.explorer (transactionsUrl poll.cfg) with
  | none => (store, none)
  | some _ => pollItems crates readers poll.cfg poll.items 0 store

/-- The polls of `run_dataedge_loop`, which goes on after a failed one. -/
def pollAll (crates : Crates) (readers : TxReaders) (polls : List Poll) (store : OracleStore) :
    OracleStore :=
  polls.foldl (fun store poll => (pollOnce crates readers poll store).1) store

/-- The messages whose insert is reached and done. -/
def writtenItems (readers : TxReaders) : List (BlockscoutTx × Visit) → List OracleMessage
  | [] => []
  | (tx, visit) :: rest =>
    match oracleMessage readers tx with
    | none => writtenItems readers rest
    | some row =>
      match visit.insert with
      | .refused => []
      | .cutOff => [row]
      | .done => row :: writtenItems readers rest

def Poll.written (readers : TxReaders) (poll : Poll) : List OracleMessage :=
  writtenItems readers poll.items

section Messages

variable {crates : Crates} {readers : TxReaders} {cfg : DataEdgeConfig} {visit : Visit}
  {row : OracleMessage} {store : OracleStore} {items : List (BlockscoutTx × Visit)} {stored : Nat}

private theorem messages_takeMessage :
    (takeMessage crates cfg visit row store).messages = store.messages.insertNew row := by
  rw [takeMessage]
  split <;> rfl

private theorem messages_pollItems : (pollItems crates readers cfg items stored store).1.messages =
    store.messages.insertAll (writtenItems readers items) := by
  induction items generalizing stored store with
  | nil => rfl
  | cons item rest ih =>
    obtain ⟨tx, visit⟩ := item
    rw [pollItems, writtenItems]
    cases oracleMessage readers tx with
    | none => exact ih
    | some row =>
      cases visit.insert with
      | refused => rfl
      | cutOff => rfl
      | done => exact ih.trans (by rw [messages_takeMessage, Table.insertAll_cons])

private theorem messages_pollOnce {poll : Poll} : (pollOnce crates readers poll store).1.messages =
    store.messages.insertAll (poll.written readers) := by
  rw [pollOnce]
  split
  · rename_i unanswered
    rw [Poll.written, Poll.items, unanswered]
    rfl
  · exact messages_pollItems

/-- Over any polls the stored messages are those written, the first of each hash. -/
theorem messages_pollAll (polls : List Poll) (store : OracleStore) :
    (pollAll crates readers polls store).messages =
      store.messages.insertAll (polls.flatMap (Poll.written readers)) := by
  induction polls generalizing store with
  | nil => rfl
  | cons poll rest ih =>
    rw [pollAll, List.foldl_cons, ← pollAll, ih, messages_pollOnce, List.flatMap_cons,
      Table.insertAll_append]

/-- What is stored of a transaction is what was read of it first. -/
theorem lookup_pollAll (polls : List Poll) (store : OracleStore) (txHash : String) :
    (pollAll crates readers polls store).messages.lookup txHash =
      (store.messages.lookup txHash).or
        ((polls.flatMap (Poll.written readers)).find? fun row => row.txHash = txHash) := by
  rw [messages_pollAll, Table.lookup_insertAll]

end Messages

section Payloads

/-- How a payload was found: the gateways before the one that served it served nothing. -/
structure Ask.Found (crates : Crates) (ask : Ask) (payload : StoredPayload) : Prop where
  order : ∃ before after, ask.gateways = before ++ payload.via :: after ∧
    ∀ base ∈ before, ask.served crates base = none
  served : ask.served crates payload.via = some payload.raw
  row : payload = ask.payload payload.via payload.raw
  json : (crates.parse payload.raw).isSome

/-- No message is asked for twice, and each payload is the first that was kept for its hash. -/
structure AskedOnce (crates : Crates) (store : OracleStore) : Prop where
  stored : (store.asked.map Ask.message).Sublist store.messages.rows
  once : (store.asked.map fun ask => ask.message.txHash).Nodup
  first : ∀ cid, store.payloads.lookup cid =
    (store.asked.filterMap (Ask.kept crates)).find? fun payload => payload.ipfsHash = cid
  found : ∀ payload ∈ store.payloads, ∃ ask ∈ store.asked, ask.Found crates payload

variable {crates : Crates} {readers : TxReaders} {cfg : DataEdgeConfig} {visit : Visit}
  {row : OracleMessage} {store : OracleStore} {items : List (BlockscoutTx × Visit)} {stored : Nat}
  {ask : Ask} {payload : StoredPayload}

private theorem json_of_servedBody {response : Option GatewayResponse} {body : String}
    (served : servedBody crates response = some body) : (crates.parse body).isSome := by
  obtain ⟨answer, -, served⟩ := Option.bind_eq_some_iff.mp served
  split at served
  · cases served
  · obtain ⟨text, -, served⟩ := Option.bind_eq_some_iff.mp served
    split at served
    · rename_i json
      exact Option.some.inj served ▸ json
    · cases served

private theorem found_of_kept (kept : ask.kept crates = some payload) :
    ask.Found crates payload := by
  rw [Ask.kept] at kept
  split at kept
  · obtain ⟨before, via, after, gateways, hit, misses⟩ := List.findSome?_eq_some_iff.mp kept
    obtain ⟨body, served, rfl⟩ := Option.map_eq_some_iff.mp hit
    refine ⟨⟨before, after, gateways, fun base member => ?_⟩, served, rfl, json_of_servedBody served⟩
    exact Option.map_eq_none_iff.mp (misses base member)
  · cases kept

/-- What every poll keeps: requests are about stored messages, in their order, and the payloads
are what was kept of them. -/
structure OracleSound (crates : Crates) (store : OracleStore) : Prop where
  stored : (store.asked.map Ask.message).Sublist store.messages.rows
  payloads : store.payloads = Table.empty.insertAll (store.asked.filterMap (Ask.kept crates))

private theorem sound_insertNew (sound : OracleSound crates store) :
    OracleSound crates { store with messages := store.messages.insertNew row } where
  stored := sound.stored.trans Table.sublist_insertNew
  payloads := sound.payloads

/-- Taking a message keeps the store sound. -/
theorem sound_takeMessage (sound : OracleSound crates store) :
    OracleSound crates (takeMessage crates cfg visit row store) := by
  rw [takeMessage]
  split
  · rename_i fresh
    refine ⟨?_, ?_⟩
    · rw [capturePayload, Table.rows_insertNew fresh.1, List.map_append]
      exact sound.stored.append (List.Sublist.refl _)
    · rw [capturePayload, sound.payloads, ← Table.insertAll_append, List.filterMap_append]
      rfl
  · exact sound_insertNew sound

private theorem sound_pollItems (sound : OracleSound crates store) :
    OracleSound crates (pollItems crates readers cfg items stored store).1 := by
  induction items generalizing stored store with
  | nil => exact sound
  | cons item rest ih =>
    obtain ⟨tx, visit⟩ := item
    rw [pollItems]
    cases oracleMessage readers tx with
    | none => exact ih sound
    | some row =>
      cases visit.insert with
      | refused => exact sound
      | cutOff => exact sound_insertNew sound
      | done => exact ih (sound_takeMessage sound)

/-- Any polls keep the store sound. -/
theorem sound_pollAll {polls : List Poll} (sound : OracleSound crates store) :
    OracleSound crates (pollAll crates readers polls store) := by
  induction polls generalizing store with
  | nil => exact sound
  | cons poll rest ih =>
    refine ih (show OracleSound crates (pollOnce crates readers poll store).1 from ?_)
    rw [pollOnce]
    split
    · exact sound
    · exact sound_pollItems sound

/-- In a sound store no message was asked for twice. -/
theorem askedOnce_of_sound (sound : OracleSound crates store) : AskedOnce crates store := by
  refine ⟨sound.stored, ?_, fun cid => ?_, fun payload listed => ?_⟩
  · have hashes := store.messages.unique.sublist (sound.stored.map OracleMessage.txHash)
    rwa [List.map_map] at hashes
  · rw [sound.payloads, Table.lookup_insertAll, Table.lookup_empty, Option.none_or]
  · have found := Table.lookup_of_mem listed
    rw [sound.payloads, Table.lookup_insertAll, Table.lookup_empty, Option.none_or] at found
    obtain ⟨ask, member, kept⟩ := List.mem_filterMap.mp (List.mem_of_find?_eq_some found)
    exact ⟨ask, member, found_of_kept kept⟩

/-- Over every run of polls, whatever the explorer, the gateways and the database answer. -/
theorem askedOnce_pollAll (crates : Crates) (readers : TxReaders) (polls : List Poll) :
    AskedOnce crates (pollAll crates readers polls .empty) :=
  askedOnce_of_sound (sound_pollAll ⟨List.Sublist.refl _, rfl⟩)

/-- A poll that asks for every new message, and is not stopped between the two. -/
structure Poll.Asks (poll : Poll) : Prop where
  captures : poll.cfg.capturePayloads
  whole : ∀ index, (poll.visit index).insert ≠ .cutOff

private theorem mem_items {poll : Poll} {item : BlockscoutTx × Visit} (member : item ∈ poll.items) :
    ∃ index, item.2 = poll.visit index := by
  obtain ⟨index, inside, rfl⟩ := List.mem_mapIdx.mp member
  exact ⟨index, rfl⟩

/-- With payloads captured and no insert cut off, just the stored messages were asked for. -/
theorem asked_pollItems (captures : cfg.capturePayloads)
    (whole : ∀ item ∈ items, item.2.insert ≠ .cutOff)
    (all : store.asked.map Ask.message = store.messages.rows) :
    (pollItems crates readers cfg items stored store).1.asked.map Ask.message =
      (pollItems crates readers cfg items stored store).1.messages.rows := by
  induction items generalizing stored store with
  | nil => exact all
  | cons item rest ih =>
    obtain ⟨tx, visit⟩ := item
    have later := fun stored store => @ih store stored
      fun item member => whole item (List.mem_cons_of_mem _ member)
    rw [pollItems]
    cases oracleMessage readers tx with
    | none => exact later _ _ all
    | some row =>
      cases met : visit.insert with
      | refused => exact all
      | cutOff => exact absurd met (whole _ List.mem_cons_self)
      | done =>
        refine later _ _ ?_
        rw [takeMessage]
        split
        · rename_i fresh
          rw [capturePayload, Table.rows_insertNew fresh.1, List.map_append, all]
          rfl
        · rename_i stale
          have taken : store.messages.holds row.txHash :=
            Decidable.of_not_not fun free => stale ⟨free, captures⟩
          rw [Table.insertNew_of_holds taken]
          exact all

/-- Then no message is left out. -/
theorem asked_pollAll {polls : List Poll} (asks : ∀ poll ∈ polls, poll.Asks) :
    (pollAll crates readers polls .empty).asked.map Ask.message =
      (pollAll crates readers polls .empty).messages.rows := by
  suffices kept : ∀ store : OracleStore, store.asked.map Ask.message = store.messages.rows →
      (pollAll crates readers polls store).asked.map Ask.message =
        (pollAll crates readers polls store).messages.rows from kept .empty rfl
  induction polls with
  | nil => exact fun _ all => all
  | cons poll rest ih =>
    intro store all
    have ask := asks poll List.mem_cons_self
    refine ih (fun other member => asks other (List.mem_cons_of_mem _ member)) _
      (show (pollOnce crates readers poll store).1.asked.map Ask.message =
        (pollOnce crates readers poll store).1.messages.rows from ?_)
    rw [pollOnce]
    split
    · exact all
    · refine asked_pollItems ask.captures (fun item member => ?_) all
      obtain ⟨index, same⟩ := mem_items member
      exact same ▸ ask.whole index

end Payloads

section Coverage

/-- What the explorer lists of a contract: the newest transactions, newest first. -/
def newestPage (size : Nat) (log : List BlockscoutTx) : List BlockscoutTx := log.reverse.take size

/-- A poll of a contract with a log, at a height of it unless the explorer does not answer. -/
structure Poll.Reads (size : Nat) (log : List BlockscoutTx) (poll : Poll) (height : Option Nat) :
    Prop where
  page : poll.explorer (transactionsUrl poll.cfg) =
    height.map fun height => newestPage size (log.take height)
  inside : ∀ reached ∈ height, reached ≤ log.length
  whole : ∀ index, (poll.visit index).insert = .done

variable {crates : Crates} {readers : TxReaders} {size : Nat} {log : List BlockscoutTx}
  {poll : Poll} {height : Option Nat} {row : OracleMessage}

private theorem txHash_oracleMessage {tx : BlockscoutTx}
    (read : oracleMessage readers tx = some row) :
    row.txHash = tx.hash := by
  rw [oracleMessage] at read
  split at read
  · cases read
  · obtain ⟨payload, -, read⟩ := Option.bind_eq_some_iff.mp read
    obtain ⟨bucket, -, read⟩ := Option.bind_eq_some_iff.mp read
    obtain ⟨posted, -, read⟩ := Option.bind_eq_some_iff.mp read
    rw [← Option.some.inj read]

private theorem writtenItems_of_done {items : List (BlockscoutTx × Visit)}
    (whole : ∀ item ∈ items, item.2.insert = .done) :
    writtenItems readers items = (items.map Prod.fst).filterMap (oracleMessage readers) := by
  induction items with
  | nil => rfl
  | cons item rest ih =>
    obtain ⟨tx, visit⟩ := item
    have met : visit.insert = .done := whole _ List.mem_cons_self
    have later := ih fun item member => whole item (List.mem_cons_of_mem _ member)
    rw [writtenItems, List.map_cons, List.filterMap_cons]
    cases oracleMessage readers tx with
    | none => exact later
    | some row => simp only [met, later]

/-- A poll writes the messages on the newest page at the height it read. -/
theorem mem_poll_written (reads : poll.Reads size log height) : row ∈ poll.written readers ↔
    ∃ reached ∈ height, ∃ tx ∈ newestPage size (log.take reached),
      oracleMessage readers tx = some row := by
  have whole : ∀ item ∈ poll.items, item.2.insert = .done := by
    intro item member
    obtain ⟨index, same⟩ := mem_items member
    exact same ▸ reads.whole index
  have listed : poll.items.map Prod.fst =
      (height.map fun reached => newestPage size (log.take reached)).getD [] := by
    rw [Poll.items, ← reads.page]
    exact List.ext_getElem (by simp) (by simp)
  rw [Poll.written, writtenItems_of_done whole, listed]
  cases height with
  | none => simp
  | some reached => simp

/-- A page reaches back as far as it is long. -/
theorem mem_newestPage (distinct : log.Nodup) {position reached : Nat} (inside : position < log.length)
    (bound : reached ≤ log.length) : log[position] ∈ newestPage size (log.take reached) ↔
      position < reached ∧ reached ≤ position + size := by
  rw [newestPage, List.take_reverse, List.mem_reverse, List.length_take, Nat.min_eq_left bound]
  constructor
  · intro member
    obtain ⟨index, listed, same⟩ := List.mem_iff_getElem.mp member
    rw [List.getElem_drop, List.getElem_take, distinct.getElem_inj_iff] at same
    rw [List.length_drop, List.length_take, Nat.min_eq_left bound] at listed
    omega
  · rintro ⟨before, near⟩
    have room : position - (reached - size) <
        ((log.take reached).drop (reached - size)).length := by
      rw [List.length_drop, List.length_take, Nat.min_eq_left bound]
      omega
    refine List.mem_iff_getElem.mpr ⟨position - (reached - size), room, ?_⟩
    rw [List.getElem_drop, List.getElem_take, distinct.getElem_inj_iff]
    omega

/-- A message is stored exactly when some poll was answered while the page reached back to it. -/
theorem stored_iff {polls : List (Poll × Option Nat)} (distinct : (log.map BlockscoutTx.hash).Nodup)
    (reads : ∀ entry ∈ polls, entry.1.Reads size log entry.2) {position : Nat}
    (inside : position < log.length) (read : oracleMessage readers log[position] = some row) :
    row ∈ (pollAll crates readers (polls.map Prod.fst) .empty).messages ↔
      ∃ entry ∈ polls, ∃ reached ∈ entry.2, position < reached ∧ reached ≤ position + size := by
  -- Every row was read of the log, where a hash has one transaction.
  have ofLog : ∀ row ∈ (polls.map Prod.fst).flatMap (Poll.written readers),
      ∃ tx ∈ log, oracleMessage readers tx = some row := by
    intro row member
    obtain ⟨poll, listed, written⟩ := List.mem_flatMap.mp member
    obtain ⟨entry, among, rfl⟩ := List.mem_map.mp listed
    obtain ⟨reached, -, tx, onPage, read⟩ := (mem_poll_written (reads entry among)).mp written
    exact ⟨tx, List.mem_of_mem_take (List.mem_reverse.mp (List.mem_of_mem_take onPage)), read⟩
  have sameTx : ∀ tx ∈ log, ∀ other ∈ log, ∀ {first second : OracleMessage},
      oracleMessage readers tx = some first → oracleMessage readers other = some second →
        first.txHash = second.txHash → tx = other := by
    intro tx here other there first second readFirst readSecond same
    rw [txHash_oracleMessage readFirst, txHash_oracleMessage readSecond] at same
    exact List.inj_on_of_nodup_map distinct here there same
  have agree : ∀ first ∈ (polls.map Prod.fst).flatMap (Poll.written readers),
      ∀ second ∈ (polls.map Prod.fst).flatMap (Poll.written readers),
        first.txHash = second.txHash → first = second := by
    intro first inFirst second inSecond same
    obtain ⟨tx, here, readFirst⟩ := ofLog first inFirst
    obtain ⟨other, there, readSecond⟩ := ofLog second inSecond
    obtain rfl := sameTx tx here other there readFirst readSecond same
    exact Option.some.inj (readFirst.symm.trans readSecond)
  rw [messages_pollAll, OracleStore.empty, Table.mem_insertAll_empty agree, List.mem_flatMap]
  constructor
  · rintro ⟨poll, listed, written⟩
    obtain ⟨entry, among, rfl⟩ := List.mem_map.mp listed
    obtain ⟨reached, answered, tx, onPage, other⟩ := (mem_poll_written (reads entry among)).mp written
    have there := List.mem_of_mem_take (List.mem_reverse.mp (List.mem_of_mem_take onPage))
    obtain rfl := sameTx tx there _ (List.getElem_mem inside) other read rfl
    exact ⟨entry, among, reached, answered, (mem_newestPage distinct.of_map inside
      ((reads entry among).inside reached answered)).mp onPage⟩
  · rintro ⟨entry, among, reached, answered, near⟩
    refine ⟨entry.1, List.mem_map_of_mem among, (mem_poll_written (reads entry among)).mpr
      ⟨reached, answered, log[position], ?_, read⟩⟩
    exact (mem_newestPage distinct.of_map inside ((reads entry among).inside reached answered)).mpr near

/-- Growing heights leave no wanted position out exactly when the first height beyond it is near. -/
theorem forall_near_iff (wanted : Nat → Prop) {heights : List Nat} {start : Nat}
    (grows : (start :: heights).Pairwise (· ≤ ·)) :
    (∀ position, wanted position → start ≤ position → (∃ reached ∈ heights, position < reached) →
        ∃ reached ∈ heights, position < reached ∧ reached ≤ position + size) ↔
      (start :: heights).IsChain fun earlier later =>
        ∀ position, wanted position → earlier ≤ position → position < later →
          later ≤ position + size := by
  induction heights generalizing start with
  | nil => simp
  | cons height rest ih =>
    obtain ⟨least, growsOn⟩ := List.pairwise_cons.mp grows
    have above := (List.pairwise_cons.mp growsOn).1
    rw [List.isChain_cons_cons, ← ih growsOn]
    constructor
    · refine fun near => ⟨fun position asked behind beyond => ?_,
        fun position asked behind ahead => ?_⟩
      · obtain ⟨reached, listed, -, close⟩ := near position asked behind
          ⟨height, List.mem_cons_self, beyond⟩
        refine le_trans ?_ close
        rcases List.mem_cons.mp listed with rfl | listed
        · exact le_rfl
        · exact above reached listed
      · obtain ⟨last, listed, beyond⟩ := ahead
        have begun : start ≤ position := (least height List.mem_cons_self).trans behind
        obtain ⟨reached, among, passed, close⟩ := near position asked begun
          ⟨last, List.mem_cons_of_mem _ listed, beyond⟩
        rcases List.mem_cons.mp among with rfl | among
        · omega
        · exact ⟨reached, among, passed, close⟩
    · rintro ⟨step, near⟩ position asked behind ⟨last, listed, beyond⟩
      by_cases passed : position < height
      · exact ⟨height, List.mem_cons_self, passed, step position asked behind passed⟩
      · have further : last ∈ rest := by
          rcases List.mem_cons.mp listed with rfl | listed
          · exact absurd beyond passed
          · exact listed
        obtain ⟨reached, among, close⟩ :=
          near position asked (Nat.le_of_not_lt passed) ⟨last, further, beyond⟩
        exact ⟨reached, List.mem_cons_of_mem _ among, close⟩

/-- The transaction at a position of the log is a message. -/
def IsMessage (readers : TxReaders) (log : List BlockscoutTx) (position : Nat) : Prop :=
  ∃ inside : position < log.length, (oracleMessage readers log[position]).isSome

/-- No message is missed exactly when less than a page is posted behind it by the first answer
after it. -/
theorem none_missed_iff {polls : List (Poll × Option Nat)}
    (distinct : (log.map BlockscoutTx.hash).Nodup)
    (reads : ∀ entry ∈ polls, entry.1.Reads size log entry.2)
    (grows : (0 :: polls.filterMap Prod.snd).Pairwise (· ≤ ·)) :
    (∀ position (inside : position < log.length),
        (∃ reached ∈ polls.filterMap Prod.snd, position < reached) →
          ∀ row, oracleMessage readers log[position] = some row →
            row ∈ (pollAll crates readers (polls.map Prod.fst) .empty).messages) ↔
      (0 :: polls.filterMap Prod.snd).IsChain fun earlier later =>
        ∀ position, IsMessage readers log position → earlier ≤ position → position < later →
          later ≤ position + size := by
  have answered : ∀ position,
      (∃ entry ∈ polls, ∃ reached ∈ entry.2, position < reached ∧ reached ≤ position + size) ↔
        ∃ reached ∈ polls.filterMap Prod.snd, position < reached ∧ reached ≤ position + size := by
    intro position
    constructor
    · rintro ⟨entry, among, reached, seen, near⟩
      exact ⟨reached, List.mem_filterMap.mpr ⟨entry, among, seen⟩, near⟩
    · rintro ⟨reached, seen, near⟩
      obtain ⟨entry, among, same⟩ := List.mem_filterMap.mp seen
      exact ⟨entry, among, reached, same, near⟩
  rw [← forall_near_iff (IsMessage readers log) grows]
  constructor
  · rintro kept position ⟨inside, message⟩ _ ahead
    obtain ⟨row, read⟩ := Option.isSome_iff_exists.mp message
    exact (answered position).mp
      ((stored_iff distinct reads inside read).mp (kept position inside ahead row read))
  · intro near position inside ahead row read
    have message : IsMessage readers log position := ⟨inside, by rw [read]; rfl⟩
    exact (stored_iff distinct reads inside read).mpr
      ((answered position).mpr (near position message (Nat.zero_le _) ahead))

def sampleTx (hash status : String) (blockNumber : Int) : BlockscoutTx :=
  ⟨hash, "0x7b7d", "2026-07-29T00:41:58Z", blockNumber, some status⟩

/-- Two messages with a reverted transaction between them. -/
def sampleLog : List BlockscoutTx :=
  [sampleTx "0x7d0c254a" "ok" 0, sampleTx "0x7d0c254b" "error" 1, sampleTx "0x7d0c254c" "ok" 2]

def sampleReaders : TxReaders :=
  ⟨fun _ => some lastPayload, fun _ => some (1785286518 * nanosPerSecond)⟩

/-- A poll for one transaction, that is answered at a height of the log. -/
def samplePoll (height : Option Nat) : Poll where
  cfg := ⟨"0x5b4293b4c0f36cb5d4448950830bc777759b6c4f", "https://gnosis.blockscout.com", true, []⟩
  explorer _ := height.map fun height => newestPage 1 (sampleLog.take height)
  visit _ := ⟨.done, fun _ => none, true⟩

/-- Three polls, the second without an answer, while the log grows by two. -/
def samplePolls : List (Poll × Option Nat) :=
  [some 1, none, some 3].map fun height => (samplePoll height, height)

/-- The sample polls miss no message up to their heights exactly when each page reaches back. -/
theorem none_missed_iff_samplePolls :
    (∀ position (inside : position < sampleLog.length),
        (∃ reached ∈ samplePolls.filterMap Prod.snd, position < reached) →
          ∀ row, oracleMessage sampleReaders sampleLog[position] = some row →
            row ∈ (pollAll (.knowing [] []) sampleReaders (samplePolls.map Prod.fst)
              .empty).messages) ↔
      (0 :: samplePolls.filterMap Prod.snd).IsChain fun earlier later =>
        ∀ position, IsMessage sampleReaders sampleLog position → earlier ≤ position →
          position < later → later ≤ position + 1 := by
  refine none_missed_iff (by decide) ?_ (by decide)
  intro entry listed
  obtain ⟨height, among, rfl⟩ := List.mem_map.mp listed
  have bounded : ∀ height ∈ [some 1, none, some 3], ∀ reached ∈ height, reached ≤ sampleLog.length := by
    decide
  exact ⟨rfl, bounded height among, fun _ => rfl⟩

end Coverage

end Foghorn.Probe
