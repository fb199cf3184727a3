import Foghorn.Core.Board
import Foghorn.Probe.OraclePoll
import Foghorn.Probe.PostChunks
import Foghorn.Std.Announce
import Foghorn.Std.Collections

/-!
# Watching for silence

Two watches say when something goes quiet and when it is back: the publisher, by its newest
message, and Foghorn's own scoring, by its newest score. What each of them said last is a flag in
the database, written only when all of a message was accepted. Reading the flag, posting and
writing it can each fail.
-/

namespace Foghorn.Probe

open Foghorn.Core Foghorn.Std

/-- `alerter_flag`. -/
structure FlagRow where
  key : String
  value : String
deriving DecidableEq

abbrev FlagTable := Table FlagRow String FlagRow.key

def FlagTable.set (flags : FlagTable) (key value : String) : FlagTable :=
  flags.upsert ⟨key, value⟩ (fun old => { old with value }) fun _ same => same

def FlagTable.valueOf (flags : FlagTable) (key : String) : Option String :=
  (flags.lookup key).map FlagRow.value

/-- What becomes of one POST to the webhook. Without a response the message may have arrived. -/
inductive Reply where
  | accepted
  | rejected
  | unanswered (arrived : Bool)

/-- The loop of `post_chunks`: what arrives, and what it returns; nothing is an error. -/
def postEach (reply : Nat → Reply) : Nat → List String → List String × Option Bool
  | _, [] => ([], some true)
  | index, message :: rest =>
    match reply index with
    | .unanswered arrived => (if arrived then [message] else [], none)
    | .rejected => ([], some false)
    | .accepted =>
      let later := postEach reply (index + 1) rest
      (message :: later.1, later.2)

def postChunks (reply : Nat → Reply) (content : String) : List String × Option Bool :=
  postEach reply 0 (postMessages content)

/-- What becomes of a content that is posted, where what was said is then written down. -/
def deliveryOf (reply : Nat → Reply) (writes : Bool) (content : String) : Receipt :=
  let posted := postChunks reply content
  if posted.2 = some true then if writes then .recorded else .unrecorded
  else if posted.1 = [] then .refused else .unrecorded

/-- What a watch meets in a look. -/
structure WatchLook where
  /-- The time, in nanoseconds. -/
  now : Int
  /-- Whether the flag can be read. -/
  reads : Bool
  reply : Nat → Reply
  /-- Whether the flag can be written. -/
  writes : Bool

def WatchLook.delivery (look : WatchLook) (content : String) : Receipt :=
  deliveryOf look.reply look.writes content

/-- What is found in a look, and what there is to say of it. -/
structure StallReport where
  now : Int
  newest : Int
  stalled : Bool
  content : String
deriving DecidableEq

structure Announcement where
  key : String
  report : StallReport
  arrived : List String
  delivery : Receipt
deriving DecidableEq

/-- Seconds since a stored time, `num_seconds`. -/
def ageOf (now newest : Int) : Int := (now - newest * 1000).tdiv nanosPerSecond

/-- How a time and a number of hours are written. -/
structure TimeTexts where
  rfc3339 : Int → String
  /-- Seconds, in hours with one decimal. -/
  hours : Int → String

def stateName (stalled : Bool) : String := if stalled then "stalled" else "live"

/-- The end of both watches: post, and write the flag if all of it was accepted. -/
def announce (key : String) (report : StallReport) (look : WatchLook) (flags : FlagTable) :
    FlagTable × Option Announcement :=
  let posted := postChunks look.reply report.content
  let said : Announcement := ⟨key, report, posted.1, look.delivery report.content⟩
  if posted.2 ≠ some true then (flags, some said)
  else if look.writes then (flags.set key (stateName report.stalled), some said)
  else (flags, some said)

def oracleKey : String := "oracle_stall"

def scoreKey : String := "score_stall"

/-- `STALL_SECS`. -/
def stallSecs : Int := 90 * 60

/-- `SCORE_STALE_SECS`. -/
def scoreStaleSecs : Int := 3600

/-- A look at the publisher. Among messages of one time the database may return any first. -/
structure OracleLook extends WatchLook where
  /-- Whether the messages can be read. -/
  queries : Bool
  bucketOrder : IterOrder OracleMessage
  lagOrder : IterOrder OracleMessage

/-- `ORDER BY posted_at DESC LIMIT 1`. -/
def newestMessage (order : IterOrder OracleMessage) (messages : List OracleMessage) :
    Option OracleMessage :=
  ((order.arrange messages).mergeSort fun a b => b.postedAt ≤ a.postedAt).head?

def oracleStallText (texts : TimeTexts) (posted age : Int) (bucket lag : Option Int) : String :=
  "**Canonical QoS oracle has stopped publishing**\n" ++
  "Last DataEdge post: `" ++ texts.rfc3339 posted ++ "` (" ++ texts.hours age ++ "h ago)\n" ++
  "Last bucket published: `" ++ (bucket.map texts.rfc3339).getD "unknown" ++ "`\n" ++
  "Publish lag at the time: `" ++ (lag.map fun l => (l.tdiv 60).repr ++ "m").getD "unknown" ++
  "`\nRead from Gnosis directly, not from the subgraph — a stale subgraph answers exactly " ++
  "like a fresh one.\nCanonical history and Lodestar's own measurements remain queryable: " ++
  "<https://www.lodestar-dashboard.com/qos>"

def oracleLiveText (texts : TimeTexts) (posted age : Int) : String :=
  "**Canonical QoS oracle is publishing again**\nLatest post: `" ++ texts.rfc3339 posted ++
  "` (" ++ (age.tdiv 60).repr ++ "m ago). Worth checking whether it backfilled the gap or resumed " ++
  "from tip — a resumed-from-tip publisher leaves a permanent hole that looks like " ++
  "complete data."

/-- What is read of the messages. Without any the poller has not run. -/
def oracleReport (texts : TimeTexts) (look : OracleLook) (messages : List OracleMessage) :
    Option StallReport :=
  if look.queries then
    (messages.map OracleMessage.postedAt).max?.map fun posted =>
      let age := ageOf look.now posted
      { now := look.now
        newest := posted
        stalled := stallSecs ≤ age
        content :=
          if stallSecs ≤ age then
            oracleStallText texts posted age
              ((newestMessage look.bucketOrder messages).map OracleMessage.bucketTs)
              ((newestMessage look.lagOrder messages).map OracleMessage.lagSeconds)
          else oracleLiveText texts posted age }
  else none

/-- `alert_oracle_stall`. A flag that cannot be read counts as not stalled. -/
def alertOracleStall (texts : TimeTexts) (look : OracleLook) (messages : List OracleMessage)
    (flags : FlagTable) : FlagTable × Option Announcement :=
  match oracleReport texts look messages with
  | none => (flags, none)
  | some report =>
    let wasStalled : Bool := look.reads ∧ flags.valueOf oracleKey = some "stalled"
    if report.stalled = wasStalled then (flags, none)
    else announce oracleKey report look.toWatchLook flags

def scoreStallText (texts : TimeTexts) (newest age : Int) : String :=
  "**Lodestar Oracle scoring has stopped**\nNewest grade computed: `" ++ texts.rfc3339 newest ++
  "` (" ++ texts.hours age ++ "h ago).\nThe grade board at " ++
  "<https://www.lodestar-dashboard.com/qos> is showing numbers nobody " ++
  "has recomputed since then. Every indexer is keeping whatever letter it last had.\n" ++
  "Check `Scoring cycle failed` in the probe logs — the loop keeps running when the work " ++
  "inside it fails, so the process looking healthy means nothing here."

def scoreLiveText (texts : TimeTexts) (newest age : Int) : String :=
  "**Lodestar Oracle scoring is running again**\nNewest grade computed: `" ++
  texts.rfc3339 newest ++ "` (" ++ (age.tdiv 60).repr ++ "m ago)."

/-- What is read of the scores; a failed query reads none. -/
def scoreReport (texts : TimeTexts) (look : WatchLook) (scores : List ScoreRow) :
    Option StallReport :=
  (scores.map ScoreRow.computedAt).max?.map fun newest =>
    let age := ageOf look.now newest
    { now := look.now
      newest := newest
      stalled := scoreStaleSecs < age
      content :=
        if scoreStaleSecs < age then scoreStallText texts newest age
        else scoreLiveText texts newest age }

/-- `alert_score_stall`. A flag that cannot be read counts as absent, and a recovery without a
flag is written down and not said. -/
def alertScoreStall (texts : TimeTexts) (look : WatchLook) (scores : List ScoreRow)
    (flags : FlagTable) : FlagTable × Option Announcement :=
  match scoreReport texts look scores with
  | none => (flags, none)
  | some report =>
    let previous := if look.reads then flags.valueOf scoreKey else none
    if previous = some (stateName report.stalled) then (flags, none)
    else if !report.stalled ∧ previous = none then
      (if look.writes then flags.set scoreKey "live" else flags, none)
    else announce scoreKey report look flags

/-- What both watches share, and what they read. -/
structure WatchState where
  store : OracleStore
  scores : List ScoreRow
  flags : FlagTable

/-- The loops that touch it, each one step at a time. -/
inductive WatchEvent where
  | poll (poll : Poll)
  /-- Whatever a scoring cycle leaves. -/
  | scored (scores : List ScoreRow)
  | oracle (look : OracleLook)
  /-- A look at the scores, with whether they can be read. -/
  | score (queries : Bool) (look : WatchLook)

section Run

variable (crates : Crates) (readers : TxReaders) (texts : TimeTexts)

def watchStep (state : WatchState) : WatchEvent → WatchState × Option Announcement
  | .poll poll => ({ state with store := (pollOnce crates readers poll state.store).1 }, none)
  | .scored scores => ({ state with scores }, none)
  | .oracle look =>
    let result := alertOracleStall texts look state.store.messages.rows state.flags
    ({ state with flags := result.1 }, result.2)
  | .score queries look =>
    let result := alertScoreStall texts look (if queries then state.scores else []) state.flags
    ({ state with flags := result.1 }, result.2)

/-- A run of the loops, with what the watches say in it. -/
def watchRun (state : WatchState) : List WatchEvent → WatchState × List Announcement
  | [] => (state, [])
  | event :: rest =>
    let result := watchStep crates readers texts state event
    let later := watchRun result.1 rest
    (later.1, result.2.toList ++ later.2)

end Run

section Looks

/-- How old the newest may be, in whole seconds, before a watch says so. -/
def limitOf (key : String) : Int := if key = oracleKey then stallSecs else scoreStaleSecs + 1

def FlagTable.isStalled (flags : FlagTable) (key : String) : Bool := flags.valueOf key = some "stalled"

/-- The flags are written by the watches alone. -/
def FlagTable.Tidy (flags : FlagTable) : Prop :=
  ∀ key value, flags.valueOf key = some value → value = "stalled" ∨ value = "live"

/-- What is said goes by the age of the newest. -/
def Announcement.Dated (said : Announcement) : Prop :=
  said.report.stalled = decide (limitOf said.key ≤ ageOf said.report.now said.report.newest)

/-- What a step can do to the flags, and what it says. -/
structure Honest (before after : FlagTable) (said : Option Announcement) : Prop where
  dated : ∀ a ∈ said, a.Dated
  recovery : ∀ a ∈ said, a.report.stalled = false → before.isStalled a.key
  marked : ∀ key, after.isStalled key → before.isStalled key ∨
    ∃ a ∈ said, a.key = key ∧ a.delivery = .recorded ∧ a.report.stalled
  written : ∀ a ∈ said, a.delivery = .recorded → after.isStalled a.key = a.report.stalled
  tidy : after.Tidy

variable {texts : TimeTexts} {flags : FlagTable} {key : String} {report : StallReport} {look : WatchLook}

private theorem valueOf_set (flags : FlagTable) (key value other : String) :
    (flags.set key value).valueOf other =
      if other = key then some value else flags.valueOf other := by
  rw [FlagTable.valueOf, FlagTable.set, Table.lookup_upsert]
  split
  · cases flags.lookup other <;> rfl
  · rfl

private theorem tidy_empty :
    FlagTable.Tidy Table.empty := by simp [FlagTable.Tidy, FlagTable.valueOf]

private theorem isStalled_empty (key : String) : FlagTable.isStalled Table.empty key = false := by
  simp [FlagTable.isStalled, FlagTable.valueOf]

private theorem isStalled_set (flags : FlagTable) (key other : String) (stalled : Bool) :
    (flags.set key (stateName stalled)).isStalled other =
      if other = key then stalled else flags.isStalled other := by
  rw [FlagTable.isStalled, valueOf_set]
  split
  · cases stalled <;> rfl
  · rfl

private theorem tidy_set (tidy : flags.Tidy) (key : String) (stalled : Bool) :
    (flags.set key (stateName stalled)).Tidy := by
  intro other value found
  rw [valueOf_set] at found
  split at found
  · rw [← Option.some.inj found]
    cases stalled
    · exact .inr rfl
    · exact .inl rfl
  · exact tidy other value found

/-- A delivery is recorded when every message was accepted and the flag could be written. -/
theorem deliveryOf_eq_recorded_iff {reply : Nat → Reply} {writes : Bool} {content : String} :
    deliveryOf reply writes content = .recorded ↔
      (postChunks reply content).2 = some true ∧ writes := by
  rw [deliveryOf]
  by_cases accepted : (postChunks reply content).2 = some true
  · cases writes <;> simp [accepted]
  · by_cases none : (postChunks reply content).1 = [] <;> simp [accepted, none]

private theorem delivery_eq_recorded_iff {content : String} : look.delivery content = .recorded ↔
    (postChunks look.reply content).2 = some true ∧ look.writes :=
  deliveryOf_eq_recorded_iff

/-- What was said, and that the flag says it too if the message counts. -/
theorem announce_eq : announce key report look flags =
    (if look.delivery report.content = .recorded then flags.set key (stateName report.stalled)
      else flags,
    some ⟨key, report, (postChunks look.reply report.content).1, look.delivery report.content⟩) := by
  rw [announce]
  by_cases accepted : (postChunks look.reply report.content).2 = some true
  · cases writes : look.writes <;> simp [delivery_eq_recorded_iff, accepted, writes]
  · simp [delivery_eq_recorded_iff, accepted]

private theorem postEach_accepted {reply : Nat → Reply} (accepts : ∀ index, reply index = .accepted)
    (index : Nat) (messages : List String) :
    postEach reply index messages = (messages, some true) := by
  induction messages generalizing index with
  | nil => rfl
  | cons message rest ih => rw [postEach, accepts, ih]

/-- A webhook that accepts everything gets the delivery recorded. -/
theorem deliveryOf_accepted {reply : Nat → Reply} (accepts : ∀ index, reply index = .accepted)
    (content : String) : deliveryOf reply true content = .recorded := by
  have posted : postChunks reply content = (postMessages content, some true) :=
    postEach_accepted accepts 0 _
  rw [deliveryOf_eq_recorded_iff, posted]
  exact ⟨rfl, rfl⟩

/-- An accepted announcement sets the flag and is recorded. -/
theorem announce_of_accepted (accepts : ∀ index, look.reply index = .accepted)
    (writes : look.writes) : announce key report look flags =
      (flags.set key (stateName report.stalled),
        some ⟨key, report, postMessages report.content, .recorded⟩) := by
  have posted : postChunks look.reply report.content = (postMessages report.content, some true) :=
    postEach_accepted accepts 0 _
  have recorded : look.delivery report.content = .recorded := by
    rw [WatchLook.delivery, writes, deliveryOf_accepted accepts]
  rw [announce_eq, posted, recorded, if_pos rfl]

private theorem honest_none (tidy : flags.Tidy) : Honest flags flags none where
  dated := by simp
  recovery := by simp
  marked _ := .inl
  written := by simp
  tidy := tidy

/-- An announcement of a dated report is honest. -/
theorem honest_announce (tidy : flags.Tidy)
    (dated : report.stalled = decide (limitOf key ≤ ageOf report.now report.newest))
    (recovery : report.stalled = false → flags.isStalled key) :
    Honest flags (announce key report look flags).1 (announce key report look flags).2 := by
  rw [announce_eq]
  refine ⟨?_, ?_, fun other stalled => ?_, ?_, ?_⟩
  · rintro a ⟨⟩
    exact dated
  · rintro a ⟨⟩
    exact recovery
  · dsimp only at stalled
    split at stalled
    · rename_i recorded
      rw [isStalled_set] at stalled
      split at stalled
      · rename_i same
        exact .inr ⟨_, rfl, same.symm, recorded, stalled⟩
      · exact .inl stalled
    · exact .inl stalled
  · rintro a ⟨⟩ recorded
    dsimp only at recorded ⊢
    rw [if_pos recorded, isStalled_set, if_pos rfl]
  · dsimp only
    split
    · exact tidy_set tidy key report.stalled
    · exact tidy

/-- The oracle's report says stalled exactly when its newest message has reached the limit. -/
theorem oracleReport_dated {look : OracleLook} {messages : List OracleMessage}
    (read : oracleReport texts look messages = some report) :
    report.stalled = decide (limitOf oracleKey ≤ ageOf report.now report.newest) := by
  rw [oracleReport] at read
  split at read
  · obtain ⟨posted, -, rfl⟩ := Option.map_eq_some_iff.mp read
    rfl
  · cases read

/-- The score's report says stalled exactly when its newest score has reached the limit. -/
theorem scoreReport_dated {scores : List ScoreRow}
    (read : scoreReport texts look scores = some report) :
    report.stalled = decide (limitOf scoreKey ≤ ageOf report.now report.newest) := by
  obtain ⟨newest, -, rfl⟩ := Option.map_eq_some_iff.mp read
  have limit : limitOf scoreKey = scoreStaleSecs + 1 := by decide
  rw [limit]
  exact decide_eq_decide.mpr Int.add_one_le_iff.symm

private theorem honest_alertOracleStall {look : OracleLook} {messages : List OracleMessage}
    (tidy : flags.Tidy) : Honest flags (alertOracleStall texts look messages flags).1
      (alertOracleStall texts look messages flags).2 := by
  rw [alertOracleStall]
  split
  · exact honest_none tidy
  · rename_i report read
    dsimp only
    split
    · exact honest_none tidy
    · rename_i changed
      refine honest_announce tidy (oracleReport_dated read) fun live => ?_
      rw [live] at changed
      have was : (look.reads ∧ flags.valueOf oracleKey = some "stalled") := by
        by_contra not
        exact changed (decide_eq_false not).symm
      exact decide_eq_true was.2

private theorem honest_alertScoreStall {scores : List ScoreRow} (tidy : flags.Tidy) :
    Honest flags (alertScoreStall texts look scores flags).1
      (alertScoreStall texts look scores flags).2 := by
  rw [alertScoreStall]
  split
  · exact honest_none tidy
  · rename_i report read
    dsimp only
    generalize recalled : (if look.reads then flags.valueOf scoreKey else none) = previous
    split
    · exact honest_none tidy
    · rename_i changed
      split
      · -- The flag is written without a word; it says that all is well.
        have live := isStalled_set flags scoreKey
        refine ⟨by simp, by simp, fun key stalled => .inl ?_, by simp, ?_⟩
        · dsimp only at stalled
          split at stalled
          · rw [← show stateName false = "live" from rfl, live] at stalled
            split at stalled
            · cases stalled
            · exact stalled
          · exact stalled
        · dsimp only
          split
          · exact tidy_set tidy scoreKey false
          · exact tidy
      · rename_i known
        refine honest_announce tidy (scoreReport_dated read) fun live => ?_
        rw [live] at changed known
        cases previous with
        | none => exact absurd ⟨rfl, rfl⟩ known
        | some text =>
          have value : flags.valueOf scoreKey = some text := by
            split at recalled
            · exact recalled
            · cases recalled
          rcases tidy scoreKey text value with rfl | rfl
          · exact decide_eq_true value
          · exact absurd rfl changed

end Looks

section Recovery

variable {crates : Crates} {readers : TxReaders} {texts : TimeTexts} {state next : WatchState}
  {said : List Announcement}

/-- What a watch said last and wrote down. -/
def lastRecorded (key : String) (said : List Announcement) : Option Announcement :=
  (said.filter fun a => a.key = key ∧ a.delivery = .recorded).getLast?

private theorem lastRecorded_concat (key : String) (said : List Announcement) (a : Announcement) :
    lastRecorded key (said ++ [a]) =
      if a.key = key ∧ a.delivery = .recorded then some a else lastRecorded key said := by
  by_cases counts : a.key = key ∧ a.delivery = .recorded <;>
    simp [lastRecorded, List.filter_append, counts]

private theorem mem_of_lastRecorded {key : String} {a : Announcement}
    (last : a ∈ lastRecorded key said) :
    a ∈ said ∧ a.key = key := by
  have kept := List.mem_filter.mp (List.mem_of_getLast? last)
  exact ⟨kept.1, (of_decide_eq_true kept.2).1⟩

/-- What every step keeps: a flag that says stalled, and a message that says recovered, each have
a message that said stalled behind them. -/
structure Backed (flags : FlagTable) (said : List Announcement) : Prop where
  tidy : flags.Tidy
  dated : ∀ a ∈ said, a.Dated
  marked : ∀ key, flags.isStalled key → ∃ stall ∈ lastRecorded key said, stall.report.stalled
  recovery : ∀ earlier a, earlier ++ [a] <+: said → a.report.stalled = false →
    ∃ stall ∈ lastRecorded a.key earlier, stall.report.stalled

/-- An honest announcement keeps the flags backed by what was recorded. -/
theorem backed_step {before after : FlagTable} {new : Option Announcement}
    (backed : Backed before said) (honest : Honest before after new) :
    Backed after (said ++ new.toList) := by
  cases new with
  | none =>
    rw [Option.toList_none, List.append_nil]
    refine ⟨honest.tidy, backed.dated, fun key stalled => ?_, backed.recovery⟩
    rcases honest.marked key stalled with was | ⟨a, absurd, -⟩
    · exact backed.marked key was
    · cases absurd
  | some a =>
    rw [Option.toList_some]
    refine ⟨honest.tidy, fun other member => ?_, fun key stalled => ?_,
      fun earlier other listed live => ?_⟩
    · rcases List.mem_append.mp member with old | new
      · exact backed.dated other old
      · exact List.mem_singleton.mp new ▸ honest.dated a rfl
    · rw [lastRecorded_concat]
      by_cases counts : a.key = key ∧ a.delivery = .recorded
      · rw [if_pos counts]
        exact ⟨a, rfl, honest.written a rfl counts.2 ▸ counts.1.symm ▸ stalled⟩
      · rw [if_neg counts]
        rcases honest.marked key stalled with was | ⟨other, same, keyed, recorded, -⟩
        · exact backed.marked key was
        · obtain rfl := Option.some.inj same
          exact absurd ⟨keyed, recorded⟩ counts
    · rcases List.prefix_concat_iff.mp listed with same | old
      · obtain ⟨rfl, rfl⟩ := List.append_singleton_inj.mp same
        exact backed.marked _ (honest.recovery _ rfl live)
      · exact backed.recovery earlier other old live

/-- What a step of the watches says is honest. -/
theorem honest_watchStep (tidy : state.flags.Tidy) (event : WatchEvent) :
    Honest state.flags (watchStep crates readers texts state event).1.flags
      (watchStep crates readers texts state event).2 := by
  cases event with
  | poll poll => exact honest_none tidy
  | scored scores => exact honest_none tidy
  | oracle look => exact honest_alertOracleStall tidy
  | score queries look => exact honest_alertScoreStall tidy

variable (crates readers texts) in
/-- Over a run of the watches the flags stay backed by what was recorded. -/
theorem backed_watchRun (state : WatchState) {before : List Announcement}
    (backed : Backed state.flags before) (events : List WatchEvent) :
    Backed (watchRun crates readers texts state events).1.flags
      (before ++ (watchRun crates readers texts state events).2) := by
  induction events generalizing state before with
  | nil => rwa [watchRun, List.append_nil]
  | cons event rest ih =>
    rw [watchRun, ← List.append_assoc]
    exact ih _ (backed_step backed (honest_watchStep backed.tidy event))

/-- The time of a look. -/
def WatchEvent.time : WatchEvent → Option Int
  | .poll _ => none
  | .scored _ => none
  | .oracle look => some look.now
  | .score _ look => some look.now

private theorem now_of_watchStep {event : WatchEvent} {a : Announcement}
    (said : a ∈ (watchStep crates readers texts state event).2) : event.time = some a.report.now := by
  cases event with
  | poll poll => cases said
  | scored scores => cases said
  | oracle look =>
    rw [watchStep, alertOracleStall] at said
    split at said
    · cases said
    · rename_i report read
      dsimp only at said
      split at said
      · cases said
      · rw [announce_eq] at said
        obtain rfl := Option.some.inj said
        rw [oracleReport] at read
        split at read
        · obtain ⟨posted, -, rfl⟩ := Option.map_eq_some_iff.mp read
          rfl
        · cases read
  | score queries look =>
    rw [watchStep, alertScoreStall] at said
    split at said
    · cases said
    · rename_i report read
      dsimp only at said
      generalize (if look.reads then state.flags.valueOf scoreKey else none) = previous at said
      split at said
      · cases said
      · split at said
        · cases said
        · rw [announce_eq] at said
          obtain rfl := Option.some.inj said
          obtain ⟨newest, -, rfl⟩ := Option.map_eq_some_iff.mp read
          rfl

variable (crates readers texts) in
private theorem now_sublist (state : WatchState) (events : List WatchEvent) :
    ((watchRun crates readers texts state events).2.map fun a => a.report.now).Sublist
      (events.filterMap WatchEvent.time) := by
  induction events generalizing state with
  | nil => exact List.Sublist.refl _
  | cons event rest ih =>
    rw [watchRun, List.map_append, List.filterMap_cons]
    cases new : (watchStep crates readers texts state event).2 with
    | none =>
      have later := ih (watchStep crates readers texts state event).1
      cases event.time with
      | none => exact later
      | some now => exact later.cons now
    | some a =>
      rw [now_of_watchStep new]
      exact (ih _).cons_cons a.report.now

private theorem le_tdiv_iff {bound value unit : Int} (positive : 0 < bound)
    (unitPositive : 0 < unit) :
    bound ≤ value.tdiv unit ↔ bound * unit ≤ value := by
  rcases Int.le_total 0 value with pos | neg
  · rw [Int.tdiv_eq_ediv_of_nonneg pos, Int.le_ediv_iff_mul_le unitPositive]
  · have opposite := Int.tdiv_nonneg (Int.neg_nonneg_of_nonpos neg) unitPositive.le
    rw [Int.neg_tdiv] at opposite
    have product := Int.mul_pos positive unitPositive
    omega

/-- Between a message of a stall and one of a recovery something newer came. -/
theorem newest_lt {stall recovery : Announcement} (same : stall.key = recovery.key)
    (first : stall.Dated) (second : recovery.Dated) (stalled : stall.report.stalled)
    (live : recovery.report.stalled = false) (later : stall.report.now ≤ recovery.report.now) :
    stall.report.newest < recovery.report.newest := by
  have positive : 0 < limitOf recovery.key := by
    rw [limitOf]
    split <;> decide
  have unit : 0 < nanosPerSecond := by decide
  rw [Announcement.Dated, stalled, same] at first
  rw [Announcement.Dated, live] at second
  have old := of_decide_eq_true first.symm
  have young := of_decide_eq_false second.symm
  rw [ageOf, le_tdiv_iff positive unit] at old young
  omega

/-- Whatever fails, a recovery is told of only after a stall that was told of and written down,
with no recovery written down between the two, and it names something newer. -/
theorem recovery_follows_stall {store : OracleStore} {scores : List ScoreRow}
    {events : List WatchEvent} {earlier later : List Announcement} {a : Announcement}
    (clock : (events.filterMap WatchEvent.time).Pairwise (· ≤ ·))
    (said : (watchRun crates readers texts ⟨store, scores, Table.empty⟩ events).2 =
      earlier ++ a :: later)
    (live : a.report.stalled = false) :
    ∃ stall ∈ lastRecorded a.key earlier, stall.report.stalled ∧
      stall.report.newest < a.report.newest := by
  have start : Backed (Table.empty : FlagTable) [] :=
    ⟨tidy_empty, by simp, by simp [isStalled_empty], by simp⟩
  have backed := backed_watchRun crates readers texts ⟨store, scores, Table.empty⟩ start events
  have listed : earlier ++ [a] <+: earlier ++ a :: later := ⟨later, by simp⟩
  rw [List.nil_append, said] at backed
  obtain ⟨stall, last, stalled⟩ := backed.recovery earlier a listed live
  obtain ⟨before, keyed⟩ := mem_of_lastRecorded last
  have times := clock.sublist (now_sublist crates readers texts ⟨store, scores, Table.empty⟩ events)
  rw [said, List.map_append, List.map_cons, List.pairwise_append] at times
  have ordered := times.2.2 _ (List.mem_map_of_mem before) _ List.mem_cons_self
  refine ⟨stall, last, stalled, newest_lt keyed (backed.dated stall ?_) (backed.dated a ?_)
    stalled live ordered⟩
  · exact List.mem_append_left _ before
  · exact List.mem_append_right _ List.mem_cons_self

def plainTexts : TimeTexts := ⟨fun _ => "", fun _ => ""⟩

/-- A look that finds the messages, and a webhook that accepts. -/
def plainLook (seconds : Int) : OracleLook where
  now := seconds * nanosPerSecond
  reads := true
  reply _ := .accepted
  writes := true
  queries := true
  bucketOrder := .asInserted
  lagOrder := .asInserted

/-- Two messages, four hours apart, and the explorer that lists the later one. -/
def gapReaders : TxReaders where
  payload _ := some lastPayload
  time text := some ((if text = "2026-07-29T00:41:58Z" then 1785286518 else 1785300918) * nanosPerSecond)

def onlyPoll (tx : BlockscoutTx) : Poll := { samplePoll none with explorer _ := some [tx] }

def laterTx : BlockscoutTx :=
  { sampleTx "0x00" "ok" 0 with timestamp := "2026-07-29T04:41:58Z" }

def gapEvents : List WatchEvent :=
  [.poll (onlyPoll (sampleTx "0x7d0c254a" "ok" 0)), .oracle (plainLook 1785291918),
    .poll (onlyPoll laterTx), .oracle (plainLook 1785301000)]

def gapSaid : List Announcement :=
  (watchRun (.knowing [] []) gapReaders plainTexts ⟨.empty, [], Table.empty⟩ gapEvents).2

private theorem gapSaid_eq : gapSaid.map (fun a => a.report.stalled) = [true, false] := by
  have accepted (seconds : Int) (report : StallReport) (flags : FlagTable) :
      announce oracleKey report (plainLook seconds).toWatchLook flags = _ :=
    announce_of_accepted (fun _ => rfl) rfl
  simp only [gapSaid, gapEvents, watchRun, watchStep, alertOracleStall, accepted]
  decide

/-- In the gap's announcements the recovery names an item newer than the stall named. -/
theorem recovery_follows_stall_gap : ∃ earlier a later, gapSaid = earlier ++ a :: later ∧
    ∃ stall ∈ lastRecorded a.key earlier, stall.report.stalled ∧
      stall.report.newest < a.report.newest := by
  obtain ⟨stall, rest, said, -, tail⟩ := List.map_eq_cons_iff.mp gapSaid_eq
  obtain ⟨recovery, rest, rfl, live, -⟩ := List.map_eq_cons_iff.mp tail
  exact ⟨[stall], recovery, rest, said,
    recovery_follows_stall (by decide) said live⟩

end Recovery

section Changes

/-- A watch whose flag can be read, over the reports that it comes to. -/
def watchAnnouncer : Announcer (StallReport × WatchLook) Bool where
  seen look := look.1.stalled
  due _ := false
  delivery look := look.2.delivery look.1.content

variable (crates : Crates) (readers : TxReaders) (texts : TimeTexts)

/-- What the watch of a flag finds in a step. -/
def lookOf (key : String) (state : WatchState) : WatchEvent → Option (StallReport × WatchLook)
  | .poll _ => none
  | .scored _ => none
  | .oracle look =>
    if key = oracleKey then
      (oracleReport texts look state.store.messages.rows).map fun report => (report, look.toWatchLook)
    else none
  | .score queries look =>
    if key = scoreKey then
      (scoreReport texts look (if queries then state.scores else [])).map fun report => (report, look)
    else none

/-- What it finds in a run. -/
def looksOf (key : String) (state : WatchState) : List WatchEvent → List (StallReport × WatchLook)
  | [] => []
  | event :: rest => (lookOf texts key state event).toList ++
      looksOf key (watchStep crates readers texts state event).1 rest

variable {crates readers texts} {key : String} {flags : FlagTable} {report : StallReport}
  {look : WatchLook}

/-- The reports of a watch whose message arrived, in part at least. -/
def toldOf (key : String) (said : List Announcement) : List StallReport :=
  (said.filter fun a => a.key = key ∧ a.delivery ≠ .refused).map Announcement.report

private theorem toldOf_append (key : String) (first second : List Announcement) :
    toldOf key (first ++ second) = toldOf key first ++ toldOf key second := by
  rw [toldOf, List.filter_append, List.map_append]
  rfl

/-- A step does to a flag, and says, what the announcer does of what is found. -/
structure Mirrors (key : String) (before after : FlagTable) (said : Option Announcement)
    (look : Option (StallReport × WatchLook)) : Prop where
  told : after.isStalled key = watchAnnouncer.after (before.isStalled key) look.toList
  sent : toldOf key said.toList =
    (watchAnnouncer.sent (before.isStalled key) look.toList).map Prod.fst

private theorem mirrors_none : Mirrors key flags flags none none := ⟨rfl, rfl⟩

/-- A step about another flag. -/
theorem mirrors_other {other : String} {before after : FlagTable} {said : Option Announcement}
    (differs : key ≠ other) (keyed : ∀ a ∈ said, a.key = other)
    (kept : after.isStalled key = before.isStalled key) : Mirrors key before after said none := by
  refine ⟨kept, ?_⟩
  cases said with
  | none => rfl
  | some a =>
    have miss : ¬ a.key = key := fun same => differs (same.symm.trans (keyed a rfl))
    simp [toldOf, miss, Announcer.sent]

variable (look) in
private theorem mirrors_quiet (same : report.stalled = flags.isStalled key) :
    Mirrors key flags flags none (some (report, look)) := by
  have silent : watchAnnouncer.speaks (flags.isStalled key) (report, look) = false := by
    simp [Announcer.speaks, watchAnnouncer, same]
  constructor
  · rw [Option.toList_some, Announcer.after, List.foldl_cons, List.foldl_nil, Announcer.next, silent]
    simp
  · rw [Option.toList_some, Announcer.sent, silent]
    simp [toldOf, Announcer.sent]

private theorem mirrors_announce (changed : report.stalled ≠ flags.isStalled key) :
    Mirrors key flags (announce key report look flags).1 (announce key report look flags).2
      (some (report, look)) := by
  have spoken : watchAnnouncer.speaks (flags.isStalled key) (report, look) = true := by
    simp [Announcer.speaks, watchAnnouncer, changed]
  have met : watchAnnouncer.delivery (report, look) = look.delivery report.content := rfl
  rw [announce_eq]
  constructor
  · rw [Option.toList_some, Announcer.after, List.foldl_cons, List.foldl_nil, Announcer.next, spoken,
      met]
    by_cases recorded : look.delivery report.content = .recorded
    · simp [recorded, isStalled_set, watchAnnouncer]
    · simp [recorded]
  · simp only [Option.toList_some]
    rw [Announcer.sent, spoken, met]
    by_cases refused : look.delivery report.content = .refused <;>
      simp [toldOf, refused, Announcer.sent]

private theorem key_of_announce {a : Announcement} (said : a ∈ (announce key report look flags).2) :
    a.key = key := by
  rw [announce_eq] at said
  rw [← Option.some.inj said]

private theorem isStalled_announce {other : String} (differs : other ≠ key) :
    (announce key report look flags).1.isStalled other = flags.isStalled other := by
  rw [announce_eq]
  dsimp only
  split
  · rw [isStalled_set, if_neg differs]
  · rfl

private theorem mirrors_alertOracleStall {look : OracleLook} {messages : List OracleMessage}
    (readable : (oracleReport texts look messages).isSome → look.reads) :
    Mirrors oracleKey flags (alertOracleStall texts look messages flags).1
      (alertOracleStall texts look messages flags).2
      ((oracleReport texts look messages).map fun report => (report, look.toWatchLook)) := by
  rw [alertOracleStall]
  cases read : oracleReport texts look messages with
  | none => exact mirrors_none
  | some report =>
    have reads : look.reads := readable (by rw [read]; rfl)
    have was : decide (look.reads ∧ flags.valueOf oracleKey = some "stalled") =
        flags.isStalled oracleKey := by
      rw [FlagTable.isStalled, reads]
      simp
    dsimp only [Option.map_some]
    rw [was]
    split
    · exact mirrors_quiet _ ‹_›
    · exact mirrors_announce ‹_›

private theorem mirrors_alertScoreStall {scores : List ScoreRow} (tidy : flags.Tidy)
    (readable : (scoreReport texts look scores).isSome → look.reads) :
    Mirrors scoreKey flags (alertScoreStall texts look scores flags).1
      (alertScoreStall texts look scores flags).2
      ((scoreReport texts look scores).map fun report => (report, look)) := by
  rw [alertScoreStall]
  cases read : scoreReport texts look scores with
  | none => exact mirrors_none
  | some report =>
    have reads : look.reads := readable (by rw [read]; rfl)
    dsimp only [Option.map_some]
    rw [if_pos reads]
    cases value : flags.valueOf scoreKey with
    | none =>
      have was : flags.isStalled scoreKey = false := by simp [FlagTable.isStalled, value]
      rw [if_neg (by simp)]
      split
      · -- Nothing is said, and the flag says what it meant before.
        rename_i fresh
        have live : report.stalled = flags.isStalled scoreKey := by
          rw [was]
          simpa using fresh.1
        have quiet := mirrors_quiet look live
        refine ⟨?_, quiet.sent⟩
        rw [← quiet.told, was]
        split
        · exact (isStalled_set flags scoreKey scoreKey false).trans (if_pos rfl)
        · exact was
      · rename_i known
        refine mirrors_announce ?_
        rw [was]
        simpa using known
    | some text =>
      have was : flags.isStalled scoreKey = decide (text = "stalled") := by
        simp [FlagTable.isStalled, value]
      have same : some text = some (stateName report.stalled) ↔
          report.stalled = flags.isStalled scoreKey := by
        rw [was]
        rcases tidy scoreKey text value with rfl | rfl <;> cases report.stalled <;> decide
      rw [if_neg (by simp : ¬ ((!report.stalled) = true ∧ some text = none))]
      split
      · rename_i unchanged
        exact mirrors_quiet look (same.mp unchanged)
      · rename_i changed
        exact mirrors_announce fun unchanged => changed (same.mpr unchanged)

private theorem keyed_alertScoreStall {scores : List ScoreRow} :
    (∀ a ∈ (alertScoreStall texts look scores flags).2, a.key = scoreKey) ∧
      (alertScoreStall texts look scores flags).1.isStalled oracleKey = flags.isStalled oracleKey := by
  have differs : oracleKey ≠ scoreKey := by decide
  rw [alertScoreStall]
  split
  · exact ⟨by simp, rfl⟩
  · dsimp only
    generalize (if look.reads then flags.valueOf scoreKey else none) = previous
    split
    · exact ⟨by simp, rfl⟩
    · split
      · refine ⟨by simp, ?_⟩
        dsimp only
        split
        · exact (isStalled_set flags scoreKey oracleKey false).trans (if_neg differs)
        · rfl
      · exact ⟨fun a => key_of_announce, isStalled_announce differs⟩

private theorem keyed_alertOracleStall {look : OracleLook} {messages : List OracleMessage} :
    (∀ a ∈ (alertOracleStall texts look messages flags).2, a.key = oracleKey) ∧
      (alertOracleStall texts look messages flags).1.isStalled scoreKey = flags.isStalled scoreKey := by
  rw [alertOracleStall]
  split
  · exact ⟨by simp, rfl⟩
  · dsimp only
    split
    · exact ⟨by simp, rfl⟩
    · exact ⟨fun a => key_of_announce, isStalled_announce (by decide)⟩

variable (crates readers) in
/-- Every step of the watches mirrors an announcer that looks at the same report. -/
theorem mirrors_watchStep {state : WatchState} {event : WatchEvent} (tidy : state.flags.Tidy)
    (known : key = oracleKey ∨ key = scoreKey)
    (readable : ∀ look ∈ lookOf texts key state event, look.2.reads) :
    Mirrors key state.flags (watchStep crates readers texts state event).1.flags
      (watchStep crates readers texts state event).2 (lookOf texts key state event) := by
  have differs : scoreKey ≠ oracleKey := by decide
  cases event with
  | poll poll => exact mirrors_none
  | scored scores => exact mirrors_none
  | oracle look =>
    rcases known with rfl | rfl
    · rw [lookOf, if_pos rfl] at readable ⊢
      refine mirrors_alertOracleStall fun found => ?_
      obtain ⟨report, read⟩ := Option.isSome_iff_exists.mp found
      exact readable (report, look.toWatchLook) (by rw [read]; rfl)
    · rw [lookOf, if_neg differs]
      exact mirrors_other differs keyed_alertOracleStall.1 keyed_alertOracleStall.2
  | score queries look =>
    rcases known with rfl | rfl
    · rw [lookOf, if_neg differs.symm]
      exact mirrors_other differs.symm keyed_alertScoreStall.1 keyed_alertScoreStall.2
    · rw [lookOf, if_pos rfl] at readable ⊢
      refine mirrors_alertScoreStall tidy fun found => ?_
      obtain ⟨report, read⟩ := Option.isSome_iff_exists.mp found
      exact readable (report, look) (by rw [read]; rfl)

/-- A run is a run of the announcer. -/
theorem mirrors_watchRun (state : WatchState) {events : List WatchEvent} (tidy : state.flags.Tidy)
    (known : key = oracleKey ∨ key = scoreKey)
    (readable : ∀ look ∈ looksOf crates readers texts key state events, look.2.reads) :
    (watchRun crates readers texts state events).1.flags.isStalled key =
        watchAnnouncer.after (state.flags.isStalled key)
          (looksOf crates readers texts key state events) ∧
      toldOf key (watchRun crates readers texts state events).2 =
        (watchAnnouncer.sent (state.flags.isStalled key)
          (looksOf crates readers texts key state events)).map Prod.fst := by
  induction events generalizing state with
  | nil => exact ⟨rfl, rfl⟩
  | cons event rest ih =>
    rw [looksOf] at readable ⊢
    have step := mirrors_watchStep crates readers tidy known
      fun look found => readable look (List.mem_append_left _ (Option.mem_toList.mpr found))
    have later := ih _ (honest_watchStep tidy event).tidy
      fun look member => readable look (List.mem_append_right _ member)
    rw [watchRun, toldOf_append, step.sent, Announcer.sent_append, List.map_append,
      Announcer.after_append, ← step.told]
    exact ⟨later.1, congrArg _ later.2⟩

/-- With flags that can be read, and no message that arrives without being written down, a watch
says what changed in the looks whose message could arrive: first a stall, then a recovery, and so
on. Its flag is what the last of these looks found. -/
theorem told_eq_changes {store : OracleStore} {scores : List ScoreRow} {events : List WatchEvent}
    (known : key = oracleKey ∨ key = scoreKey)
    (clean : ∀ look ∈ looksOf crates readers texts key ⟨store, scores, Table.empty⟩ events,
      look.2.reads ∧ look.2.delivery look.1.content ≠ .unrecorded) :
    let heard := watchAnnouncer.heard
      (looksOf crates readers texts key ⟨store, scores, Table.empty⟩ events)
    let run := watchRun crates readers texts ⟨store, scores, Table.empty⟩ events
    false :: (toldOf key run.2).map StallReport.stalled = heard.destutter' (· ≠ ·) false ∧
      run.1.flags.isStalled key = heard.getLastD false := by
  have run := mirrors_watchRun ⟨store, scores, Table.empty⟩ tidy_empty known
    fun look found => (clean look found).1
  rw [isStalled_empty] at run
  refine ⟨?_, run.1.trans (Announcer.after_eq _ _)⟩
  rw [run.2, List.map_map]
  have quiet : ∀ look ∈ looksOf crates readers texts key ⟨store, scores, Table.empty⟩ events,
      watchAnnouncer.due look = false := fun _ _ => rfl
  exact Announcer.sent_eq (fun look found => (clean look found).2) quiet false

/-- Over the gap the watches tell exactly the changes that were heard. -/
theorem told_eq_changes_gap :
    let heard := watchAnnouncer.heard (looksOf (.knowing [] []) gapReaders plainTexts oracleKey
      ⟨.empty, [], Table.empty⟩ gapEvents)
    let run := watchRun (.knowing [] []) gapReaders plainTexts ⟨.empty, [], Table.empty⟩ gapEvents
    false :: (toldOf oracleKey run.2).map StallReport.stalled = heard.destutter' (· ≠ ·) false ∧
      run.1.flags.isStalled oracleKey = heard.getLastD false := by
  refine told_eq_changes (.inl rfl) fun look found => ?_
  have plain : ∃ seconds, look.2 = (plainLook seconds).toWatchLook := by
    simp only [gapEvents, looksOf, lookOf, if_true, List.mem_append, Option.mem_toList,
      Option.map_eq_some_iff, List.not_mem_nil, or_false, reduceCtorEq, false_or] at found
    rcases found with ⟨report, -, rfl⟩ | ⟨report, -, rfl⟩
    · exact ⟨_, rfl⟩
    · exact ⟨_, rfl⟩
  obtain ⟨seconds, same⟩ := plain
  have recorded : (plainLook seconds).delivery look.1.content = .recorded :=
    deliveryOf_accepted (fun _ => rfl) _
  rw [same, recorded]
  exact ⟨rfl, by decide⟩

end Changes

end Foghorn.Probe
