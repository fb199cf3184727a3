import Foghorn.Core.Alerts
import Foghorn.Core.Json
import Foghorn.Std.Lines
import Foghorn.Std.Text
import Mathlib.Algebra.Order.BigOperators.Group.List
import Mathlib.Algebra.Order.Group.Nat

/-!
# The bodies of a delivery

A Discord webhook gets the events as lines of text, at most five of each kind and a count of the
others, packed into bodies under a limit. The limit is checked in bytes and before the link is
written behind the last body, and no line is split: a body that is too long holds one line.
Any other webhook gets one document with the events as data.
-/

namespace Foghorn.Core

open Foghorn.Std

/-- An `AlertEvent` as it is posted: its kind is one of `KINDS`, or `test`. -/
structure PostedEvent where
  kind : String
  message : String

def AlertEvent.posted (event : AlertEvent) : PostedEvent := ⟨event.kind.text, event.message⟩

/-- `KINDS`. -/
def AlertKind.all : List AlertKind := [poi, denied, signal, cuts, reo]

/-- `DISCORD_LINES_PER_KIND`. -/
def discordLinesPerKind : Nat := 5

def isDiscord (url : String) : Bool :=
  "https://discord.com/api/webhooks/".toList.isPrefixOf url.toList ||
    "https://discordapp.com/api/webhooks/".toList.isPrefixOf url.toList

def payloadLink (indexer : String) : String :=
  "https://lodestar-dashboard.com/indexers/" ++ indexer ++ "?tab=allocations"

def payloadHeader (indexer : String) : String := "**Lodestar alerts for " ++ indexer ++ "**"

def moreText (count : Nat) (kind : String) : String :=
  "and " ++ count.repr ++ " more " ++ kind ++ " alerts on the page"

/-- `lines`. -/
def payloadLines (events : List PostedEvent) : List String :=
  (AlertKind.all.map AlertKind.text ++ ["test"]).flatMap fun kind =>
    let ofKind := events.filter fun e => e.kind = kind
    (ofKind.take discordLinesPerKind).map PostedEvent.message ++
      if discordLinesPerKind < ofKind.length then
        [moreText (ofKind.length - discordLinesPerKind) kind]
      else []

def bulleted (line : String) : String := "\n- " ++ line

/-- The loop over the lines: `out` and `body` after one more. -/
def pushLine (header : String) (state : List String × String) (line : String) :
    List String × String :=
  if 1800 < state.2.utf8ByteSize + (bulleted line).utf8ByteSize then
    (state.1 ++ [state.2], header ++ bulleted line)
  else (state.1, state.2 ++ bulleted line)

/-- `out`. -/
def discordContents (indexer : String) (lines : List String) : List String :=
  let header := payloadHeader indexer
  let state := lines.foldl (pushLine header) ([], header)
  state.1 ++ [state.2 ++ ("\n" ++ payloadLink indexer)]

def contentJson (content : String) : Json := .object [("content", .string content)]

def payloads (url indexer : String) (events : List PostedEvent) : List Json :=
  if isDiscord url then (discordContents indexer (payloadLines events)).map contentJson
  else [.object [("indexer", .string indexer), ("url", .string (payloadLink indexer)),
    ("events", .array (events.map fun e =>
      .object [("kind", .string e.kind), ("message", .string e.message)]))]]

/-- What a line stands for: an event, or the events of a kind that have no line. -/
inductive BodyLine where
  | told (event : AlertEvent)
  | more (kind : AlertKind) (untold : Nat)

namespace BodyLine

def kind : BodyLine → AlertKind
  | told event => event.kind
  | more kind _ => kind

def text : BodyLine → String
  | told event => event.message
  | more kind untold => moreText untold kind.text

end BodyLine

/-- The text of a body before a link is written behind it. -/
def bodyOf (indexer : String) (lines : List BodyLine) : String :=
  lines.foldl (fun body line => body ++ bulleted line.text) (payloadHeader indexer)

section Spec

variable (indexer : String) (events : List AlertEvent)

def ofKind (kind : AlertKind) : List AlertEvent := events.filter fun event => event.kind = kind

/-- Each event has its line in one body, in order within its kind, or is counted as one more. -/
def Accounts (contents : List String) : Prop :=
  ∃ (closed : List (List BodyLine)) (last : List BodyLine),
    contents = closed.map (bodyOf indexer) ++ [bodyOf indexer last ++ ("\n" ++ payloadLink indexer)] ∧
    ∀ kind, ∃ told untold, ofKind events kind = told ++ untold ∧
      (closed.flatten ++ last).filter (fun line => line.kind = kind) =
        told.map .told ++ if untold = [] then [] else [.more kind untold.length]

/-- The bodies account for every event, and each can be posted. -/
def Delivers (bodies : List Json) : Prop :=
  ∃ contents, bodies = contents.map contentJson ∧ Accounts indexer events contents ∧
    ∀ content ∈ contents, content.length ≤ 2000

/-- The last kind that occurs. -/
def lastKind : Option AlertKind := AlertKind.all.reverse.find? fun kind => ofKind events kind ≠ []

/-- The messages that get a line are short enough for a body, and the one that comes last, unless
a count comes behind it, for a body with the link. -/
structure Deliverable : Prop where
  each : ∀ kind, ∀ event ∈ (ofKind events kind).take discordLinesPerKind,
    event.message.length ≤ 1931
  last : ∀ kind ∈ lastKind events, (ofKind events kind).length ≤ discordLinesPerKind →
    ∀ event ∈ (ofKind events kind).getLast?, event.message.length ≤ 1832

end Spec

section Lines

variable {indexer : String} {events : List AlertEvent} {kind : AlertKind}

/-- The lines of one kind. -/
def linesOfKind (events : List AlertEvent) (kind : AlertKind) : List BodyLine :=
  ((ofKind events kind).take discordLinesPerKind).map .told ++
    if discordLinesPerKind < (ofKind events kind).length then
      [.more kind ((ofKind events kind).length - discordLinesPerKind)]
    else []

def bodyLines (events : List AlertEvent) : List BodyLine :=
  AlertKind.all.flatMap (linesOfKind events)

private theorem filter_posted (events : List AlertEvent) (kind : AlertKind) :
    (events.map AlertEvent.posted).filter (fun e => e.kind = kind.text) =
      (ofKind events kind).map AlertEvent.posted := by
  have text_inj : ∀ other : AlertKind, other.text = kind.text ↔ other = kind := by
    cases kind <;> intro other <;> cases other <;> decide
  rw [List.filter_map, ofKind]
  congr 2
  funext event
  exact decide_eq_decide.mpr (text_inj event.kind)

private theorem filter_posted_test (events : List AlertEvent) :
    (events.map AlertEvent.posted).filter (fun e => e.kind = "test") = [] := by
  have named : ∀ kind : AlertKind, kind.text ≠ "test" := by intro kind; cases kind <;> decide
  simp [AlertEvent.posted, named]

/-- The texts that are packed are those of the lines; no event that is evaluated is a test. -/
theorem payloadLines_posted (events : List AlertEvent) :
    payloadLines (events.map AlertEvent.posted) = (bodyLines events).map BodyLine.text := by
  rw [payloadLines, List.flatMap_append, List.flatMap_singleton, filter_posted_test, bodyLines,
    List.map_flatMap, List.flatMap_map]
  have one (kind : AlertKind) :
      ((((events.map AlertEvent.posted).filter fun e => e.kind = kind.text).take
          discordLinesPerKind).map PostedEvent.message ++
        if discordLinesPerKind < ((events.map AlertEvent.posted).filter fun e =>
            e.kind = kind.text).length then
          [moreText (((events.map AlertEvent.posted).filter fun e =>
            e.kind = kind.text).length - discordLinesPerKind) kind.text]
        else []) = (linesOfKind events kind).map BodyLine.text := by
    rw [filter_posted, List.length_map, linesOfKind, List.map_append, List.map_map, ← List.map_take,
      List.map_map]
    congr 1
    split <;> rfl
  simp only [one]
  exact List.append_nil _

private theorem kind_of_mem_linesOfKind {line : BodyLine}
    (member : line ∈ linesOfKind events kind) :
    line.kind = kind := by
  rcases List.mem_append.mp member with told | more
  · obtain ⟨event, listed, rfl⟩ := List.mem_map.mp told
    exact of_decide_eq_true (List.mem_filter.mp (List.mem_of_mem_take listed)).2
  · split at more
    · rw [List.mem_singleton.mp more]
      rfl
    · cases more

/-- The lines of a kind stand together. -/
theorem filter_bodyLines (events : List AlertEvent) (kind : AlertKind) :
    (bodyLines events).filter (fun line => line.kind = kind) = linesOfKind events kind := by
  have own (other : AlertKind) : (linesOfKind events other).filter (fun line => line.kind = kind) =
      if other = kind then linesOfKind events other else [] := by
    by_cases same : other = kind
    · rw [if_pos same, List.filter_eq_self]
      exact fun line member => decide_eq_true ((kind_of_mem_linesOfKind member).trans same)
    · rw [if_neg same, List.filter_eq_nil_iff]
      intro line member
      rw [decide_eq_true_eq, kind_of_mem_linesOfKind member]
      exact same
  rw [bodyLines, AlertKind.all]
  simp only [List.flatMap_cons, List.flatMap_nil, List.filter_append, List.filter_nil, own]
  cases kind <;> simp

/-- A kind has a line for each of its first events, and one for the number of the others. -/
theorem exists_told (events : List AlertEvent) (kind : AlertKind) :
    ∃ told untold, ofKind events kind = told ++ untold ∧
      linesOfKind events kind =
        told.map .told ++ if untold = [] then [] else [.more kind untold.length] := by
  refine ⟨_, _, (List.take_append_drop discordLinesPerKind _).symm, ?_⟩
  rw [linesOfKind, List.length_drop]
  congr 1
  by_cases others : discordLinesPerKind < (ofKind events kind).length
  · rw [if_pos others, if_neg (by simpa using others)]
  · rw [if_neg others, if_pos (by simpa using others)]

/-- What a line is packed by. -/
def fitsBody (indexer : String) (group : List BodyLine) (line : BodyLine) : Bool :=
  (bodyOf indexer group).utf8ByteSize + (bulleted line.text).utf8ByteSize ≤ 1800

private theorem bodyOf_concat (group : List BodyLine) (line : BodyLine) :
    bodyOf indexer (group ++ [line]) = bodyOf indexer group ++ bulleted line.text := by
  rw [bodyOf, List.foldl_append]
  rfl

/-- The loop packs the lines. -/
theorem foldl_pushLine (indexer : String) (lines : List BodyLine) :
    (lines.map BodyLine.text).foldl (pushLine (payloadHeader indexer)) ([], payloadHeader indexer) =
      ((pack (fitsBody indexer) lines).1.map (bodyOf indexer),
        bodyOf indexer (pack (fitsBody indexer) lines).2) := by
  induction lines using List.reverseRecOn with
  | nil => rfl
  | append_singleton earlier last ih =>
    rw [List.map_append, List.foldl_append, ih, pack_concat, packStep]
    by_cases fitting : fitsBody indexer (pack (fitsBody indexer) earlier).2 last
    · have small := of_decide_eq_true fitting
      rw [if_pos fitting, bodyOf_concat]
      exact if_neg (Nat.not_lt.mpr small)
    · have large : ¬ _ ≤ _ := fun small => fitting (decide_eq_true small)
      rw [if_neg fitting, List.map_append]
      exact if_pos (Nat.lt_of_not_le large)

/-- The messages are the packed groups of lines, the last one with the link. -/
theorem discordContents_text (indexer : String) (lines : List BodyLine) :
    discordContents indexer (lines.map BodyLine.text) =
      (pack (fitsBody indexer) lines).1.map (bodyOf indexer) ++
        [bodyOf indexer (pack (fitsBody indexer) lines).2 ++ ("\n" ++ payloadLink indexer)] := by
  rw [discordContents, foldl_pushLine]

/-- The bodies account for the events, whatever their messages. -/
theorem accounts_discordContents (indexer : String) (events : List AlertEvent) :
    Accounts indexer events (discordContents indexer (payloadLines (events.map AlertEvent.posted))) := by
  rw [payloadLines_posted, discordContents_text]
  refine ⟨_, _, rfl, fun kind => ?_⟩
  rw [flatten_pack, filter_bodyLines]
  exact exists_told events kind

end Lines

section Lengths

variable {indexer : String} {events : List AlertEvent} {kind : AlertKind}

private theorem length_around (lead inner trail : String) :
    (lead ++ inner ++ trail).length = lead.length + inner.length + trail.length := by
  rw [String.length_append, String.length_append]

private theorem length_payloadHeader (address : indexer.length = 42) :
    (payloadHeader indexer).length = 66 := by
  have lead : "**Lodestar alerts for ".length = 22 := by decide
  have trail : "**".length = 2 := by decide
  calc (payloadHeader indexer).length
      = "**Lodestar alerts for ".length + indexer.length + "**".length := length_around _ _ _
    _ = 22 + 42 + 2 := congrArg₂ _ (congrArg₂ _ lead address) trail

private theorem length_payloadLink (address : indexer.length = 42) :
    (payloadLink indexer).length = 98 := by
  have lead : "https://lodestar-dashboard.com/indexers/".length = 40 := by decide
  have trail : "?tab=allocations".length = 16 := by decide
  calc (payloadLink indexer).length
      = "https://lodestar-dashboard.com/indexers/".length + indexer.length +
          "?tab=allocations".length := length_around _ _ _
    _ = 40 + 42 + 16 := congrArg₂ _ (congrArg₂ _ lead address) trail

/-- A body with the link behind it. -/
theorem length_append_link (address : indexer.length = 42) (body : String) :
    (body ++ ("\n" ++ payloadLink indexer)).length = body.length + 99 := by
  have newline (text : String) : ("\n" ++ text).length = 1 + text.length :=
    String.length_append _ _
  rw [String.length_append body, newline, length_payloadLink address]

private theorem length_bulleted (line : String) : (bulleted line).length = 3 + line.length :=
  String.length_append _ _

/-- A body of an indexer is 66 characters and its lines, each with three more. -/
theorem length_bodyOf (address : indexer.length = 42) (lines : List BodyLine) :
    (bodyOf indexer lines).length = 66 + (lines.map fun line => 3 + line.text.length).sum := by
  induction lines using List.reverseRecOn with
  | nil => exact length_payloadHeader address
  | append_singleton earlier last ih =>
    rw [bodyOf_concat, String.length_append, ih, length_bulleted]
    simp only [List.map_append, List.map_singleton, List.sum_append, List.sum_singleton]
    omega

/-- A body is at least as long as any of its lines. -/
theorem length_le_bodyOf (address : indexer.length = 42) {lines : List BodyLine} {line : BodyLine}
    (member : line ∈ lines) : 69 + line.text.length ≤ (bodyOf indexer lines).length := by
  have part : 3 + line.text.length ≤ (lines.map fun line => 3 + line.text.length).sum :=
    List.le_sum_of_mem (List.mem_map_of_mem member)
  rw [length_bodyOf address]
  omega

/-- A body that was packed is under the limit, or it holds one line. -/
theorem packed_bodyOf (address : indexer.length = 42) {group : List BodyLine}
    (packed : Packed (fitsBody indexer) group) :
    (bodyOf indexer group).length ≤ 1800 ∨ ∃ line, group = [line] := by
  rcases packed with single | ⟨earlier, last, rfl, fitting⟩
  · rcases group with _ | ⟨line, _ | ⟨other, rest⟩⟩
    · rw [length_bodyOf address]
      exact Or.inl (by simp)
    · exact Or.inr ⟨line, rfl⟩
    · simp at single
  · have small := of_decide_eq_true fitting
    have chars := length_le_utf8ByteSize (bodyOf indexer (earlier ++ [last]))
    rw [bodyOf_concat, String.utf8ByteSize_append] at chars
    rw [bodyOf_concat]
    exact Or.inl (by omega)

private theorem length_moreText {count : Nat} (counted : count < 2 ^ 64) (kind : AlertKind) :
    (moreText count kind.text).length ≤ 60 := by
  have digits : count.repr.length ≤ 20 :=
    (Nat.length_repr_le_iff (by decide)).mpr (Nat.lt_trans counted (by decide))
  have name : kind.text.length ≤ 6 := by cases kind <;> decide
  have last : " alerts on the page".length = 19 := by decide
  have length : (moreText count kind.text).length =
      "and ".length + count.repr.length + " more ".length + kind.text.length +
        " alerts on the page".length := by
    have joined (a b c d e : String) : (a ++ b ++ c ++ d ++ e).length =
        a.length + b.length + c.length + d.length + e.length := by
      simp only [String.length_append]
    exact joined _ _ _ _ _
  have first : "and ".length = 4 := by decide
  have middle : " more ".length = 6 := by decide
  rw [length, first, middle, last]
  omega

private theorem count_lt (counted : events.length < 2 ^ 64) (kind : AlertKind) :
    (ofKind events kind).length - discordLinesPerKind < 2 ^ 64 := by
  have fewer : (ofKind events kind).length ≤ events.length := List.length_filter_le _ _
  omega

/-- The last line of a kind counts what is left out, or is its last event. -/
theorem getLast?_linesOfKind (events : List AlertEvent) (kind : AlertKind) :
    (linesOfKind events kind).getLast? =
      if discordLinesPerKind < (ofKind events kind).length then
        some (.more kind ((ofKind events kind).length - discordLinesPerKind))
      else (ofKind events kind).getLast?.map .told := by
  rw [linesOfKind]
  split
  · exact List.getLast?_concat
  · rename_i few
    rw [List.append_nil, List.getLast?_map, List.take_of_length_le (Nat.le_of_not_lt few)]

/-- The last line is that of the last kind that occurs. -/
theorem getLast?_bodyLines (events : List AlertEvent) :
    (bodyLines events).getLast? =
      (lastKind events).bind fun kind => (linesOfKind events kind).getLast? := by
  have occurs (kind : AlertKind) :
      decide (ofKind events kind ≠ []) = ((linesOfKind events kind).getLast?).isSome := by
    rw [getLast?_linesOfKind]
    cases listed : ofKind events kind with
    | nil => rfl
    | cons first rest => split <;> simp
  rw [bodyLines, List.getLast?_flatMap, lastKind]
  induction AlertKind.all.reverse with
  | nil => rfl
  | cons kind rest ih =>
    rw [List.findSome?_cons, List.find?_cons, occurs kind, ih]
    cases found : (linesOfKind events kind).getLast? with
    | none => rfl
    | some line => exact found.symm

/-- The bodies can be posted when each line fits into one, and the last line beside the link. -/
theorem contents_short_iff (address : indexer.length = 42) (lines : List BodyLine) :
    (∀ content ∈ discordContents indexer (lines.map BodyLine.text), content.length ≤ 2000) ↔
      (∀ line ∈ lines, line.text.length ≤ 1931) ∧
        ∀ line ∈ lines.getLast?, line.text.length ≤ 1832 := by
  rw [discordContents_text, List.forall_mem_append, List.forall_mem_map, List.forall_mem_singleton,
    length_append_link address, ← @getLast?_pack _ (fitsBody indexer) lines]
  have all := @flatten_pack _ (fitsBody indexer) lines
  have packed := @packed_pack _ (fitsBody indexer) lines
  generalize pack (fitsBody indexer) lines = groups at all packed ⊢
  obtain ⟨closed, opened⟩ := groups
  dsimp only at all packed ⊢
  subst all
  constructor
  · rintro ⟨closedShort, openedShort⟩
    refine ⟨fun line member => ?_, fun line last => ?_⟩
    · rcases List.mem_append.mp member with inClosed | inOpened
      · obtain ⟨group, listed, inside⟩ := List.mem_flatten.mp inClosed
        have part := length_le_bodyOf address inside
        have whole := closedShort group listed
        omega
      · have part := length_le_bodyOf address inOpened
        omega
    · have part := length_le_bodyOf address (List.mem_of_getLast? last)
      omega
  · rintro ⟨each, last⟩
    refine ⟨fun group listed => ?_, ?_⟩
    · rcases packed_bodyOf address (packed.1 group listed) with small | ⟨line, rfl⟩
      · omega
      · have short := each line (List.mem_append_left _ (List.mem_flatten.mpr
          ⟨_, listed, List.mem_singleton_self line⟩))
        rw [length_bodyOf address, List.map_singleton, List.sum_singleton]
        omega
    · rcases packed_bodyOf address packed.2 with small | ⟨line, rfl⟩
      · omega
      · have short := last line rfl
        rw [length_bodyOf address, List.map_singleton, List.sum_singleton]
        omega

private theorem mem_bodyLines {line : BodyLine} :
    line ∈ bodyLines events ↔ ∃ kind, line ∈ linesOfKind events kind := by
  have all : ∀ kind, kind ∈ AlertKind.all := by intro kind; cases kind <;> decide
  rw [bodyLines, List.mem_flatMap]
  exact ⟨fun held => held.imp fun _ both => both.2, fun held => held.imp fun kind listed => ⟨all kind, listed⟩⟩

/-- The lines fit exactly when the messages of the events that have one do. -/
theorem deliverable_iff (counted : events.length < 2 ^ 64) :
    Deliverable events ↔ (∀ line ∈ bodyLines events, line.text.length ≤ 1931) ∧
      ∀ line ∈ (bodyLines events).getLast?, line.text.length ≤ 1832 := by
  have more (kind : AlertKind) : (moreText ((ofKind events kind).length - discordLinesPerKind)
      kind.text).length ≤ 60 := length_moreText (count_lt counted kind) kind
  have last : (∀ line ∈ (bodyLines events).getLast?, line.text.length ≤ 1832) ↔
      ∀ kind ∈ lastKind events, (ofKind events kind).length ≤ discordLinesPerKind →
        ∀ event ∈ (ofKind events kind).getLast?, event.message.length ≤ 1832 := by
    rw [getLast?_bodyLines]
    cases lastKind events with
    | none => exact iff_of_true (by rintro _ ⟨⟩) (by rintro _ ⟨⟩)
    | some kind =>
      rw [Option.bind_some, getLast?_linesOfKind]
      by_cases many : discordLinesPerKind < (ofKind events kind).length
      · rw [if_pos many]
        refine iff_of_true ?_ ?_
        · rintro _ ⟨⟩
          exact (more kind).trans (by decide)
        · rintro _ ⟨⟩ few
          exact absurd many (Nat.not_lt.mpr few)
      · rw [if_neg many]
        constructor
        · rintro short _ ⟨⟩ _ event listed
          exact short (.told event) (Option.mem_map_of_mem _ listed)
        · intro short line listed
          obtain ⟨event, told, rfl⟩ := Option.mem_map.mp listed
          exact short kind rfl (Nat.le_of_not_lt many) event told
  constructor
  · intro deliverable
    refine ⟨fun line listed => ?_, last.mpr deliverable.last⟩
    obtain ⟨kind, member⟩ := mem_bodyLines.mp listed
    rcases List.mem_append.mp member with told | counted
    · obtain ⟨event, first, rfl⟩ := List.mem_map.mp told
      exact deliverable.each kind event first
    · split at counted
      · rw [List.mem_singleton.mp counted]
        exact (more kind).trans (by decide)
      · cases counted
  · rintro ⟨each, short⟩
    refine ⟨fun kind event first => ?_, last.mp short⟩
    exact each (.told event) (mem_bodyLines.mpr
      ⟨kind, List.mem_append_left _ (List.mem_map_of_mem first)⟩)

end Lengths

private theorem contentJson_injective : Function.Injective contentJson := by
  intro left right same
  injection same with members
  injection members with member _
  injection member with _ content
  injection content

/-- If a Discord webhook takes the messages, none is longer than 2000 characters. -/
theorem short_of_delivers {url indexer : String} {events : List AlertEvent} (discord : isDiscord url)
    (delivers : Delivers indexer events (payloads url indexer (events.map AlertEvent.posted))) :
    ∀ content ∈ discordContents indexer ((bodyLines events).map BodyLine.text),
      content.length ≤ 2000 := by
  obtain ⟨contents, same, _, short⟩ := delivers
  rw [payloads, if_pos discord, payloadLines_posted] at same
  rw [List.map_injective_iff.mpr contentJson_injective same]
  exact short

/-- The bodies for a Discord webhook account for every event, and each can be posted exactly when
the messages with a line are short enough. -/
theorem delivers_iff {url indexer : String} {events : List AlertEvent} (discord : isDiscord url)
    (address : indexer.length = 42) (counted : events.length < 2 ^ 64) :
    Delivers indexer events (payloads url indexer (events.map AlertEvent.posted)) ↔
      Deliverable events := by
  rw [deliverable_iff counted, ← contents_short_iff address]
  refine ⟨short_of_delivers discord, fun short => ?_⟩
  rw [← payloadLines_posted] at short
  rw [payloads, if_pos discord]
  exact ⟨_, rfl, accounts_discordContents indexer events, short⟩

section Sample

def sampleWebhook : String := "https://discord.com/api/webhooks/1/abc"

def sampleIndexer : String := "0x00000000000000000000000000000000000000ff"

/-- An allocation whose deployment has a name of some length. -/
def namedAllocation (length : Nat) : AllocSnap where
  id := "0xa"
  ipfsHash := "Qm"
  name := some (String.ofList (List.replicate length 'n'))
  createdAtEpoch := 0
  signalGrt := 0
  denied := true

/-- What is evaluated when the denial of that deployment is new. -/
def denialEvents (length : Nat) : List AlertEvent :=
  ((evaluate { AlertState.empty with seen := true } ⟨["denied"], 20⟩
    ⟨0, [namedAllocation length], none, none, none⟩).1).map (Alert.event fun _ _ => "")

private theorem denialEvents_eq (length : Nat) :
    denialEvents length = [(Alert.denied (namedAllocation length)).event fun _ _ => ""] := rfl

/-- Six deployments, each with an allocation and a name of forty letters. -/
def crowd (signalGrt : ℚ) (denied : Bool) : List AllocSnap :=
  (List.range 6).map fun number =>
    { namedAllocation 40 with
      id := "0xa" ++ toString number
      ipfsHash := "Qm" ++ toString number
      signalGrt := signalGrt
      denied := denied }

/-- All of them fall due, are denied and lose signal between two snapshots. -/
def crowdEvents : List AlertEvent :=
  let choice : AlertChoice := ⟨["poi", "denied", "signal"], 20⟩
  let before := (evaluate .empty choice ⟨0, crowd 100 false, none, none, none⟩).2
  ((evaluate before choice ⟨27, crowd 10 true, none, none, none⟩).1).map (Alert.event fun _ _ => "")

/-- A named allocation is labelled by its name and its deployment. -/
theorem label_of_name {a : AllocSnap} {n : String} (named : a.name = some n) (nonempty : n ≠ "") :
    a.label = n ++ " (" ++ a.ipfsHash ++ ")" := by
  rw [AllocSnap.label, named]
  exact if_neg nonempty

private theorem length_letters (length : Nat) :
    (String.ofList (List.replicate length 'n')).length = length := by
  rw [String.length_ofList, List.length_replicate]

private theorem label_of_letters {a : AllocSnap} {length : Nat} (positive : 0 < length)
    (named : a.name = some (String.ofList (List.replicate length 'n'))) :
    a.label = String.ofList (List.replicate length 'n') ++ " (" ++ a.ipfsHash ++ ")" := by
  refine label_of_name named fun empty => ?_
  have letters := length_letters length
  rw [empty] at letters
  exact positive.ne letters

private theorem crowdEvents_eq : crowdEvents =
    ((crowd 10 true).flatMap fun a => [.poi a 1, .denied a, .signal a 100]).map
      (Alert.event fun _ _ => "") := by
  decide +kernel

private theorem spec_of_mem_crowd {a : AllocSnap} {signalGrt : ℚ} {denied : Bool}
    (among : a ∈ crowd signalGrt denied) :
    a.denied = denied ∧ a.label.length = 46 ∧ a.id.length = 4 := by
  obtain ⟨number, small, rfl⟩ := List.mem_map.mp among
  have digit : (toString number).length = 1 := by
    have table : ∀ number < 6, (toString number).length = 1 := by decide
    exact table number (List.mem_range.mp small)
  refine ⟨rfl, ?_, ?_⟩
  · rw [label_of_letters (by decide : 0 < 40) rfl]
    simp only [String.length_append, length_letters, digit]
    decide
  · rw [String.length_append, digit]
    decide

private theorem short_crowdEvents {event : AlertEvent} (member : event ∈ crowdEvents) :
    event.message.length ≤ 1832 := by
  rw [crowdEvents_eq] at member
  obtain ⟨alert, listed, rfl⟩ := List.mem_map.mp member
  obtain ⟨a, among, mine⟩ := List.mem_flatMap.mp listed
  obtain ⟨denied, label, id⟩ := spec_of_mem_crowd among
  simp only [List.mem_cons, List.not_mem_nil, or_false] at mine
  rcases mine with rfl | rfl | rfl
  · have text : ((Alert.poi a 1).event fun _ _ => "").message =
        "POI due now: " ++ a.label ++ " has " ++ toString (1 : Int) ++
          "d before it can be force-closed. Allocation " ++ a.id ++ "." := rfl
    rw [text]
    simp only [String.length_append, label, id]
    decide
  · have text : ((Alert.denied a).event fun _ _ => "").message =
        "Rewards denied: " ++ a.label ++
          " is on the RewardsManager denylist. Allocations there earn " ++ "nothing." :=
      if_pos denied
    rw [text]
    simp only [String.length_append, label]
    decide
  · have text : ((Alert.signal a 100).event fun _ _ => "").message =
        "Signal " ++ (if (signalMove 100 a.signalGrt).up then "up" else "down") ++ " on " ++
          a.label ++ ": " ++ "" ++ " to " ++ "" ++ " GRT (" ++
          (if (signalMove 100 a.signalGrt).up then "+" else "") ++ "" ++ "%)." := rfl
    rw [text]
    simp only [String.length_append, label]
    cases (signalMove 100 a.signalGrt).up <;> decide

private theorem deliverable_crowdEvents : Deliverable crowdEvents where
  each _ _ member := (short_crowdEvents (List.mem_filter.mp (List.mem_of_mem_take member)).1).trans
    (by decide)
  last _ _ _ _ member := short_crowdEvents (List.mem_filter.mp (List.mem_of_mem_getLast? member)).1

/-- Five events of each kind have a line and one is counted, in two bodies. -/
theorem crowd_delivered :
    (payloads sampleWebhook sampleIndexer (crowdEvents.map AlertEvent.posted)).length = 2 ∧
      crowdEvents.length = 18 ∧ Delivers sampleIndexer crowdEvents
        (payloads sampleWebhook sampleIndexer (crowdEvents.map AlertEvent.posted)) :=
  ⟨by decide +kernel, by decide +kernel,
    (delivers_iff (by decide) (by decide) (by decide +kernel)).mpr deliverable_crowdEvents⟩

private theorem le_length_denial {length : Nat} (positive : 0 < length) :
    length ≤ ((Alert.denied (namedAllocation length)).message fun _ _ => "").length := by
  have text : ((Alert.denied (namedAllocation length)).message fun _ _ => "") =
      "Rewards denied: " ++ (namedAllocation length).label ++
        (" is on the RewardsManager denylist. Allocations there earn " ++ "nothing.") :=
    String.append_assoc
  have part (a b c d e f : String) : b.length ≤ (a ++ (b ++ c ++ d ++ e) ++ f).length := by
    simp only [String.length_append]
    omega
  calc length
      = (String.ofList (List.replicate length 'n')).length := (length_letters length).symm
    _ ≤ _ := by
      rw [text, label_of_letters positive rfl]
      exact part _ _ _ _ _ _

/-- A denial of an allocation with a name of 1932 characters or more is not delivered. -/
theorem not_delivers_of_long {length : Nat} (long : 1932 ≤ length) :
    ¬ Delivers sampleIndexer (denialEvents length)
      (payloads sampleWebhook sampleIndexer ((denialEvents length).map AlertEvent.posted)) := by
  intro delivers
  have short := (contents_short_iff (by decide) _).mp (short_of_delivers (by decide) delivers)
  have line : BodyLine.told ((Alert.denied (namedAllocation length)).event fun _ _ => "") ∈
      bodyLines (denialEvents length) := by
    rw [denialEvents_eq]
    exact mem_bodyLines.mpr ⟨.denied, List.mem_singleton_self _⟩
  have text (alert : Alert) : (BodyLine.told (alert.event fun _ _ => "")).text =
      alert.message fun _ _ => "" := rfl
  have message := short.1 _ line
  rw [text] at message
  have bound := le_length_denial (Nat.lt_of_lt_of_le (by decide) long)
  omega

/-- A name of two thousand characters makes a body that Discord refuses. -/
theorem longName_not_delivered :
    ¬ Delivers sampleIndexer (denialEvents 2000)
      (payloads sampleWebhook sampleIndexer ((denialEvents 2000).map AlertEvent.posted)) :=
  not_delivers_of_long (by decide)

end Sample

end Foghorn.Core
