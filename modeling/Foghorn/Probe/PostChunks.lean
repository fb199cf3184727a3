import Foghorn.Std.Text
import Foghorn.Probe.Roster

/-!
# Posting the roster

What is posted is cut at its line ends into messages under a limit. A line that comes with an
empty message begins it, so blank lines at the beginning of a message are dropped, and no line is
cut: a message over the limit is one line.
-/

namespace Foghorn.Probe

open Foghorn.Std Foghorn.Core

/-- `MSG_LIMIT`. -/
def msgLimit : Nat := 1800

/-- `content.split('\n')`. -/
def splitLines (content : String) : List String := (content.toList.splitOn '\n').map String.ofList

/-- `cur` with one more line. -/
def appendLine (cur line : String) : String := (if cur = "" then cur else cur ++ "\n") ++ line

/-- The loop of `post_chunks`: `messages` and `cur` after one more line. -/
def chunkStep (state : List String × String) (line : String) : List String × String :=
  let state :=
    if state.2 ≠ "" ∧ msgLimit < state.2.utf8ByteSize + line.utf8ByteSize + 1 then
      (state.1 ++ [state.2], "")
    else state
  (state.1, appendLine state.2 line)

/-- The messages that `post_chunks` builds. -/
def postMessages (content : String) : List String :=
  let state := (splitLines content).foldl chunkStep ([], "")
  if state.2 = "" then state.1 else state.1 ++ [state.2]

/-- The messages hold every line that is not blank, once and in order, none is empty, and each
can be posted. -/
structure Postable (content : String) (messages : List String) : Prop where
  lines : (messages.flatMap splitLines).filter (fun line => line ≠ "") =
    (splitLines content).filter fun line => line ≠ ""
  nonempty : ∀ message ∈ messages, message ≠ ""
  short : ∀ message ∈ messages, message.length ≤ 2000

section Messages

variable {group : List String} {line : String}

/-- A message of some lines. -/
def messageOf (group : List String) : String := group.foldl appendLine ""

/-- What a line is packed by. -/
def fitsMessage (group : List String) (line : String) : Bool :=
  messageOf group = "" || (messageOf group).utf8ByteSize + line.utf8ByteSize + 1 ≤ msgLimit

@[simp] theorem messageOf_nil : messageOf [] = "" := rfl

private theorem messageOf_concat (group : List String) (line : String) :
    messageOf (group ++ [line]) = appendLine (messageOf group) line := by
  rw [messageOf, List.foldl_append]
  rfl

private theorem appendLine_empty (line : String) : appendLine "" line = line := by
  rw [appendLine, if_pos rfl, String.empty_append]

private theorem appendLine_of_ne {cur : String} (begun : cur ≠ "") (line : String) :
    appendLine cur line = cur ++ "\n" ++ line := by
  rw [appendLine, if_neg begun]

private theorem messageOf_singleton (line : String) :
    messageOf [line] = line := appendLine_empty line

/-- The loop packs the lines. -/
theorem foldl_chunkStep (lines : List String) :
    lines.foldl chunkStep ([], "") =
      ((pack fitsMessage lines).1.map messageOf, messageOf (pack fitsMessage lines).2) := by
  induction lines using List.reverseRecOn with
  | nil => rfl
  | append_singleton earlier last ih =>
    rw [List.foldl_append, ih, pack_concat, packStep, List.foldl_cons, List.foldl_nil, chunkStep]
    generalize (pack fitsMessage earlier).2 = opened
    by_cases fitting : fitsMessage opened last
    · have stays : ¬ (messageOf opened ≠ "" ∧
          msgLimit < (messageOf opened).utf8ByteSize + last.utf8ByteSize + 1) := by
        rw [fitsMessage, Bool.or_eq_true, decide_eq_true_eq, decide_eq_true_eq] at fitting
        rintro ⟨begun, large⟩
        exact fitting.elim begun (Nat.not_le.mpr large)
      rw [if_pos fitting, if_neg stays, messageOf_concat]
    · have closes : messageOf opened ≠ "" ∧
          msgLimit < (messageOf opened).utf8ByteSize + last.utf8ByteSize + 1 := by
        rw [fitsMessage, Bool.or_eq_true, decide_eq_true_eq, decide_eq_true_eq, not_or,
          Nat.not_le] at fitting
        exact fitting
      rw [if_neg fitting, if_pos closes, List.map_append, messageOf_singleton, appendLine_empty]
      rfl

private theorem toList_of_splitLines {content line : String} (member : line ∈ splitLines content) :
    line.toList ∈ content.toList.splitOn '\n' := by
  obtain ⟨word, listed, rfl⟩ := List.mem_map.mp member
  rwa [String.toList_ofList]

private theorem splitLines_of_notMem (plain : '\n' ∉ line.toList) : splitLines line = [line] := by
  rw [splitLines, List.splitOn_eq_singleton plain, List.map_singleton, String.ofList_toList]

/-- Lines split apart again where two texts were joined by a newline. -/
theorem splitLines_append (cur line : String) :
    splitLines (cur ++ "\n" ++ line) = splitLines cur ++ splitLines line := by
  have chars : (cur ++ "\n" ++ line).toList = cur.toList ++ '\n' :: line.toList := by
    rw [String.toList_append, String.toList_append, List.append_assoc]
    rfl
  rw [splitLines, chars, List.splitOn_append_cons_self, List.map_append]
  rfl

/-- The lines of a message are those it was built from, but for blank ones. -/
theorem filter_splitLines_messageOf (plain : ∀ line ∈ group, '\n' ∉ line.toList) :
    (splitLines (messageOf group)).filter (fun line => line ≠ "") =
      group.filter fun line => line ≠ "" := by
  induction group using List.reverseRecOn with
  | nil => rfl
  | append_singleton earlier last ih =>
    have lastPlain := plain last (by simp)
    have kept := ih fun line member => plain line (List.mem_append_left _ member)
    rw [messageOf_concat, List.filter_append, ← kept]
    by_cases begun : messageOf earlier = ""
    · rw [begun, appendLine_empty, splitLines_of_notMem lastPlain]
      rfl
    · rw [appendLine_of_ne begun, splitLines_append, splitLines_of_notMem lastPlain,
        List.filter_append]

/-- A message that was packed is under the limit, or it is one of the lines. -/
theorem packed_messageOf (packed : Packed fitsMessage group) :
    (messageOf group).length ≤ 1800 ∨ messageOf group ∈ group := by
  rcases packed with single | ⟨earlier, last, rfl, fitting⟩
  · rcases group with _ | ⟨line, _ | ⟨other, rest⟩⟩
    · exact Or.inl (Nat.zero_le _)
    · rw [messageOf_singleton]
      exact Or.inr List.mem_cons_self
    · simp at single
  · rw [messageOf_concat]
    by_cases begun : messageOf earlier = ""
    · rw [begun, appendLine_empty]
      exact Or.inr (by simp)
    · rw [fitsMessage, Bool.or_eq_true, decide_eq_true_eq, decide_eq_true_eq] at fitting
      have small := fitting.resolve_left begun
      have chars := length_le_utf8ByteSize (messageOf earlier ++ "\n" ++ last)
      have newline : "\n".utf8ByteSize = 1 := rfl
      rw [String.utf8ByteSize_append, String.utf8ByteSize_append, newline] at chars
      rw [appendLine_of_ne begun]
      rw [msgLimit] at small
      exact Or.inl (by omega)

/-- The lines by message, before an empty message is left out. -/
def lineGroups (content : String) : List (List String) :=
  (pack fitsMessage (splitLines content)).1 ++ [(pack fitsMessage (splitLines content)).2]

/-- The groups hold the content's lines in order. -/
theorem flatten_lineGroups (content : String) : (lineGroups content).flatten = splitLines content := by
  rw [lineGroups, List.flatten_append, List.flatten_singleton, flatten_pack]

private theorem packed_lineGroups {content : String} (member : group ∈ lineGroups content) :
    Packed fitsMessage group := by
  have packed := @packed_pack _ fitsMessage (splitLines content)
  rcases List.mem_append.mp member with closed | opened
  · exact packed.1 group closed
  · exact List.mem_singleton.mp opened ▸ packed.2

/-- The messages are the groups of lines, without the empty ones. -/
theorem postMessages_eq (content : String) : postMessages content =
    ((lineGroups content).map messageOf).filter fun message => message ≠ "" := by
  have closed : ((pack fitsMessage (splitLines content)).1.map messageOf).filter
      (fun message => message ≠ "") = (pack fitsMessage (splitLines content)).1.map messageOf := by
    rw [List.filter_eq_self]
    intro message listed
    obtain ⟨group, member, rfl⟩ := List.mem_map.mp listed
    obtain ⟨next, left⟩ := exists_of_mem_pack member
    rw [fitsMessage, Bool.or_eq_false_iff] at left
    simpa using left.1
  rw [postMessages, foldl_chunkStep, lineGroups, List.map_append, List.filter_append, closed]
  by_cases blank : messageOf (pack fitsMessage (splitLines content)).2 = "" <;> simp [blank]

private theorem notMem_of_mem_splitLines {content : String} (member : line ∈ splitLines content) :
    '\n' ∉ line.toList :=
  notMem_of_mem_splitOn (toList_of_splitLines member)

private theorem length_le_of_mem_splitLines {content : String}
    (member : line ∈ splitLines content) :
    line.length ≤ content.length :=
  length_le_of_mem_splitOn (toList_of_splitLines member)

/-- No line is lost, doubled or moved. -/
theorem lines_postMessages (content : String) :
    ((postMessages content).flatMap splitLines).filter (fun line => line ≠ "") =
      (splitLines content).filter fun line => line ≠ "" := by
  have blank : (splitLines "").filter (fun line => line ≠ "") = [] := rfl
  have group : ∀ group ∈ lineGroups content,
      (splitLines (messageOf group)).filter (fun line => line ≠ "") =
        group.filter fun line => line ≠ "" := by
    intro group member
    refine filter_splitLines_messageOf fun line inside => ?_
    have listed := List.mem_flatten.mpr ⟨group, member, inside⟩
    rw [flatten_lineGroups] at listed
    exact notMem_of_mem_splitLines listed
  -- A message that is left out has no line that counts.
  have left_out (message : String) :
      (if decide (message ≠ "") then (splitLines message).filter fun line => line ≠ "" else []) =
        (splitLines message).filter fun line => line ≠ "" := by
    by_cases empty : message = ""
    · rw [empty, blank]
      rfl
    · rw [if_pos (decide_eq_true empty)]
  rw [postMessages_eq, List.filter_flatMap, flatMap_filter, List.flatMap_congr fun m _ => left_out m,
    List.flatMap_map, List.flatMap_congr group, ← flatten_lineGroups content, List.filter_flatten,
    List.flatMap_def]

/-- A line is in a message, which is at least as long. -/
theorem length_le_of_postable {content : String} (postable : Postable content (postMessages content))
    (listed : line ∈ splitLines content) : line.length ≤ 2000 := by
  by_cases blank : line = ""
  · rw [blank]
    exact Nat.zero_le _
  · have kept : line ∈ (splitLines content).filter fun line => line ≠ "" :=
      List.mem_filter.mpr ⟨listed, decide_eq_true blank⟩
    rw [← postable.lines] at kept
    obtain ⟨message, posted, inside⟩ := List.mem_flatMap.mp (List.mem_filter.mp kept).1
    exact (length_le_of_mem_splitLines inside).trans (postable.short message posted)

/-- The messages can be posted exactly when no line is longer than a message may be. -/
theorem postable_iff (content : String) :
    Postable content (postMessages content) ↔ ∀ line ∈ splitLines content, line.length ≤ 2000 := by
  refine ⟨fun postable line listed => length_le_of_postable postable listed, fun short => ?_⟩
  refine ⟨lines_postMessages content, fun message listed => ?_, fun message listed => ?_⟩
  · rw [postMessages_eq] at listed
    exact of_decide_eq_true (List.mem_filter.mp listed).2
  · rw [postMessages_eq] at listed
    obtain ⟨group, member, rfl⟩ := List.mem_map.mp (List.mem_filter.mp listed).1
    rcases packed_messageOf (packed_lineGroups member) with small | one
    · exact small.trans (by decide)
    · refine short _ ?_
      rw [← flatten_lineGroups]
      exact List.mem_flatten.mpr ⟨group, member, one⟩

/-- A line of more than 2000 characters cannot be posted. -/
theorem not_postable_of_long {length : Nat} (long : 2000 < length) :
    ¬ Postable (String.ofList (List.replicate length 'n'))
      (postMessages (String.ofList (List.replicate length 'n'))) := by
  intro postable
  have plain : '\n' ∉ (String.ofList (List.replicate length 'n')).toList := by
    rw [String.toList_ofList, List.mem_replicate]
    exact fun held => absurd held.2 (by decide)
  have bound := length_le_of_postable postable
    (splitLines_of_notMem plain ▸ List.mem_singleton_self _)
  rw [String.length_ofList, List.length_replicate] at bound
  omega

/-- A line of two thousand and one characters makes a message that Discord refuses. -/
theorem longLine_not_postable :
    ¬ Postable (String.ofList (List.replicate 2001 'n'))
      (postMessages (String.ofList (List.replicate 2001 'n'))) :=
  not_postable_of_long (by decide)

end Messages

section Content

/-- `build_message_body`. -/
def buildMessageBody (header : String) (lines : List String) : String :=
  header ++ "\n" ++ "\n".intercalate lines ++ "\n" ++
    "For more details — https://lodestar-dashboard.com/foghorn"

/-- What `run_cycle` posts of the lines of the roster. -/
def rosterContent (changed : Bool) (lines : List String) : String :=
  if lines = [] then
    "📯 **Foghorn — all clear.** No indexers are currently serving errors or behind. " ++
      "Still on watch.\nFor more details — https://lodestar-dashboard.com/foghorn"
  else
    buildMessageBody ((if changed then "📯 **Foghorn — " else "📯 **Foghorn — daily status · ") ++
      lines.length.repr ++ " indexer" ++ plural lines.length ++ " need attention**") lines

/-- Lines joined by newlines are split into the same lines. -/
theorem splitLines_intercalate {lines : List String} (some_line : lines ≠ [])
    (plain : ∀ line ∈ lines, '\n' ∉ line.toList) : splitLines ("\n".intercalate lines) = lines := by
  have marks : ∀ word ∈ lines.map String.toList, '\n' ∉ word := List.forall_mem_map.mpr plain
  have newline : "\n".toList = ['\n'] := rfl
  rw [splitLines, String.toList_intercalate, newline,
    List.splitOn_intercalate '\n' marks (by simpa using some_line), List.map_map]
  exact (List.map_congr_left fun line _ => String.ofList_toList).trans (List.map_id lines)

/-- Every line of the roster is posted, in order. -/
theorem sublist_posted (changed : Bool) {lines : List String}
    (plain : ∀ line ∈ lines, '\n' ∉ line.toList) (begun : ∀ line ∈ lines, line ≠ "") :
    lines.Sublist ((postMessages (rosterContent changed lines)).flatMap splitLines) := by
  by_cases none : lines = []
  · rw [none]
    exact List.nil_sublist _
  · have inside : lines.Sublist (splitLines (rosterContent changed lines)) := by
      rw [rosterContent, if_neg none, buildMessageBody, splitLines_append, splitLines_append,
        splitLines_intercalate none plain]
      exact (List.sublist_append_right _ _).trans (List.sublist_append_left _ _)
    have kept : lines.filter (fun line => line ≠ "") = lines :=
      List.filter_eq_self.mpr fun line listed => decide_eq_true (begun line listed)
    have counted := inside.filter fun line => decide (line ≠ "")
    rw [kept, ← lines_postMessages] at counted
    exact counted.trans List.filter_sublist

end Content

end Foghorn.Probe
