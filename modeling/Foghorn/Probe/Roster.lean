import Foghorn.Core.Decimal
import Foghorn.Core.Score
import Foghorn.Std.Lines
import Foghorn.Probe.Alerter
import Foghorn.Probe.Cycle

/-!
# The failure roster

The alerter selects items by severity or by kind, groups them by indexer, and writes one line
for each indexer. The line says what the items amount to: a summary has a phrase for every
issue that one of the known kinds counts towards, with the number of deployments where the
issue is about deployments. Items of any other kind get an indexer onto the roster and leave
its summary as it is.
-/

namespace Foghorn.Probe

open Foghorn.Std Foghorn.Core

/-- What the alerter reads of `attention_item`. -/
structure AttentionRow where
  indexerAddress : String
  kind : String
  deploymentId : String
  severity : String
  detail : Json

def AttentionRow.key (row : AttentionRow) : String × String × String :=
  (row.indexerAddress, row.kind, row.deploymentId)

abbrev AttentionTable := Table AttentionRow (String × String × String) AttentionRow.key

namespace AttentionRow

variable (row : AttentionRow)

def isCritical : Bool := row.severity = "critical"

/-- `ALERT_FILTER`. -/
def passesAlertFilter : Bool :=
  row.isCritical || decide (row.kind ∈
    ["behind-deployment", "behind-deployments", "serving-errors-deployment", "behind-chainhead"])

/-- `dep_count`. -/
def depCount : Int := ((row.detail.get "deployment_count").bind Json.asI64).getD 1

end AttentionRow

/-- `COALESCE(p.ens_name, a.indexer_address)`. -/
def labelOf (profiles : ProfileTable) (address : String) : String :=
  ((profiles.lookup address).bind fun row => row.profile.ensName).getD address

def plural (n : Int) : String := if n = 1 then "" else "s"

structure IndexerAlert where
  label : String
  critical : Bool
  servingNoData : Bool
  servingErrDeps : Int
  behindDeps : Int
  behindHead : Bool

/-- `+=` on an `i64` of a release build. -/
def addI64 (sum more : Int) : Int := (sum + more).bmod (2 ^ 64)

namespace IndexerAlert

/-- `IndexerAlert::default()`. -/
def default : IndexerAlert := ⟨"", false, false, 0, 0, false⟩

/-- The loop over the rows, for a row of the indexer. -/
def add (profiles : ProfileTable) (e : IndexerAlert) (row : AttentionRow) : IndexerAlert :=
  let e := if e.label = "" then { e with label := labelOf profiles row.indexerAddress } else e
  let e := if row.isCritical then { e with critical := true } else e
  match row.kind with
  | "serving-no-data" => { e with servingNoData := true }
  | "serving-errors" => { e with servingErrDeps := addI64 e.servingErrDeps row.depCount }
  | "serving-errors-deployment" => { e with servingErrDeps := addI64 e.servingErrDeps 1 }
  | "behind-deployments" => { e with behindDeps := addI64 e.behindDeps row.depCount }
  | "behind-deployment" => { e with behindDeps := addI64 e.behindDeps 1 }
  | "behind-chainhead" => { e with behindHead := true }
  | _ => e

/-- Critical first, then by serving errors, then by label. -/
def order (a b : IndexerAlert) : Ordering :=
  (compare b.critical a.critical).then
    ((compare b.servingErrDeps a.servingErrDeps).then (compare a.label b.label))

def parts (a : IndexerAlert) : List String :=
  pushIf a.servingNoData "serving no data" ++
  pushIf (0 < a.servingErrDeps)
    ("serving errors on " ++ (a.servingErrDeps.repr ++ (" deployment" ++ plural a.servingErrDeps))) ++
  pushIf (0 < a.behindDeps)
    ("behind on " ++ (a.behindDeps.repr ++ (" deployment" ++ plural a.behindDeps))) ++
  pushIf a.behindHead "behind chainhead"

end IndexerAlert

/-- A line up to its summary. -/
def rosterLead (critical : Bool) (label : String) : String :=
  (if critical then "🔴" else "🟠") ++ " **" ++ label ++ "** — "

def IndexerAlert.line (a : IndexerAlert) : String :=
  rosterLead a.critical a.label ++ "; ".intercalate a.parts

structure Roster where
  lines : List String
  states : RosterStates

/-- The orders in which the query returns its rows and the map iterates. -/
structure RosterOrders where
  rows : IterOrder AttentionRow
  alerts : IterOrder (String × IndexerAlert)

/-- The alerts by address. -/
def rosterAlerts (profiles : ProfileTable) (rows : List AttentionRow) :
    Table (String × IndexerAlert) String Prod.fst :=
  accumulate .default (IndexerAlert.add profiles) (rows.map fun row => (row.indexerAddress, row))

def currentFailureRoster (profiles : ProfileTable) (orders : RosterOrders)
    (content : AttentionTable) : Roster :=
  let grouped := rosterAlerts profiles
    (orders.rows.arrange (content.rows.filter AttentionRow.passesAlertFilter))
  let alerts := ((orders.alerts.arrange grouped.rows).map Prod.snd).mergeSort fun a b =>
    (a.order b).isLE
  { lines := alerts.map IndexerAlert.line
    states := ⟨grouped.rows.map fun entry => (entry.1, entry.2.critical), by
      rw [List.map_map]
      exact grouped.unique⟩ }

/-- What can be wrong with an indexer of the roster. -/
inductive Issue where
  | servingNoData
  | servingErrors
  | behindDeployments
  | behindChainhead
deriving DecidableEq

namespace Issue

/-- The issue that an item of a kind is about. -/
def ofKind : String → Option Issue
  | "serving-no-data" => some servingNoData
  | "serving-errors" => some servingErrors
  | "serving-errors-deployment" => some servingErrors
  | "behind-deployments" => some behindDeployments
  | "behind-deployment" => some behindDeployments
  | "behind-chainhead" => some behindChainhead
  | _ => none

/-- Whether the number of deployments is told. -/
def perDeployment : Issue → Bool
  | servingErrors => true
  | behindDeployments => true
  | _ => false

/-- What a line says of an issue with a number of deployments. -/
def phrase : Issue → Int → String
  | servingNoData, _ => "serving no data"
  | servingErrors, n => "serving errors on " ++ (n.repr ++ (" deployment" ++ plural n))
  | behindDeployments, n => "behind on " ++ (n.repr ++ (" deployment" ++ plural n))
  | behindChainhead, _ => "behind chainhead"

/-- The order of the phrases in a summary. -/
def inOrder : List Issue := [servingNoData, servingErrors, behindDeployments, behindChainhead]

private theorem mem_inOrder (issue : Issue) : issue ∈ inOrder := by cases issue <;> decide

end Issue

/-- The phrases of some issues with their numbers. -/
def summaryOf (named : List (Issue × Int)) : String :=
  "; ".intercalate (named.map fun entry => entry.1.phrase entry.2)

/-- The deployments that an item is about: those it counts, or the one. -/
def AttentionRow.affected (row : AttentionRow) : Int :=
  if row.kind = "serving-errors" ∨ row.kind = "behind-deployments" then row.depCount else 1

def AttentionRow.isAbout (issue : Issue) (row : AttentionRow) : Bool :=
  Issue.ofKind row.kind = some issue

/-- The deployments that some items about an issue come to. -/
def Issue.total (issue : Issue) (rows : List AttentionRow) : Int :=
  ((rows.filter (AttentionRow.isAbout issue)).map AttentionRow.affected).sum

section Spec

variable (profiles : ProfileTable) (content : AttentionTable)

/-- The rows of an indexer that pass the filter. -/
def AttentionTable.alerting (address : String) : List AttentionRow :=
  (content.rows.filter AttentionRow.passesAlertFilter).filter fun row =>
    row.indexerAddress = address

/-- The indexers with such a row. -/
def AttentionTable.failing : List String :=
  ((content.rows.filter AttentionRow.passesAlertFilter).map AttentionRow.indexerAddress).dedup

/-- The line names the issue of each of the rows, with the number of deployments in all. -/
def NamesAll (address line : String) : Prop :=
  let rows := content.alerting address
  ∃ named : List (Issue × Int), named ≠ [] ∧
    line = rosterLead (rows.any AttentionRow.isCritical) (labelOf profiles address) ++
      summaryOf named ∧
    ∀ row ∈ rows, ∃ issue, Issue.ofKind row.kind = some issue ∧ (issue, issue.total rows) ∈ named

/-- One line for each indexer, which names everything. -/
def HidesNothing (lines : List String) : Prop :=
  ∃ lineOf : String → String, lines.Perm (content.failing.map lineOf) ∧
    ∀ address ∈ content.failing, NamesAll profiles content address (lineOf address)

/-- Each row that passes the filter is about an issue, and the deployments of an indexer come to
a positive number that fits the counter. -/
structure Nameable : Prop where
  kinds : ∀ row ∈ content, row.passesAlertFilter → (Issue.ofKind row.kind).isSome
  totals : ∀ address (issue : Issue), issue.perDeployment →
    (content.alerting address).any (AttentionRow.isAbout issue) →
      0 < issue.total (content.alerting address) ∧
        issue.total (content.alerting address) < 2 ^ 63

end Spec

section Alert

variable {profiles : ProfileTable} {rows : List AttentionRow}

/-- What a row does to the alert, flag by flag and counter by counter. -/
theorem add_eq (e : IndexerAlert) (row : AttentionRow) :
    e.add profiles row =
      { label := if e.label = "" then labelOf profiles row.indexerAddress else e.label
        critical := e.critical || row.isCritical
        servingNoData := e.servingNoData || row.isAbout .servingNoData
        servingErrDeps := if row.isAbout .servingErrors then addI64 e.servingErrDeps row.affected
          else e.servingErrDeps
        behindDeps := if row.isAbout .behindDeployments then addI64 e.behindDeps row.affected
          else e.behindDeps
        behindHead := e.behindHead || row.isAbout .behindChainhead } := by
  unfold IndexerAlert.add AttentionRow.isAbout AttentionRow.affected Issue.ofKind
  by_cases unnamed : e.label = "" <;> cases critical : row.isCritical <;> dsimp only <;> split <;>
    simp_all

private theorem total_concat (issue : Issue) (rows : List AttentionRow) (row : AttentionRow) :
    issue.total (rows ++ [row]) =
      issue.total rows + if row.isAbout issue then row.affected else 0 := by
  cases about : row.isAbout issue <;> simp [Issue.total, about]

private theorem total_perm (issue : Issue) {others : List AttentionRow} (perm : rows.Perm others) :
    issue.total rows = issue.total others :=
  ((perm.filter _).map _).sum_eq

/-- A counter that is bounded by its width still counts as the number does. -/
theorem addI64_bmod (sum more : Int) : addI64 (sum.bmod (2 ^ 64)) more = (sum + more).bmod (2 ^ 64) :=
  Int.bmod_add_bmod

/-- The alert says what some rows of one indexer amount to. -/
structure IndexerAlert.Sums (label : String) (rows : List AttentionRow) (e : IndexerAlert) : Prop where
  label : e.label = if rows = [] then "" else label
  critical : e.critical = rows.any AttentionRow.isCritical
  noData : e.servingNoData = rows.any (AttentionRow.isAbout .servingNoData)
  errors : e.servingErrDeps = (Issue.servingErrors.total rows).bmod (2 ^ 64)
  behind : e.behindDeps = (Issue.behindDeployments.total rows).bmod (2 ^ 64)
  head : e.behindHead = rows.any (AttentionRow.isAbout .behindChainhead)

namespace IndexerAlert

variable {label : String} {e : IndexerAlert}

/-- The sums of a line do not depend on the order of the rows. -/
theorem Sums.perm (sums : e.Sums label rows) {others : List AttentionRow} (perm : rows.Perm others) :
    e.Sums label others where
  label := by
    have empty : rows = [] ↔ others = [] :=
      ⟨fun none => (none ▸ perm).nil_eq.symm, fun none => (none ▸ perm).eq_nil⟩
    rw [sums.label]
    simp only [empty]
  critical := by rw [sums.critical, perm.any_eq]
  noData := by rw [sums.noData, perm.any_eq]
  errors := by rw [sums.errors, total_perm _ perm]
  behind := by rw [sums.behind, total_perm _ perm]
  head := by rw [sums.head, perm.any_eq]

/-- One more row of the indexer. -/
theorem Sums.add (sums : e.Sums label rows) {row : AttentionRow}
    (own : labelOf profiles row.indexerAddress = label) :
    (e.add profiles row).Sums label (rows ++ [row]) := by
  rw [add_eq]
  constructor
  · have grown : rows ++ [row] ≠ [] := by simp
    rw [if_neg grown, own, sums.label]
    by_cases first : rows = []
    · rw [if_pos first, if_pos rfl]
    · rw [if_neg first, ite_self]
  · simp [sums.critical]
  · simp [sums.noData]
  · rw [sums.errors, total_concat, addI64_bmod]
    cases row.isAbout .servingErrors
    · simp
    · simp
  · rw [sums.behind, total_concat, addI64_bmod]
    cases row.isAbout .behindDeployments
    · simp
    · simp
  · simp [sums.head]

private theorem sums_foldl (own : ∀ row ∈ rows, labelOf profiles row.indexerAddress = label) :
    (rows.foldl (IndexerAlert.add profiles) .default).Sums label rows := by
  induction rows using List.reverseRecOn with
  | nil => exact ⟨rfl, rfl, rfl, rfl, rfl, rfl⟩
  | append_singleton earlier row ih =>
    rw [List.foldl_append]
    exact (ih fun other member => own other (List.mem_append_left _ member)).add (own row (by simp))

/-- The deployments that the alert counts for an issue. -/
def count (e : IndexerAlert) : Issue → Int
  | .servingErrors => e.servingErrDeps
  | .behindDeployments => e.behindDeps
  | _ => 0

/-- The alert has a phrase for the issue. -/
def shows (e : IndexerAlert) : Issue → Bool
  | .servingNoData => e.servingNoData
  | .servingErrors => 0 < e.servingErrDeps
  | .behindDeployments => 0 < e.behindDeps
  | .behindChainhead => e.behindHead

private theorem shows_of_perDeployment {issue : Issue} (counted : issue.perDeployment) :
    e.shows issue = decide (0 < e.count issue) := by
  cases issue with
  | servingErrors => rfl
  | behindDeployments => rfl
  | servingNoData => cases counted
  | behindChainhead => cases counted

/-- A count shown is the total of its issue, as far as 64 bits hold it. -/
theorem Sums.count (sums : e.Sums label rows) {issue : Issue} (counted : issue.perDeployment) :
    e.count issue = (issue.total rows).bmod (2 ^ 64) := by
  cases issue with
  | servingErrors => exact sums.errors
  | behindDeployments => exact sums.behind
  | servingNoData => cases counted
  | behindChainhead => cases counted

/-- A flag is shown when some row is about its issue. -/
theorem Sums.shows (sums : e.Sums label rows) {issue : Issue} (flag : issue.perDeployment = false) :
    e.shows issue = rows.any (AttentionRow.isAbout issue) := by
  cases issue with
  | servingNoData => exact sums.noData
  | behindChainhead => exact sums.head
  | servingErrors => cases flag
  | behindDeployments => cases flag

/-- The issues the alert has phrases for, with their counts. -/
def named (e : IndexerAlert) : List (Issue × Int) :=
  (Issue.inOrder.filter e.shows).map fun issue => (issue, e.count issue)

private theorem parts_eq (e : IndexerAlert) :
    e.parts = e.named.map fun entry => entry.1.phrase entry.2 := by
  have pushed (issue : Issue) : pushIf (e.shows issue) (issue.phrase (e.count issue)) =
      ([issue].filter e.shows).map fun issue => issue.phrase (e.count issue) := by
    cases shown : e.shows issue <;> simp [pushIf, shown]
  have split : Issue.inOrder = [.servingNoData] ++ [.servingErrors] ++ [.behindDeployments] ++
      [Issue.behindChainhead] := rfl
  rw [named, List.map_map, split, List.filter_append, List.filter_append, List.filter_append,
    List.map_append, List.map_append, List.map_append]
  exact congrArg₂ _ (congrArg₂ _ (congrArg₂ _ (pushed .servingNoData) (pushed .servingErrors))
    (pushed .behindDeployments)) (pushed .behindChainhead)

/-- A line is its lead and the summary of the issues it names. -/
theorem line_eq (e : IndexerAlert) : e.line = rosterLead e.critical e.label ++ summaryOf e.named := by
  rw [line, parts_eq, summaryOf]

/-- A line names the issues it shows, each with its count. -/
theorem mem_named {issue : Issue} {n : Int} :
    (issue, n) ∈ e.named ↔ e.shows issue ∧ e.count issue = n := by
  simp only [named, List.mem_map, List.mem_filter, Issue.mem_inOrder, true_and, Prod.mk.injEq]
  constructor
  · rintro ⟨_, shown, rfl, count⟩
    exact ⟨shown, count⟩
  · exact fun held => ⟨issue, held.1, rfl, held.2⟩

end IndexerAlert

end Alert

section Phrases

/-- The characters of a phrase. -/
def isPhraseChar (c : Char) : Bool := c.isLower || c == ' ' || isReprChar c

/-- The words that a phrase begins with. -/
def Issue.opening : Issue → List Char
  | servingNoData => "serving no data".toList
  | servingErrors => "serving errors on ".toList
  | behindDeployments => "behind on ".toList
  | behindChainhead => "behind chainhead".toList

/-- The number in a phrase, and what it counts. -/
def Issue.counted (issue : Issue) (n : Int) : List Char :=
  if issue.perDeployment then n.repr.toList ++ (" deployment".toList ++ (plural n).toList) else []

private theorem toList_phrase (issue : Issue) (n : Int) :
    (issue.phrase n).toList = issue.opening ++ issue.counted n := by
  have number (lead : String) : (lead ++ (n.repr ++ (" deployment" ++ plural n))).toList =
      lead.toList ++ (n.repr.toList ++ (" deployment".toList ++ (plural n).toList)) := by
    rw [String.toList_append, String.toList_append, String.toList_append]
  cases issue with
  | servingNoData => exact (List.append_nil _).symm
  | behindChainhead => exact (List.append_nil _).symm
  | servingErrors => exact number "serving errors on "
  | behindDeployments => exact number "behind on "

private theorem isPhraseChar_of_mem_phrase {issue : Issue} {n : Int} {c : Char}
    (member : c ∈ (issue.phrase n).toList) : isPhraseChar c := by
  have opening : issue.opening.all isPhraseChar := by cases issue <;> decide
  have counts : " deployment".toList.all isPhraseChar := by decide
  have ending : (plural n).toList.all isPhraseChar := by
    unfold plural
    split <;> decide
  rw [List.all_eq_true] at opening counts ending
  rw [toList_phrase, List.mem_append, Issue.counted] at member
  rcases member with begins | rest
  · exact opening c begins
  · split at rest
    · simp only [List.mem_append] at rest
      rcases rest with digit | word | plural
      · rw [isPhraseChar, isReprChar_of_mem_repr digit, Bool.or_true]
      · exact counts c word
      · exact ending c plural
    · cases rest

/-- The openings tell the issues apart, and each is long enough to do so. -/
theorem take_opening (issue : Issue) (rest : List Char) :
    (issue.opening ++ rest).take 10 = issue.opening.take 10 := by
  have long : 10 ≤ issue.opening.length := by cases issue <;> decide
  exact List.take_append_of_le_length long

/-- An issue is known by the first ten characters of its phrase. -/
theorem take_opening_inj {left right : Issue}
    (same : left.opening.take 10 = right.opening.take 10) : left = right := by
  revert same
  cases left <;> cases right <;> decide

/-- A phrase says which issue it is about and how many deployments have it. -/
theorem phrase_inj {left right : Issue} {n m : Int} (same : left.phrase n = right.phrase m) :
    left = right ∧ (left.perDeployment → n = m) := by
  have chars := congrArg String.toList same
  rw [toList_phrase, toList_phrase] at chars
  have openings : left.opening.take 10 = right.opening.take 10 := by
    rw [← take_opening left (left.counted n), chars, take_opening]
  obtain rfl := take_opening_inj openings
  refine ⟨rfl, fun counted => ?_⟩
  have numbers := List.append_cancel_left chars
  rw [Issue.counted, Issue.counted, if_pos counted, if_pos counted] at numbers
  have stops (n : Int) : ∀ c ∈ (" deployment".toList ++ (plural n).toList).head?,
      isReprChar c = false := by
    have head : (" deployment".toList ++ (plural n).toList).head? = some ' ' := rfl
    rw [head]
    rintro c ⟨⟩
    rfl
  exact (repr_append_inj (stops n) (stops m) numbers).1

private theorem phrase_eq_of_flag {issue : Issue} (flag : issue.perDeployment = false) (n m : Int) :
    issue.phrase n = issue.phrase m := by
  cases issue with
  | servingNoData => rfl
  | behindChainhead => rfl
  | servingErrors => cases flag
  | behindDeployments => cases flag

private theorem toList_summaryOf (named : List (Issue × Int)) : (summaryOf named).toList =
    [';', ' '].intercalate (named.map fun entry => (entry.1.phrase entry.2).toList) := by
  rw [summaryOf, String.toList_intercalate, List.map_map]
  rfl

private theorem star_notMem_summaryOf (named : List (Issue × Int)) :
    '*' ∉ (summaryOf named).toList := by
  have phrases : ∀ word ∈ named.map (fun entry => (entry.1.phrase entry.2).toList), '*' ∉ word := by
    intro word listed star
    obtain ⟨entry, _, rfl⟩ := List.mem_map.mp listed
    exact absurd (isPhraseChar_of_mem_phrase star) (by decide)
  rw [toList_summaryOf]
  cases named with
  | nil => exact List.not_mem_nil
  | cons entry rest =>
    rw [List.map_cons, intercalate_eq_append_flatMap, List.mem_append, List.mem_flatMap]
    rw [List.map_cons, List.forall_mem_cons] at phrases
    rintro (first | ⟨word, listed, inside⟩)
    · exact phrases.1 first
    · rcases List.mem_append.mp inside with separator | later
      · exact absurd separator (by decide)
      · exact phrases.2 word listed later

/-- Two summaries with the same text have the same phrases. -/
theorem summaryOf_inj {left right : List (Issue × Int)} (same : summaryOf left = summaryOf right) :
    (left.map fun entry => entry.1.phrase entry.2) =
      right.map fun entry => entry.1.phrase entry.2 := by
  have plain (named : List (Issue × Int)) :
      ∀ word ∈ named.map (fun entry => (entry.1.phrase entry.2).toList), word ≠ [] ∧ ';' ∉ word := by
    intro word listed
    obtain ⟨entry, _, rfl⟩ := List.mem_map.mp listed
    constructor
    · rw [toList_phrase]
      cases entry.1 <;> exact List.append_ne_nil_of_left_ne_nil (by decide) _
    · exact fun mark => absurd (isPhraseChar_of_mem_phrase mark) (by decide)
  have words := congrArg String.toList same
  rw [toList_summaryOf, toList_summaryOf] at words
  have listed := words_intercalate_inj (plain left) (plain right) words
  have strings (named : List (Issue × Int)) :
      (named.map fun entry => (entry.1.phrase entry.2).toList) =
        (named.map fun entry => entry.1.phrase entry.2).map String.toList := by
    rw [List.map_map]
    rfl
  rw [strings, strings] at listed
  exact List.map_injective_iff.mpr (fun _ _ => String.toList_injective) listed

/-- The last asterisk of a line is where its summary begins, whatever the label. -/
theorem rosterLine_inj {critical other : Bool} {label name : String}
    {left right : List (Issue × Int)}
    (same : rosterLead critical label ++ summaryOf left = rosterLead other name ++ summaryOf right) :
    summaryOf left = summaryOf right := by
  have cut (critical : Bool) (label : String) (named : List (Issue × Int)) :
      ∃ front, (rosterLead critical label ++ summaryOf named).toList =
        front ++ '*' :: (" — ".toList ++ (summaryOf named).toList) := by
    refine ⟨((if critical then "🔴" else "🟠") ++ " **" ++ label ++ "*").toList, ?_⟩
    have stars : "** — ".toList = "*".toList ++ ('*' :: " — ".toList) := rfl
    rw [rosterLead]
    simp only [String.toList_append, List.append_assoc, stars, List.cons_append]
  obtain ⟨front, shape⟩ := cut critical label left
  obtain ⟨back, otherShape⟩ := cut other name right
  have free (named : List (Issue × Int)) :
      '*' ∉ (" — ".toList ++ (summaryOf named).toList).reverse := by
    rw [List.mem_reverse, List.mem_append, not_or]
    exact ⟨by decide, star_notMem_summaryOf named⟩
  have chars := congrArg List.reverse (congrArg String.toList same)
  rw [shape, otherShape, List.reverse_append, List.reverse_append, List.reverse_cons,
    List.reverse_cons, List.append_assoc, List.append_assoc] at chars
  have tails := (word_append_inj (free left) (free right) (by simp) (by simp) chars).1
  exact String.toList_injective (List.append_cancel_left (List.reverse_injective tails))

end Phrases

section Lines

variable {profiles : ProfileTable} {orders : RosterOrders} {content : AttentionTable}

/-- The failing indexers are those with alerting rows. -/
theorem mem_failing {address : String} :
    address ∈ content.failing ↔ content.alerting address ≠ [] := by
  rw [AttentionTable.failing, List.mem_dedup, AttentionTable.alerting, ne_eq,
    List.filter_eq_nil_iff, List.mem_map]
  simp only [decide_eq_true_eq, not_forall, not_not, exists_prop]

/-- There is one line for each indexer, which says what its rows amount to. -/
theorem exists_alerts (profiles : ProfileTable) (orders : RosterOrders) (content : AttentionTable) :
    ∃ alertOf : String → IndexerAlert,
      (currentFailureRoster profiles orders content).lines.Perm
        (content.failing.map fun address => (alertOf address).line) ∧
      ∀ address, (alertOf address).Sums (labelOf profiles address) (content.alerting address) := by
  let passing := content.rows.filter AttentionRow.passesAlertFilter
  let pairs := (orders.rows.arrange passing).map fun row => (row.indexerAddress, row)
  let alertOf (address : String) : IndexerAlert :=
    (valuesAt pairs address).foldl (IndexerAlert.add profiles) .default
  refine ⟨alertOf, ?_, fun address => ?_⟩
  · have keys : (pairs.map Prod.fst).dedup.Perm content.failing := by
      rw [List.map_map]
      exact ((orders.rows.perm passing).map _).dedup
    have grouped : ((orders.alerts.arrange (rosterAlerts profiles (orders.rows.arrange passing)).rows).map
        Prod.snd).Perm (content.failing.map alertOf) := by
      refine ((orders.alerts.perm _).map Prod.snd).trans ?_
      refine ((accumulate_perm _ _ pairs).map Prod.snd).trans ?_
      rw [List.map_map]
      exact keys.map alertOf
    have sorted := ((List.mergeSort_perm _ fun a b => (IndexerAlert.order a b).isLE).trans
      grouped).map IndexerAlert.line
    rw [List.map_map] at sorted
    exact sorted
  · have values : valuesAt pairs address =
        (orders.rows.arrange passing).filter fun row => row.indexerAddress = address := by
      rw [valuesAt, List.filter_map, List.map_map]
      exact List.map_id _
    have own : ∀ row ∈ valuesAt pairs address, labelOf profiles row.indexerAddress =
        labelOf profiles address := by
      rw [values]
      intro row listed
      rw [of_decide_eq_true (List.mem_filter.mp listed).2]
    refine (IndexerAlert.sums_foldl own).perm ?_
    rw [values]
    exact (orders.rows.perm passing).filter _

/-- An issue that some row is about has its total on the alert, and the total is not zero. -/
theorem count_of_nameable {address : String} {e : IndexerAlert} (nameable : Nameable content)
    (sums : e.Sums (labelOf profiles address) (content.alerting address)) {issue : Issue}
    (counted : issue.perDeployment = true)
    (raised : (content.alerting address).any (AttentionRow.isAbout issue) = true) :
    e.count issue = issue.total (content.alerting address) ∧
      0 < issue.total (content.alerting address) := by
  obtain ⟨positive, small⟩ := nameable.totals address issue counted raised
  refine ⟨?_, positive⟩
  rw [sums.count counted, Int.bmod_eq_of_le (by omega) (by omega)]

/-- Where the rows of an indexer can be named, its alert names them. -/
theorem namesAll_of_nameable {address : String} {e : IndexerAlert} (nameable : Nameable content)
    (failing : address ∈ content.failing)
    (sums : e.Sums (labelOf profiles address) (content.alerting address)) :
    NamesAll profiles content address e.line := by
  have some_rows := mem_failing.mp failing
  have named : ∀ row ∈ content.alerting address, ∃ issue, Issue.ofKind row.kind = some issue ∧
      (issue, issue.total (content.alerting address)) ∈
        (Issue.inOrder.filter e.shows).map fun issue => (issue, issue.total (content.alerting address)) := by
    intro row listed
    have passing := (List.mem_filter.mp (List.mem_filter.mp listed).1)
    obtain ⟨issue, about⟩ := Option.isSome_iff_exists.mp (nameable.kinds row passing.1 passing.2)
    have raised : (content.alerting address).any (AttentionRow.isAbout issue) = true :=
      List.any_eq_true.mpr ⟨row, listed, decide_eq_true about⟩
    have shown : e.shows issue := by
      cases counted : issue.perDeployment with
      | false => rw [sums.shows counted, raised]
      | true =>
        obtain ⟨total, positive⟩ := count_of_nameable nameable sums counted raised
        rw [IndexerAlert.shows_of_perDeployment counted, total]
        exact decide_eq_true positive
    exact ⟨issue, about, List.mem_map_of_mem (List.mem_filter.mpr ⟨Issue.mem_inOrder issue, shown⟩)⟩
  refine ⟨_, ?_, ?_, named⟩
  · obtain ⟨row, listed⟩ := List.exists_mem_of_ne_nil _ some_rows
    obtain ⟨_, _, member⟩ := named row listed
    exact List.ne_nil_of_mem member
  · -- A count that is shown is the total, and the other phrases have no number.
    have same : ∀ issue ∈ Issue.inOrder.filter e.shows, issue.phrase (e.count issue) =
        issue.phrase (issue.total (content.alerting address)) := by
      intro issue listed
      have shown := (List.mem_filter.mp listed).2
      cases counted : issue.perDeployment with
      | false => exact phrase_eq_of_flag counted _ _
      | true =>
        rw [IndexerAlert.shows_of_perDeployment counted, sums.count counted] at shown
        have raised : (content.alerting address).any (AttentionRow.isAbout issue) = true := by
          by_contra quiet
          have none : (content.alerting address).filter (AttentionRow.isAbout issue) = [] := by
            simpa using quiet
          rw [Issue.total, none] at shown
          exact absurd shown (by decide)
        rw [(count_of_nameable nameable sums counted raised).1]
    rw [IndexerAlert.line_eq, sums.label, if_neg some_rows, sums.critical, summaryOf, summaryOf,
      IndexerAlert.named, List.map_map, List.map_map]
    exact congrArg _ (congrArg _ (List.map_congr_left same))

/-- A number that a line tells is positive and fits the counter. -/
theorem bounds_of_namesAll {label : String} {rows : List AttentionRow} {e : IndexerAlert}
    {named : List (Issue × Int)} {issue : Issue} {n : Int} (sums : e.Sums label rows)
    (same : summaryOf e.named = summaryOf named) (counted : issue.perDeployment)
    (told : (issue, n) ∈ named) : 0 < n ∧ n < 2 ^ 63 := by
  have listed : issue.phrase n ∈ e.named.map fun entry => entry.1.phrase entry.2 := by
    rw [summaryOf_inj same]
    exact List.mem_map_of_mem told
  obtain ⟨⟨other, m⟩, shown, phrases⟩ := List.mem_map.mp listed
  obtain ⟨rfl, numbers⟩ := phrase_inj phrases
  obtain ⟨shows, rfl⟩ := IndexerAlert.mem_named.mp shown
  rw [← numbers counted]
  rw [IndexerAlert.shows_of_perDeployment counted, sums.count counted] at shows
  rw [sums.count counted]
  exact ⟨of_decide_eq_true shows, Int.bmod_lt (by decide)⟩

/-- If nothing is hidden, every row is of an issue the summary can name. -/
theorem nameable_of_hidesNothing
    (hides : HidesNothing profiles content (currentFailureRoster profiles orders content).lines) :
    Nameable content := by
  obtain ⟨alertOf, lines, sums⟩ := exists_alerts profiles orders content
  obtain ⟨lineOf, perm, names⟩ := hides
  constructor
  · intro row listed passes
    have own : row ∈ content.alerting row.indexerAddress :=
      List.mem_filter.mpr ⟨List.mem_filter.mpr ⟨listed, passes⟩, decide_eq_true rfl⟩
    obtain ⟨_, _, _, covers⟩ := names _ (mem_failing.mpr (List.ne_nil_of_mem own))
    obtain ⟨_, about, _⟩ := covers row own
    exact Option.isSome_iff_exists.mpr ⟨_, about⟩
  · intro address issue counted raised
    obtain ⟨row, own, about⟩ := List.any_eq_true.mp raised
    have failing := mem_failing.mpr (List.ne_nil_of_mem own)
    obtain ⟨named, _, text, covers⟩ := names _ failing
    obtain ⟨_, same, told⟩ := covers row own
    obtain rfl := Option.some.inj (same.symm.trans (of_decide_eq_true about))
    -- The line is that of some indexer, whose summary then has the same phrases.
    have written : lineOf address ∈ content.failing.map fun address => (alertOf address).line :=
      lines.mem_iff.mp (perm.mem_iff.mpr (List.mem_map_of_mem failing))
    obtain ⟨other, _, line⟩ := List.mem_map.mp written
    rw [IndexerAlert.line_eq, text] at line
    exact bounds_of_namesAll (sums other) (rosterLine_inj line) counted told

/-- The roster hides nothing exactly when every row that passes the filter is of a kind with a
phrase, and the deployments of an indexer come to a positive number that fits the counter. -/
theorem hidesNothing_iff_nameable (profiles : ProfileTable) (orders : RosterOrders)
    (content : AttentionTable) :
    HidesNothing profiles content (currentFailureRoster profiles orders content).lines ↔
      Nameable content := by
  refine ⟨nameable_of_hidesNothing, fun nameable => ?_⟩
  obtain ⟨alertOf, lines, sums⟩ := exists_alerts profiles orders content
  exact ⟨_, lines, fun address failing => namesAll_of_nameable nameable failing (sums address)⟩

/-- The one item of an indexer that served divergent data. -/
def badDataContent : AttentionTable where
  rows := [⟨"0x1", "serving-bad-data", "", "critical",
    .object [("faults", .ofInt 3), ("probes", .ofInt 5)]⟩]
  unique := List.nodup_singleton _

/-- Its line names nothing. -/
theorem badData_hidden :
    (currentFailureRoster Table.empty ⟨.asInserted, .asInserted⟩ badDataContent).lines =
        ["🔴 **0x1** — "] ∧
      ¬ HidesNothing Table.empty badDataContent
        (currentFailureRoster Table.empty ⟨.asInserted, .asInserted⟩ badDataContent).lines := by
  refine ⟨?_, fun hides => ?_⟩
  · exact congrArg (List.map IndexerAlert.line)
      (List.mergeSort_singleton ⟨"0x1", true, false, 0, 0, false⟩)
  have kind := (nameable_of_hidesNothing hides).kinds _ List.mem_cons_self rfl
  cases kind

end Lines

section Stored

variable {crates : Crates} {cycle : ScoreCycle} {item : AttentionItem}

def AttentionRow.ofItem (item : AttentionItem) : AttentionRow :=
  ⟨item.indexerAddress, item.kind, item.deploymentId, item.severity.asStr, item.detail⟩

/-- What the alerter reads of the items that the scorer stored. -/
def attentionContent
    (items : SeenTable AttentionItem (String × String × String) AttentionItem.key) :
    AttentionTable where
  rows := items.rows.map fun row => .ofItem row.finding
  unique := by
    rw [List.map_map]
    exact items.unique

/-- Of what a cycle raises only divergent data has no phrase, and it is critical. -/
theorem named_or_badData (raised : item ∈ cycle.attention crates) :
    (Issue.ofKind item.kind).isSome ∨ item.kind = "serving-bad-data" ∧ item.severity = .critical := by
  rcases List.mem_append.mp raised with judged | found
  · obtain ⟨evaluation, _, emitted⟩ := ScoreCycle.exists_of_mem_judgedItems judged
    rcases (mem_attention_judge emitted).1 with kind | kind | kind
    · exact Or.inl (by rw [kind]; rfl)
    · exact Or.inr ⟨kind, critical_of_badData emitted kind⟩
    · exact Or.inl (by rw [kind]; rfl)
  · have named : ∀ kind ∈ allocationKinds, (Issue.ofKind kind).isSome := by decide
    rcases ScoreCycle.fromServing_of_mem_issues found with serving | behind
    · exact Or.inl (named _ serving.kind)
    · exact Or.inl (named _ behind.kind)

/-- When the table holds the items of a cycle, the roster has a phrase for each exactly when the
cycle found no divergent data. -/
theorem kinds_iff_no_badData
    {before after : SeenTable AttentionItem (String × String × String) AttentionItem.key}
    (held : SeenTable.HoldsExactly (cycle.attention crates) before after) :
    (∀ row ∈ attentionContent after, row.passesAlertFilter → (Issue.ofKind row.kind).isSome) ↔
      ∀ item ∈ cycle.attention crates, item.kind ≠ "serving-bad-data" := by
  constructor
  · intro named item raised badData
    obtain ⟨last, reported⟩ : ∃ last,
        lastUnder AttentionItem.key item.key (cycle.attention crates) = some last :=
      exists_lastUnder raised
    have current := held.current item.key
    rw [reported] at current
    obtain ⟨row, found, rfl⟩ := Option.map_eq_some_iff.mp current
    obtain ⟨listed, sameKey⟩ := mem_of_lastUnder reported
    have kind : row.finding.kind = "serving-bad-data" :=
      (congrArg (fun key => key.2.1) sameKey).trans badData
    have content : AttentionRow.ofItem row.finding ∈ attentionContent after :=
      List.mem_map.mpr ⟨row, Table.mem_of_lookup found, rfl⟩
    have passing := named _ content
    rcases named_or_badData listed with phrased | ⟨_, critical⟩
    · rw [kind] at phrased
      cases phrased
    · have passes : (AttentionRow.ofItem row.finding).passesAlertFilter := by
        simp [AttentionRow.passesAlertFilter, AttentionRow.isCritical, AttentionRow.ofItem, critical,
          Severity.asStr]
      have phrased : (Issue.ofKind row.finding.kind).isSome := passing passes
      rw [kind] at phrased
      cases phrased
  · intro clean row listed _
    obtain ⟨stored, member, rfl⟩ := List.mem_map.mp listed
    have raised := held.mem member
    exact (named_or_badData raised).resolve_right fun badData => clean _ raised badData.1

end Stored

end Foghorn.Probe
