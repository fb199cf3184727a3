import Foghorn.Std.Program
import Foghorn.Std.Table

/-!
# Findings kept by reporting and sweeping

A monitor reports each finding of a cycle under its key, which stamps the row of that
key and inserts one where there is none, and then sweeps the rows that the cycle did not
stamp. Under a key is left what was reported last, known since it was first seen, or else
the old row if its stamp is recent enough to escape the sweep.
-/

namespace Foghorn.Std

variable {Finding Key : Type}

/-- The last of a list under a key. -/
def lastUnder [DecidableEq Key] (key : Finding → Key) (wanted : Key) (findings : List Finding) :
    Option Finding :=
  (findings.filter fun finding => key finding = wanted).getLast?

section LastUnder

variable [DecidableEq Key] {key : Finding → Key} {wanted : Key} {findings : List Finding}

/-- The last finding is the last of its own key. -/
theorem lastUnder_concat (last : Finding) :
    lastUnder key wanted (findings ++ [last]) =
      if key last = wanted then some last else lastUnder key wanted findings := by
  by_cases hit : key last = wanted <;> simp [lastUnder, hit]

/-- A key has no last finding exactly when none has the key. -/
theorem lastUnder_eq_none_iff :
    lastUnder key wanted findings = none ↔ ∀ finding ∈ findings, key finding ≠ wanted := by
  simp [lastUnder]

/-- The last finding can be looked for before or after a map that keeps the key. -/
theorem lastUnder_map {Stamped : Type} (read : Stamped → Finding) (stamped : List Stamped) :
    (lastUnder (fun entry => key (read entry)) wanted stamped).map read =
      lastUnder key wanted (stamped.map read) := by
  rw [lastUnder, lastUnder, List.filter_map, List.getLast?_map]
  rfl

/-- The last finding under a key is one of the findings, and has that key. -/
theorem mem_of_lastUnder {finding : Finding} (found : lastUnder key wanted findings = some finding) :
    finding ∈ findings ∧ key finding = wanted := by
  have member := List.mem_of_getLast? found
  simpa using member

/-- A key that occurs has a last finding. -/
theorem exists_lastUnder {finding : Finding} (member : finding ∈ findings) :
    ∃ last, lastUnder key (key finding) findings = some last := by
  cases found : lastUnder key (key finding) findings with
  | none => exact absurd rfl (lastUnder_eq_none_iff.mp found finding member)
  | some last => exact ⟨last, rfl⟩

end LastUnder

/-- Write each row over what its key holds. -/
def putAll [DecidableEq Key] {key : Finding → Key} (rows : List Finding)
    (table : Table Finding Key key) : Table Finding Key key :=
  runAll (fun row table => table.upsert row (fun _ => row) (fun _ _ => rfl)) rows table

/-- After all are put, a key has its last finding, or what was there. -/
theorem lookup_putAll [DecidableEq Key] {key : Finding → Key} (rows : List Finding)
    (table : Table Finding Key key) (wanted : Key) :
    (putAll rows table).lookup wanted = (lastUnder key wanted rows).or (table.lookup wanted) := by
  induction rows using List.reverseRecOn with
  | nil => rfl
  | append_singleton earlier row ih =>
    have put : (putAll (earlier ++ [row]) table).lookup wanted =
        if wanted = key row then
          some ((((putAll earlier table).lookup wanted).map fun _ => row).getD row)
        else (putAll earlier table).lookup wanted := by
      rw [putAll, runAll_concat, Table.lookup_upsert]
      rfl
    rw [put, lastUnder_concat]
    by_cases hit : key row = wanted
    · subst hit
      cases (putAll earlier table).lookup (key row) <;> simp
    · have miss : ¬ wanted = key row := fun same => hit same.symm
      rw [if_neg miss, if_neg hit, ih]

/-- A finding with the times of its first and its last report. -/
structure Seen (Finding : Type) where
  finding : Finding
  firstSeen : Int
  lastSeen : Int

abbrev SeenTable (Finding Key : Type) (key : Finding → Key) :=
  Table (Seen Finding) Key fun row => key row.finding

/-- A finding and when it is reported. -/
abbrev Report (Finding : Type) := Int × Finding

namespace SeenTable

variable [DecidableEq Key] {key : Finding → Key}

/-- Stamp the row of a finding, or insert it. -/
def report (entry : Report Finding) (table : SeenTable Finding Key key) : SeenTable Finding Key key :=
  table.upsert ⟨entry.2, entry.1, entry.1⟩ (fun old => ⟨entry.2, old.firstSeen, entry.1⟩)
    (fun _ _ => rfl)

/-- What is left of a row by a sweep is the row itself exactly if it is recent enough. -/
theorem filter_eq_self_iff {stored : Option (Seen Finding)} {start : Int} :
    (stored.filter fun row => start ≤ row.lastSeen) = stored ↔
      ∀ row ∈ stored, start ≤ row.lastSeen := by
  cases stored with
  | none => simp
  | some row => simp [Option.filter]

/-- Delete what was last seen before `start`. -/
def sweep (start : Int) (table : SeenTable Finding Key key) : SeenTable Finding Key key :=
  table.deleteWhere fun row => row.lastSeen < start

def reportAll (reports : List (Report Finding)) (table : SeenTable Finding Key key) :
    SeenTable Finding Key key :=
  runAll report reports table

variable {table : SeenTable Finding Key key} {reports : List (Report Finding)} {wanted : Key}
  {start : Int}

private theorem lookup_report (entry : Report Finding) :
    (report entry table).lookup wanted =
      if wanted = key entry.2 then
        some (((table.lookup wanted).map fun old => ⟨entry.2, old.firstSeen, entry.1⟩).getD
          ⟨entry.2, entry.1, entry.1⟩)
      else table.lookup wanted :=
  Table.lookup_upsert

private theorem lookup_sweep :
    (table.sweep start).lookup wanted =
      (table.lookup wanted).filter fun row => start ≤ row.lastSeen := by
  rw [sweep, Table.lookup_deleteWhere]
  simp only [← decide_not, Int.not_lt]

/-- Nothing moves under a key that nobody reports. -/
theorem lookup_reportAll_of_unreported
    (unreported : lastUnder (fun entry => key entry.2) wanted reports = none) :
    (reportAll reports table).lookup wanted = table.lookup wanted := by
  rw [lastUnder_eq_none_iff] at unreported
  apply runAll_frame (fun reached : SeenTable Finding Key key => reached.lookup wanted)
  intro entry member reached
  rw [lookup_report, if_neg fun same => unreported entry member same.symm]

/-- Under a reported key stands the last report, stamped with its time, and the first time
it was seen does not move. -/
theorem lookup_reportAll_of_reported {last : Report Finding}
    (reported : lastUnder (fun entry => key entry.2) wanted reports = some last) :
    ∃ row, (reportAll reports table).lookup wanted = some row ∧ row.finding = last.2 ∧
      row.lastSeen = last.1 ∧ ∀ old ∈ table.lookup wanted, row.firstSeen = old.firstSeen := by
  induction reports using List.reverseRecOn generalizing last with
  | nil => cases reported
  | append_singleton earlier entry ih =>
    rw [lastUnder_concat] at reported
    rw [reportAll, runAll_concat, lookup_report]
    by_cases hit : key entry.2 = wanted
    · rw [if_pos hit] at reported
      obtain rfl := Option.some.inj reported
      subst hit
      rw [if_pos rfl]
      refine ⟨_, rfl, ?_⟩
      cases before : lastUnder (fun entry => key entry.2) (key entry.2) earlier with
      | some previous =>
        obtain ⟨row, found, _, _, kept⟩ := ih before
        rw [reportAll] at found
        simpa [found] using kept
      | none =>
        have untouched : (runAll report earlier table).lookup (key entry.2) =
            table.lookup (key entry.2) := lookup_reportAll_of_unreported before
        rw [untouched]
        cases stored : table.lookup (key entry.2) <;> simp
    · rw [if_neg hit] at reported
      rw [if_neg fun same => hit same.symm]
      exact ih reported

/-- Under a key that a cycle did not report, a row survives exactly if it is recent enough. -/
theorem lookup_cycle_of_unreported (unreported : lastUnder key wanted (reports.map Prod.snd) = none) :
    ((reportAll reports table).sweep start).lookup wanted =
      (table.lookup wanted).filter fun row => start ≤ row.lastSeen := by
  rw [← lastUnder_map, Option.map_eq_none_iff] at unreported
  rw [lookup_sweep, lookup_reportAll_of_unreported unreported]

/-- Under a key that it did report stands the last report, which no sweep of its own reaches,
and the first time it was seen does not move. -/
theorem lookup_cycle_of_reported (stamped : ∀ entry ∈ reports, start ≤ entry.1) {finding : Finding}
    (reported : lastUnder key wanted (reports.map Prod.snd) = some finding) :
    ∃ row, ((reportAll reports table).sweep start).lookup wanted = some row ∧
      row.finding = finding ∧ ∀ old ∈ table.lookup wanted, row.firstSeen = old.firstSeen := by
  rw [← lastUnder_map, Option.map_eq_some_iff] at reported
  obtain ⟨last, lastReported, rfl⟩ := reported
  obtain ⟨row, found, same, seen, kept⟩ := lookup_reportAll_of_reported lastReported
  have recent : start ≤ row.lastSeen := seen ▸ stamped last (mem_of_lastUnder lastReported).1
  refine ⟨row, ?_, same, kept⟩
  rw [lookup_sweep, found]
  simpa [Option.filter] using recent

/-- A row after a report was there before or carries the time of the report. -/
theorem lastSeen_report {entry : Report Finding} {row : Seen Finding}
    (member : row ∈ report entry table) : row ∈ table ∨ row.lastSeen = entry.1 := by
  rw [report, Table.mem_upsert] at member
  rcases member with ⟨old, _⟩ | ⟨_, _, _, rfl⟩ | ⟨_, rfl⟩
  · exact Or.inl old
  · exact Or.inr rfl
  · exact Or.inr rfl

/-- The table holds what was reported last under each key and nothing else, and what was
already there keeps the time it was first seen. -/
structure HoldsExactly (findings : List Finding) (before after : SeenTable Finding Key key) : Prop where
  current : ∀ wanted, (after.lookup wanted).map Seen.finding = lastUnder key wanted findings
  kept : ∀ wanted, ∀ old ∈ before.lookup wanted, ∀ row ∈ after.lookup wanted,
    row.firstSeen = old.firstSeen

/-- Only findings are held. -/
theorem HoldsExactly.mem {findings : List Finding} {before after : SeenTable Finding Key key}
    (exact : HoldsExactly findings before after) {row : Seen Finding} (member : row ∈ after) :
    row.finding ∈ findings := by
  have last := exact.current (key row.finding)
  rw [Table.lookup_of_mem member] at last
  exact (mem_of_lastUnder last.symm).1

/-- A cycle over a table that is older than it leaves its own findings. -/
theorem holdsExactly_cycle (stamped : ∀ entry ∈ reports, start ≤ entry.1)
    (older : ∀ row ∈ table, row.lastSeen < start) :
    HoldsExactly (reports.map Prod.snd) table ((reportAll reports table).sweep start) where
  current := by
    intro wanted
    cases reported : lastUnder key wanted (reports.map Prod.snd) with
    | none =>
      rw [lookup_cycle_of_unreported reported, Option.map_eq_none_iff, Option.filter_eq_none_iff]
      intro row found
      simpa using older row (Table.mem_of_lookup found)
    | some last =>
      obtain ⟨row, found, rfl, _⟩ := lookup_cycle_of_reported stamped reported
      rw [found]
      rfl
  kept := by
    intro wanted old before row after
    cases reported : lastUnder key wanted (reports.map Prod.snd) with
    | none =>
      rw [lookup_cycle_of_unreported reported, before] at after
      obtain rfl := Option.some.inj (Option.eq_some_of_filter_eq_some after)
      rfl
    | some last =>
      obtain ⟨top, found, _, kept⟩ := lookup_cycle_of_reported stamped reported
      rw [found] at after
      obtain rfl := Option.some.inj after
      exact kept old before

end SeenTable

end Foghorn.Std
