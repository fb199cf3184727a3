import Mathlib.Data.List.Nodup
import Mathlib.Data.List.Basic
import Mathlib.Data.List.Induction

/-!
# Keyed tables

A table is a list of rows under a primary key. `Table.unique` is part of the
value, so no operation can produce two rows under one key. The three write
operations are those of SQL: insert unless the key is taken, insert or update the
row that holds the key, and delete by predicate. Each has one membership lemma,
and callers reason by membership rather than by row order. `Serial` adds a key
sequence that never repeats.
-/

namespace Foghorn.Std

/-- Rows under a primary key. -/
structure Table (Row Key : Type) (key : Row → Key) where
  rows : List Row
  unique : (rows.map key).Nodup

namespace Table

variable {Row Key : Type} {key : Row → Key}

instance : Membership Row (Table Row Key key) := ⟨fun table row => row ∈ table.rows⟩

/-- A row belongs to a table when it is among its rows. -/
theorem mem_rows {table : Table Row Key key} {row : Row} : row ∈ table.rows ↔ row ∈ table :=
  Iff.rfl

/-- The table without rows. -/
def empty : Table Row Key key := ⟨[], by simp⟩

@[simp] theorem rows_empty : (empty : Table Row Key key).rows = [] := rfl

@[simp] theorem not_mem_empty (row : Row) : row ∉ (empty : Table Row Key key) := by
  simp [← mem_rows]

/-- A primary key determines its row. -/
theorem eq_of_key_eq {table : Table Row Key key} {first second : Row}
    (left : first ∈ table) (right : second ∈ table) (same : key first = key second) :
    first = second :=
  List.inj_on_of_nodup_map table.unique left right same

variable [DecidableEq Key]

/-- The row that holds a key. -/
def lookup (table : Table Row Key key) (wanted : Key) : Option Row :=
  table.rows.find? fun row => decide (key row = wanted)

/-- A key is not found exactly when no row has it. -/
theorem lookup_eq_none_iff {table : Table Row Key key} {wanted : Key} :
    table.lookup wanted = none ↔ ∀ row ∈ table, key row ≠ wanted := by
  simp [lookup, ← mem_rows]

/-- What is found is in the table. -/
theorem mem_of_lookup {table : Table Row Key key} {wanted : Key} {row : Row}
    (found : table.lookup wanted = some row) : row ∈ table :=
  List.mem_of_find?_eq_some found

/-- What is found has the key looked for. -/
theorem key_of_lookup {table : Table Row Key key} {wanted : Key} {row : Row}
    (found : table.lookup wanted = some row) : key row = wanted := by
  simpa using List.find?_some found

/-- A row is found exactly when it is in the table under the key. -/
theorem lookup_eq_some_iff {table : Table Row Key key} {wanted : Key} {row : Row} :
    table.lookup wanted = some row ↔ row ∈ table ∧ key row = wanted := by
  refine ⟨fun found => ⟨mem_of_lookup found, key_of_lookup found⟩, ?_⟩
  rintro ⟨member, rfl⟩
  cases found : table.lookup (key row) with
  | none => exact absurd rfl (lookup_eq_none_iff.mp found row member)
  | some other =>
    rw [eq_of_key_eq (mem_of_lookup found) member (key_of_lookup found)]

/-- A row is in a table exactly when its own key finds it. -/
theorem mem_iff_lookup {table : Table Row Key key} {row : Row} :
    row ∈ table ↔ table.lookup (key row) = some row := by
  rw [lookup_eq_some_iff, and_iff_left rfl]

/-- A row of the table is found by its key. -/
theorem lookup_of_mem {table : Table Row Key key} {row : Row} (member : row ∈ table) :
    table.lookup (key row) = some row :=
  lookup_eq_some_iff.mpr ⟨member, rfl⟩

@[simp] theorem lookup_empty (wanted : Key) :
    (empty : Table Row Key key).lookup wanted = none := rfl

/-- Whether some row holds the key. -/
def holds (table : Table Row Key key) (wanted : Key) : Prop :=
  wanted ∈ table.rows.map key

instance (table : Table Row Key key) (wanted : Key) : Decidable (table.holds wanted) :=
  inferInstanceAs (Decidable (wanted ∈ table.rows.map key))

omit [DecidableEq Key] in
/-- A table holds a key when some row has it. -/
theorem holds_iff {table : Table Row Key key} {wanted : Key} :
    table.holds wanted ↔ ∃ row ∈ table, key row = wanted := by
  simp [holds, ← mem_rows]

omit [DecidableEq Key] in
/-- A table holds the keys of its rows. -/
theorem holds_of_mem {table : Table Row Key key} {row : Row} (member : row ∈ table) :
    table.holds (key row) :=
  holds_iff.mpr ⟨row, member, rfl⟩

/-- A key is not held exactly when it is not found. -/
theorem not_holds_iff_lookup {table : Table Row Key key} {wanted : Key} :
    ¬ table.holds wanted ↔ table.lookup wanted = none := by
  simp [holds_iff, lookup_eq_none_iff]

/-- `INSERT .. ON CONFLICT DO NOTHING`. -/
def insertNew (table : Table Row Key key) (row : Row) : Table Row Key key :=
  if taken : table.holds (key row) then table
  else ⟨table.rows ++ [row], by
    rw [List.map_append, List.map_singleton]
    refine List.Nodup.append table.unique (by simp) ?_
    intro wanted old new
    exact taken (List.mem_singleton.mp new ▸ old)⟩

/-- An insert under a taken key does nothing. -/
theorem insertNew_of_holds {table : Table Row Key key} {row : Row}
    (taken : table.holds (key row)) : table.insertNew row = table := by
  simp [insertNew, taken]

/-- An insert under a free key puts the row last. -/
theorem rows_insertNew {table : Table Row Key key} {row : Row}
    (free : ¬ table.holds (key row)) : (table.insertNew row).rows = table.rows ++ [row] := by
  simp [insertNew, free]

/-- After an insert the rows are those before, and the new one if its key was free. -/
theorem mem_insertNew {table : Table Row Key key} {row other : Row} :
    other ∈ table.insertNew row ↔ other ∈ table ∨ ¬ table.holds (key row) ∧ other = row := by
  by_cases taken : table.holds (key row)
  · simp [insertNew_of_holds taken, taken]
  · simp [← mem_rows, rows_insertNew taken, taken]

/-- After an insert a key finds what it found before, else the new row under its own key. -/
theorem lookup_insertNew {table : Table Row Key key} {row : Row} {wanted : Key} :
    (table.insertNew row).lookup wanted =
      (table.lookup wanted).or (if key row = wanted then some row else none) := by
  by_cases taken : table.holds (key row)
  · rw [insertNew_of_holds taken]
    by_cases hit : key row = wanted
    · cases found : table.lookup wanted with
      | some old => rfl
      | none => exact absurd (hit ▸ taken) (not_holds_iff_lookup.mpr found)
    · simp [hit]
  · rw [lookup, rows_insertNew taken, List.find?_append, ← lookup]
    simp

/-- An insert keeps the rows in their order. -/
theorem sublist_insertNew {table : Table Row Key key} {row : Row} :
    table.rows.Sublist (table.insertNew row).rows := by
  by_cases taken : table.holds (key row)
  · rw [insertNew_of_holds taken]
  · rw [rows_insertNew taken]
    exact List.sublist_append_left _ _

/-- Insert rows one after the other, each unless its key is taken. -/
def insertAll (table : Table Row Key key) (rows : List Row) : Table Row Key key :=
  rows.foldl insertNew table

/-- Inserting many is inserting the first and then the rest. -/
theorem insertAll_cons {table : Table Row Key key} {row : Row} {rows : List Row} :
    table.insertAll (row :: rows) = (table.insertNew row).insertAll rows := rfl

/-- Inserting two lists is inserting one after the other. -/
theorem insertAll_append {table : Table Row Key key} {rows more : List Row} :
    table.insertAll (rows ++ more) = (table.insertAll rows).insertAll more :=
  List.foldl_append

/-- The first of them that wants a free key gets it. -/
theorem lookup_insertAll {table : Table Row Key key} {rows : List Row} {wanted : Key} :
    (table.insertAll rows).lookup wanted =
      (table.lookup wanted).or (rows.find? fun row => key row = wanted) := by
  induction rows generalizing table with
  | nil => exact Option.or_none.symm
  | cons row rest ih =>
    rw [insertAll_cons, ih, lookup_insertNew, Option.or_assoc, List.find?_cons]
    by_cases hit : key row = wanted <;> simp [hit]

/-- Rows that one key never tells apart are all there. -/
theorem mem_insertAll_empty {rows : List Row}
    (agree : ∀ first ∈ rows, ∀ second ∈ rows, key first = key second → first = second) {row : Row} :
    row ∈ (empty : Table Row Key key).insertAll rows ↔ row ∈ rows := by
  rw [mem_iff_lookup, lookup_insertAll, lookup_empty, Option.none_or]
  constructor
  · exact List.mem_of_find?_eq_some
  · intro member
    cases found : rows.find? fun other => decide (key other = key row) with
    | none => exact absurd (decide_eq_true rfl) (List.find?_eq_none.mp found row member)
    | some other =>
      have same : key other = key row := by simpa using List.find?_some found
      rw [agree other (List.mem_of_find?_eq_some found) row member same]

/-- `INSERT .. ON CONFLICT DO UPDATE`: `update` rewrites the row that holds the key
and keeps that key. -/
def upsert (table : Table Row Key key) (row : Row) (update : Row → Row)
    (keeps : ∀ old, key old = key row → key (update old) = key row) : Table Row Key key :=
  if table.holds (key row) then
    ⟨table.rows.map fun old => if key old = key row then update old else old, by
      have same :
          (table.rows.map fun old => if key old = key row then update old else old).map key =
          table.rows.map key := by
        rw [List.map_map]
        apply List.map_congr_left
        intro old _
        by_cases hit : key old = key row
        · simp [hit, keeps old hit]
        · simp [hit]
      rw [same]
      exact table.unique⟩
  else table.insertNew row

/-- After an upsert the rows of other keys are as before, and the own one is updated or new. -/
theorem mem_upsert {table : Table Row Key key} {row other : Row} {update : Row → Row}
    {keeps : ∀ old, key old = key row → key (update old) = key row} :
    other ∈ table.upsert row update keeps ↔
      (other ∈ table ∧ key other ≠ key row) ∨
      (∃ old ∈ table, key old = key row ∧ other = update old) ∨
      (¬ table.holds (key row) ∧ other = row) := by
  by_cases taken : table.holds (key row)
  · have shape : other ∈ table.upsert row update keeps ↔
        ∃ old ∈ table, (if key old = key row then update old else old) = other := by
      simp [upsert, taken, ← mem_rows]
    rw [shape]
    constructor
    · rintro ⟨old, member, rfl⟩
      by_cases hit : key old = key row
      · exact Or.inr (Or.inl ⟨old, member, hit, by simp [hit]⟩)
      · simp [hit, member]
    · rintro (⟨member, different⟩ | ⟨old, member, hit, rfl⟩ | ⟨free, _⟩)
      · exact ⟨other, member, by simp [different]⟩
      · exact ⟨old, member, by simp [hit]⟩
      · exact absurd taken free
  · have absent : ∀ old ∈ table, key old ≠ key row := by
      intro old member hit
      exact taken (holds_iff.mpr ⟨old, member, hit⟩)
    simp only [upsert, taken, if_false, mem_insertNew, not_false_eq_true, true_and]
    constructor
    · rintro (member | rfl)
      · exact Or.inl ⟨member, absent other member⟩
      · exact Or.inr (Or.inr rfl)
    · rintro (⟨member, _⟩ | ⟨old, member, hit, _⟩ | rfl)
      · exact Or.inl member
      · exact absurd hit (absent old member)
      · exact Or.inr rfl

/-- An upsert under a free key puts the row last. -/
theorem rows_upsert_of_free {table : Table Row Key key} {row : Row} {update : Row → Row}
    {keeps : ∀ old, key old = key row → key (update old) = key row}
    (free : ¬ table.holds (key row)) :
    (table.upsert row update keeps).rows = table.rows ++ [row] := by
  rw [upsert, if_neg free, rows_insertNew free]

/-- An update keeps the keys and their order, an insertion adds its key at the end. -/
theorem keys_upsert {table : Table Row Key key} {row : Row} {update : Row → Row}
    {keeps : ∀ old, key old = key row → key (update old) = key row} :
    (table.upsert row update keeps).rows.map key =
      if table.holds (key row) then table.rows.map key else table.rows.map key ++ [key row] := by
  by_cases taken : table.holds (key row)
  · rw [if_pos taken, upsert, if_pos taken, List.map_map]
    apply List.map_congr_left
    intro old _
    by_cases hit : key old = key row
    · simp [hit, keeps old hit]
    · simp [hit]
  · rw [if_neg taken, rows_upsert_of_free taken, List.map_append, List.map_singleton]

/-- An upsert makes its key held and no other. -/
theorem holds_upsert {table : Table Row Key key} {row : Row} {update : Row → Row}
    {keeps : ∀ old, key old = key row → key (update old) = key row} {wanted : Key} :
    (table.upsert row update keeps).holds wanted ↔ table.holds wanted ∨ wanted = key row := by
  constructor
  · intro held
    obtain ⟨other, member, rfl⟩ := holds_iff.mp held
    rcases mem_upsert.mp member with ⟨old, _⟩ | ⟨old, _, hit, rfl⟩ | ⟨_, rfl⟩
    · exact Or.inl (holds_of_mem old)
    · exact Or.inr (keeps old hit)
    · exact Or.inr rfl
  · intro held
    apply holds_iff.mpr
    by_cases hit : wanted = key row
    · by_cases taken : table.holds (key row)
      · obtain ⟨old, member, sameKey⟩ := holds_iff.mp taken
        exact ⟨update old, mem_upsert.mpr (Or.inr (Or.inl ⟨old, member, sameKey, rfl⟩)),
          hit ▸ keeps old sameKey⟩
      · exact ⟨row, mem_upsert.mpr (Or.inr (Or.inr ⟨taken, rfl⟩)), hit.symm⟩
    · obtain ⟨other, member, rfl⟩ := holds_iff.mp (held.resolve_right hit)
      exact ⟨other, mem_upsert.mpr (Or.inl ⟨member, hit⟩), rfl⟩

/-- After an upsert its key finds the updated row, or the new one. -/
theorem lookup_upsert {table : Table Row Key key} {row : Row} {update : Row → Row}
    {keeps : ∀ old, key old = key row → key (update old) = key row} {wanted : Key} :
    (table.upsert row update keeps).lookup wanted =
      if wanted = key row then some (((table.lookup wanted).map update).getD row)
      else table.lookup wanted := by
  by_cases hit : wanted = key row
  · subst hit
    rw [if_pos rfl, lookup_eq_some_iff, mem_upsert]
    cases found : table.lookup (key row) with
    | none => exact ⟨Or.inr (Or.inr ⟨not_holds_iff_lookup.mpr found, rfl⟩), rfl⟩
    | some old =>
      have same := key_of_lookup found
      exact ⟨Or.inr (Or.inl ⟨old, mem_of_lookup found, same, rfl⟩), keeps old same⟩
  · rw [if_neg hit]
    apply Option.ext
    intro other
    rw [lookup_eq_some_iff, lookup_eq_some_iff, mem_upsert]
    constructor
    · rintro ⟨⟨member, _⟩ | ⟨old, _, same, rfl⟩ | ⟨_, rfl⟩, rfl⟩
      · exact ⟨member, rfl⟩
      · exact absurd (keeps old same) hit
      · exact absurd rfl hit
    · rintro ⟨member, rfl⟩
      exact ⟨Or.inl ⟨member, hit⟩, rfl⟩

/-- `DELETE .. WHERE`. -/
def deleteWhere (table : Table Row Key key) (doomed : Row → Bool) : Table Row Key key :=
  ⟨table.rows.filter fun row => !doomed row,
    table.unique.sublist (List.filter_sublist.map key)⟩

omit [DecidableEq Key] in
@[simp] theorem mem_deleteWhere {table : Table Row Key key} {doomed : Row → Bool} {row : Row} :
    row ∈ table.deleteWhere doomed ↔ row ∈ table ∧ doomed row = false := by
  simp [deleteWhere, ← mem_rows]

/-- After a deletion a key finds its row unless that was doomed. -/
theorem lookup_deleteWhere {table : Table Row Key key} {doomed : Row → Bool} {wanted : Key} :
    (table.deleteWhere doomed).lookup wanted =
      (table.lookup wanted).filter fun row => !doomed row := by
  apply Option.ext
  intro row
  simp [Option.filter_eq_some_iff, lookup_eq_some_iff, and_right_comm]

/-- `UPDATE .. WHERE`, of columns outside the key. -/
def updateWhere (table : Table Row Key key) (chosen : Row → Bool) (update : Row → Row)
    (keeps : ∀ row, key (update row) = key row) : Table Row Key key :=
  ⟨table.rows.map fun row => if chosen row then update row else row, by
    have same : key ∘ (fun row => if chosen row then update row else row) = key := by
      funext row
      by_cases hit : chosen row
      · simp [hit, keeps row]
      · simp [hit]
    rw [List.map_map, same]
    exact table.unique⟩

/-- After an update a key finds its row, updated if it was chosen. -/
theorem lookup_updateWhere {table : Table Row Key key} {chosen : Row → Bool} {update : Row → Row}
    {keeps : ∀ row, key (update row) = key row} {wanted : Key} :
    (table.updateWhere chosen update keeps).lookup wanted =
      (table.lookup wanted).map fun row => if chosen row then update row else row := by
  rw [lookup, updateWhere, List.find?_map, lookup]
  refine congrArg (Option.map _) (congrArg (List.find? · table.rows) (funext fun row => ?_))
  rw [Function.comp_apply]
  split
  · rw [keeps]
  · rfl

/-- `UPDATE` of key columns, which leaves the keys apart. -/
def updateKey (table : Table Row Key key) (update : Row → Row)
    (apart : ∀ first ∈ table, ∀ second ∈ table,
      key (update first) = key (update second) → key first = key second) : Table Row Key key :=
  ⟨table.rows.map update, by
    have distinct := table.unique
    rw [List.map_map]
    rw [List.Nodup, List.pairwise_map] at distinct ⊢
    exact distinct.imp_of_mem fun {first second} inFirst inSecond differ same =>
      differ (apart first inFirst second inSecond same)⟩

omit [DecidableEq Key] in
/-- After the keys are updated the rows are the updated ones. -/
theorem mem_updateKey {table : Table Row Key key} {update : Row → Row}
    {apart : ∀ first ∈ table, ∀ second ∈ table,
      key (update first) = key (update second) → key first = key second} {row : Row} :
    row ∈ table.updateKey update apart ↔ ∃ old ∈ table, update old = row :=
  List.mem_map

/-- The rows with a key are the row that holds it, if one does. -/
theorem filter_key (table : Table Row Key key) (wanted : Key) :
    (table.rows.filter fun row => key row = wanted) = (table.lookup wanted).toList := by
  obtain ⟨rows, unique⟩ := table
  unfold lookup
  dsimp only
  induction rows with
  | nil => rfl
  | cons row rest ih =>
    rw [List.map_cons, List.nodup_cons] at unique
    by_cases hit : key row = wanted
    · have others : (rest.filter fun row => key row = wanted) = [] := by
        apply List.filter_eq_nil_iff.mpr
        intro other member same
        exact unique.1 (hit.trans (of_decide_eq_true same).symm ▸ List.mem_map_of_mem member)
      simp [hit, others]
    · simp [hit, ih unique.2]

/-- Upsert every row of another table, which has at most one for each key. -/
def upsertAll (table rows : Table Row Key key) (update : Row → Row → Row)
    (keeps : ∀ row old, key (update row old) = key row) : Table Row Key key :=
  rows.rows.foldl (fun table row => table.upsert row (update row) (fun old _ => keeps row old))
    table

/-- After a bulk upsert each key finds the row that was upserted under it, or its own. -/
theorem lookup_upsertAll {table rows : Table Row Key key} {update : Row → Row → Row}
    {keeps : ∀ row old, key (update row old) = key row} {wanted : Key} :
    (table.upsertAll rows update keeps).lookup wanted =
      ((rows.lookup wanted).map fun row => ((table.lookup wanted).map (update row)).getD row).or
        (table.lookup wanted) := by
  obtain ⟨list, unique⟩ := rows
  unfold upsertAll
  dsimp only
  induction list using List.reverseRecOn with
  | nil => rfl
  | append_singleton earlier row ih =>
    rw [List.map_append, List.map_singleton, List.nodup_append] at unique
    obtain ⟨earlierUnique, _, apart⟩ := unique
    have ofEarlier := ih earlierUnique
    have split : lookup ⟨earlier ++ [row], unique⟩ wanted =
        (lookup ⟨earlier, earlierUnique⟩ wanted).or
          (if key row = wanted then some row else none) := by
      simp [lookup, List.find?_append]
    rw [List.foldl_concat, lookup_upsert, ofEarlier, split]
    by_cases hit : wanted = key row
    · subst hit
      -- The key is new to the rows before it.
      have absent : lookup (⟨earlier, earlierUnique⟩ : Table Row Key key) (key row) = none := by
        rw [lookup_eq_none_iff]
        intro other member same
        exact apart _ (List.mem_map_of_mem member) _ List.mem_cons_self same
      simp [absent]
    · have miss : ¬ key row = wanted := fun same => hit same.symm
      simp [hit, miss]

end Table

/-- A table keyed by a sequence that has handed out every key below `next`. -/
structure Serial (Row : Type) (key : Row → Nat) where
  table : Table Row Nat key
  next : Nat
  below : ∀ row ∈ table, key row < next

namespace Serial

variable {Row : Type} {key : Row → Nat}

instance : Membership Row (Serial Row key) := ⟨fun serial row => row ∈ serial.table⟩

/-- The rows of a serial table are those of its table. -/
theorem mem_table {serial : Serial Row key} {row : Row} : row ∈ serial.table ↔ row ∈ serial :=
  Iff.rfl

def empty : Serial Row key :=
    ⟨Table.empty, 1, fun _ member => absurd member (Table.not_mem_empty _)⟩

@[simp] theorem not_mem_empty (row : Row) : row ∉ (empty : Serial Row key) :=
  Table.not_mem_empty row

/-- Insert a row under the next key of the sequence. -/
def append (serial : Serial Row key) (make : Nat → Row) (keyed : ∀ id, key (make id) = id) :
    Serial Row key where
  table := serial.table.insertNew (make serial.next)
  next := serial.next + 1
  below := by
    intro row member
    rcases Table.mem_insertNew.mp member with old | ⟨_, rfl⟩
    · exact Nat.lt_succ_of_lt (serial.below row old)
    · rw [keyed]
      exact Nat.lt_succ_self _

/-- The next id is free. -/
theorem lookup_next (serial : Serial Row key) : serial.table.lookup serial.next = none :=
  Table.lookup_eq_none_iff.mpr fun row member => Nat.ne_of_lt (serial.below row member)

/-- An append puts the row under the next id last. -/
theorem rows_append {serial : Serial Row key} {make : Nat → Row}
    {keyed : ∀ id, key (make id) = id} :
    (serial.append make keyed).table.rows = serial.table.rows ++ [make serial.next] := by
  refine Table.rows_insertNew ?_
  rw [keyed]
  exact Table.not_holds_iff_lookup.mpr serial.lookup_next

/-- After an append the rows are those before and the new one. -/
theorem mem_append {serial : Serial Row key} {make : Nat → Row} {keyed : ∀ id, key (make id) = id}
    {row : Row} : row ∈ serial.append make keyed ↔ row ∈ serial ∨ row = make serial.next := by
  rw [← mem_table, ← Table.mem_rows, rows_append, List.mem_append, List.mem_singleton,
    Table.mem_rows, mem_table]

/-- Rows were only added, under keys not handed out before. -/
structure Grows (before after : Serial Row key) : Prop where
  next_le : before.next ≤ after.next
  kept : ∀ row ∈ before, row ∈ after
  fresh : ∀ row ∈ after, row ∈ before ∨ before.next ≤ key row

/-- A serial table grows into itself. -/
theorem Grows.refl (serial : Serial Row key) : serial.Grows serial where
  next_le := Nat.le_refl _
  kept _ member := member
  fresh _ member := Or.inl member

/-- Growing twice is growing. -/
theorem Grows.trans {first second third : Serial Row key} (left : first.Grows second)
    (right : second.Grows third) : first.Grows third where
  next_le := Nat.le_trans left.next_le right.next_le
  kept row member := right.kept row (left.kept row member)
  fresh row member := by
    rcases right.fresh row member with old | new
    · exact left.fresh row old
    · exact Or.inr (Nat.le_trans left.next_le new)

/-- An append makes a serial table grow. -/
theorem grows_append {serial : Serial Row key} {make : Nat → Row}
    {keyed : ∀ id, key (make id) = id} : serial.Grows (serial.append make keyed) where
  next_le := Nat.le_succ _
  kept row member := mem_append.mpr (Or.inl member)
  fresh row member := by
    rcases mem_append.mp member with old | rfl
    · exact Or.inl old
    · exact Or.inr (Nat.le_of_eq (keyed _).symm)

/-- Rows may go; their keys are never handed out again. -/
def deleteWhere (serial : Serial Row key) (doomed : Row → Bool) : Serial Row key where
  table := serial.table.deleteWhere doomed
  next := serial.next
  below := fun row member => serial.below row (Table.mem_deleteWhere.mp member).1

/-- Rows may change, except for their keys. -/
def updateWhere (serial : Serial Row key) (chosen : Row → Bool) (update : Row → Row)
    (keeps : ∀ row, key (update row) = key row) : Serial Row key where
  table := serial.table.updateWhere chosen update keeps
  next := serial.next
  below := by
    intro row member
    obtain ⟨old, listed, rfl⟩ := List.mem_map.mp member
    have small := serial.below old listed
    split
    · rw [keeps]
      exact small
    · exact small

@[simp] theorem mem_deleteWhere {serial : Serial Row key} {doomed : Row → Bool} {row : Row} :
    row ∈ serial.deleteWhere doomed ↔ row ∈ serial ∧ doomed row = false :=
  Table.mem_deleteWhere

end Serial
end Foghorn.Std
