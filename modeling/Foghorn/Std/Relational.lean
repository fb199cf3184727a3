import Foghorn.Std.Table

/-!
# Joins and three-valued conditions

A condition that a null decides is unknown, and keeps no row. A join over a primary key adds one
row or a null to each row.
-/

namespace Foghorn.Std

variable {α β Row Key : Type}

/-- The value of an SQL condition. -/
abbrev Truth := Option Bool

namespace Truth

def and : Truth → Truth → Truth
  | some false, _ => some false
  | some true, right => right
  | none, some false => some false
  | none, _ => none

def or : Truth → Truth → Truth
  | some true, _ => some true
  | some false, right => right
  | none, some true => some true
  | none, _ => none

def not (condition : Truth) : Truth := condition.map Bool.not

/-- `WHERE`, `FILTER` and `COALESCE(.., false)` take an unknown condition for a false one. -/
def holds (condition : Truth) : Bool := condition.getD false

/-- A comparison, unknown beside a null. -/
def compare (test : α → β → Bool) (left : Option α) (right : Option β) : Truth :=
  left.bind fun a => right.map fun b => test a b

def isNull (value : Option α) : Truth := some value.isNone

def isNotNull (value : Option α) : Truth := some value.isSome

def equal [DecidableEq α] : Option α → Option α → Truth := compare fun a b => decide (a = b)

def differs [DecidableEq α] : Option α → Option α → Truth := compare fun a b => decide (a ≠ b)

/-- `value IN (SELECT ..)`: unknown when only a null could be equal. -/
def isIn [DecidableEq α] (value : Option α) (values : List (Option α)) : Truth :=
  values.foldr (fun other found => (equal value other).or found) (some false)

def isNotIn [DecidableEq α] (value : Option α) (values : List (Option α)) : Truth :=
  (isIn value values).not

@[simp] theorem holds_none : holds none = false := rfl

@[simp] theorem holds_some (value : Bool) : holds (some value) = value := rfl

@[simp] theorem holds_and (left right : Truth) : (left.and right).holds = (left.holds && right.holds) := by
  rcases left with _ | _ | _ <;> rcases right with _ | _ | _ <;> rfl

@[simp] theorem holds_or (left right : Truth) : (left.or right).holds = (left.holds || right.holds) := by
  rcases left with _ | _ | _ <;> rcases right with _ | _ | _ <;> rfl

@[simp] theorem holds_isNull (value : Option α) : (isNull value).holds = value.isNone := rfl

@[simp] theorem holds_isNotNull (value : Option α) : (isNotNull value).holds = value.isSome := rfl

@[simp] theorem compare_some (test : α → β → Bool) (a : α) (b : β) :
    compare test (some a) (some b) = some (test a b) := rfl

@[simp] theorem compare_none_left (test : α → β → Bool) (right : Option β) :
    compare test none right = none := rfl

@[simp] theorem compare_none_right (test : α → β → Bool) (left : Option α) :
    compare test left none = none := by
  cases left with
  | none => rfl
  | some a => rfl

variable [DecidableEq α]

/-- Among values that are not null, `IN` is membership. -/
theorem isIn_some (value : α) (values : List α) :
    isIn (some value) (values.map some) = some (decide (value ∈ values)) := by
  induction values with
  | nil => rfl
  | cons head rest ih =>
    have step : isIn (some value) ((head :: rest).map some) =
        (equal (some value) (some head)).or (isIn (some value) (rest.map some)) := rfl
    rw [step, ih, equal, compare_some]
    by_cases same : value = head <;> simp [same, Truth.or]

/-- Without NULL among them, `NOT IN` tells whether the value is missing. -/
theorem isNotIn_some (value : α) (values : List α) :
    isNotIn (some value) (values.map some) = some (decide (value ∉ values)) := by
  rw [isNotIn, isIn_some, decide_not]
  rfl

end Truth

/-- `JOIN right ON condition`: the rows that a row is joined to. -/
def joined (right : List β) (on_ : β → Truth) : List β := right.filter fun b => (on_ b).holds

/-- `LEFT JOIN right ON condition`: a null where there are none. -/
def leftJoined (right : List β) (on_ : β → Truth) : List (Option β) :=
  match joined right on_ with
  | [] => [none]
  | found => found.map some

section Keyed

variable [DecidableEq Key] {key : Row → Key}

/-- Filtering a table by its key is looking the key up. -/
theorem filter_key (table : Table Row Key key) (wanted : Key) :
    (table.rows.filter fun row => key row = wanted) = (table.lookup wanted).toList := by
  obtain ⟨rows, unique⟩ := table
  induction rows with
  | nil => rfl
  | cons head rest ih =>
    obtain ⟨apart, unique⟩ := List.nodup_cons.mp unique
    have later := ih unique
    by_cases hit : key head = wanted
    · have none_left : (rest.filter fun row => key row = wanted) = [] := by
        rw [List.filter_eq_nil_iff]
        intro row listed same
        exact apart (List.mem_map.mpr ⟨row, listed, (of_decide_eq_true same).trans hit.symm⟩)
      simp [Table.lookup, hit, none_left]
    · simpa [Table.lookup, hit] using later

/-- A join over the key finds the row of the key. -/
theorem joined_key (table : Table Row Key key) (wanted : Key) :
    joined table.rows (fun row => Truth.equal (some (key row)) (some wanted)) =
      (table.lookup wanted).toList :=
  filter_key table wanted

/-- A left join over the key adds the row of the key, if it meets the rest of the condition. -/
theorem leftJoined_key_and (table : Table Row Key key) (wanted : Key) (rest : Row → Truth) :
    leftJoined table.rows (fun row => (Truth.equal (some (key row)) (some wanted)).and (rest row)) =
      [(table.lookup wanted).filter fun row => (rest row).holds] := by
  have both : joined table.rows (fun row =>
      (Truth.equal (some (key row)) (some wanted)).and (rest row)) =
        (table.rows.filter fun row => key row = wanted).filter fun row => (rest row).holds := by
    rw [joined, List.filter_filter]
    refine List.filter_congr fun row _ => ?_
    rw [Truth.holds_and, Bool.and_comm]
    rfl
  rw [leftJoined, both, filter_key]
  cases table.lookup wanted with
  | none => rfl
  | some row => cases kept : (rest row).holds <;> simp [Option.filter, kept]

/-- A left join on a table's key gives what the lookup finds, or one row of NULL. -/
theorem leftJoined_key (table : Table Row Key key) (wanted : Key) :
    leftJoined table.rows (fun row => Truth.equal (some (key row)) (some wanted)) =
      [table.lookup wanted] := by
  rw [leftJoined, joined_key]
  cases table.lookup wanted with
  | none => rfl
  | some row => rfl

end Keyed

end Foghorn.Std
