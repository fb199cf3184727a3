import Mathlib.Data.List.Basic
import Mathlib.Tactic.SplitIfs

/-!
# Brackets and quotes of JSON text

Read from the left, an object text leaves every string it enters and closes its last bracket
with its last character. So no such text is left of another: behind an unclosed bracket it
leaves that bracket open, and behind an open string what was inside strings is outside.
-/

namespace Foghorn.Std

/-- Where a reader of JSON text stands, and behind how many open brackets. -/
inductive ScanState where
  | outside (depth : Nat)
  | inside (depth : Nat)
  | escaped (depth : Nat)
  | broken
deriving DecidableEq

def scan : ScanState → Char → ScanState
  | .outside depth, c =>
    if c = '"' then .inside depth
    else if c = '\\' then .broken
    else if c = '{' ∨ c = '[' then .outside (depth + 1)
    else if c = '}' ∨ c = ']' then if depth = 0 then .broken else .outside (depth - 1)
    else .outside depth
  | .inside depth, c =>
    if c = '"' then .outside depth else if c = '\\' then .escaped depth else .inside depth
  | .escaped depth, _ => .inside depth
  | .broken, _ => .broken

def scanAll (state : ScanState) (text : List Char) : ScanState := text.foldl scan state

/-- Brackets and strings are closed at the end of the text and not before. -/
structure ClosesAtEnd (text : List Char) : Prop where
  closed : scanAll (.outside 0) text = .outside 0
  within : ∀ count < text.length, 0 < count → scanAll (.outside 0) (text.take count) ≠ .outside 0

section Scan

variable {state other : ScanState} {text before after : List Char}

private theorem scanAll_append :
    scanAll state (before ++ after) = scanAll (scanAll state before) after :=
  List.foldl_append

private theorem scanAll_broken : scanAll .broken text = .broken := by
  induction text with
  | nil => rfl
  | cons c rest ih => exact ih

/-- A text that closes at its end does not close where a part of it ends. -/
theorem ClosesAtEnd.ne (closes : ClosesAtEnd (before ++ after)) (nonempty : before ≠ [])
    (more : after ≠ []) : scanAll (.outside 0) before ≠ .outside 0 := by
  have length : before.length < (before ++ after).length := by
    rw [List.length_append]
    exact Nat.lt_add_of_pos_right (List.length_pos_iff.mpr more)
  have part := closes.within before.length length (List.length_pos_iff.mpr nonempty)
  rwa [List.take_left] at part

/-- What reaches a sound state was sound at its first character. -/
theorem scan_ne_broken {c : Char} (sound : scanAll state (c :: text) ≠ .broken) :
    scan state c ≠ .broken := by
  intro lost
  apply sound
  rw [scanAll, List.foldl_cons, lost]
  exact scanAll_broken

/-- One pass over a text tells whether it closes at its end and not before. -/
def closesFrom (state : ScanState) : List Char → Bool
  | [] => false
  | [c] => scan state c = .outside 0
  | c :: rest => scan state c ≠ .outside 0 && closesFrom (scan state c) rest

/-- A text that closes at its end comes back outside there, and nowhere before. -/
theorem scanAll_of_closesFrom (closes : closesFrom state text) :
    scanAll state text = .outside 0 ∧
      ∀ count < text.length, 0 < count → scanAll state (text.take count) ≠ .outside 0 := by
  induction text generalizing state with
  | nil => cases closes
  | cons c rest ih =>
    cases rest with
    | nil =>
      refine ⟨of_decide_eq_true closes, fun count short positive => ?_⟩
      rw [List.length_singleton] at short
      omega
    | cons d others =>
      rw [closesFrom, Bool.and_eq_true] at closes
      · obtain ⟨stays, onward⟩ := closes
        obtain ⟨closed, within⟩ := ih onward
        refine ⟨closed, fun count short positive => ?_⟩
        cases count with
        | zero => omega
        | succ count =>
          rw [List.take_succ_cons, scanAll, List.foldl_cons]
          cases count with
          | zero => exact of_decide_eq_true stays
          | succ count => exact within (count + 1) (Nat.lt_of_succ_lt_succ short) (Nat.succ_pos count)
      · simp

/-- The check of a text proves that it closes at its end. -/
theorem closesAtEnd_of_closesFrom (closes : closesFrom (.outside 0) text) : ClosesAtEnd text :=
  ⟨(scanAll_of_closesFrom closes).1, (scanAll_of_closesFrom closes).2⟩

end Scan

section Deeper

/-- The same place behind some more open brackets. -/
def ScanState.deeper (extra : Nat) : ScanState → ScanState
  | outside depth => outside (depth + extra)
  | inside depth => inside (depth + extra)
  | escaped depth => escaped (depth + extra)
  | broken => broken

/-- One character deeper inside is scanned as it is, as long as nothing breaks. -/
theorem scan_deeper {state : ScanState} {c : Char} (extra : Nat) (sound : scan state c ≠ .broken) :
    scan (state.deeper extra) c = (scan state c).deeper extra := by
  cases state with
  | outside depth =>
    simp only [scan, ScanState.deeper] at sound ⊢
    split_ifs at sound ⊢ <;>
      first | rfl | contradiction | exact congrArg ScanState.outside (by omega) | omega
  | inside depth =>
    simp only [scan, ScanState.deeper]
    split_ifs <;> rfl
  | escaped depth => rfl
  | broken => rfl

/-- Brackets that are open stay open over a text that closes its own. -/
theorem scanAll_deeper {state : ScanState} {text : List Char} (extra : Nat)
    (sound : scanAll state text ≠ .broken) :
    scanAll (state.deeper extra) text = (scanAll state text).deeper extra := by
  induction text generalizing state with
  | nil => rfl
  | cons c rest ih =>
    rw [scanAll, List.foldl_cons, scan_deeper extra (scan_ne_broken sound)]
    exact ih sound

end Deeper

section Flipped

/-- One of two readers is inside strings where the other is outside, or the second is lost. -/
inductive Flipped : ScanState → ScanState → Prop where
  | lost (state : ScanState) : Flipped state .broken
  | second (depth other : Nat) : Flipped (.outside depth) (.inside other)
  | first (depth other : Nat) : Flipped (.inside depth) (.outside other)

private theorem flipped_scan {state other : ScanState} {c : Char} (flipped : Flipped state other)
    (sound : scan state c ≠ .broken) : Flipped (scan state c) (scan other c) := by
  cases flipped with
  | lost => exact .lost _
  | second depth other =>
    simp only [scan] at sound ⊢
    split_ifs at sound ⊢ <;> first | constructor | contradiction
  | first depth other =>
    simp only [scan] at sound ⊢
    split_ifs <;> constructor

private theorem flipped_scanAll {state other : ScanState} {text : List Char}
    (flipped : Flipped state other)
    (sound : scanAll state text ≠ .broken) : Flipped (scanAll state text) (scanAll other text) := by
  induction text generalizing state other with
  | nil => exact flipped
  | cons c rest ih => exact ih (flipped_scan flipped (scan_ne_broken sound)) sound

end Flipped

/-- Nothing can be put before an object text so that the whole closes at the same end. -/
theorem not_closesAtEnd_append {before after : List Char} (nonempty : before ≠ [])
    (closes : ClosesAtEnd ('{' :: after)) : ¬ ClosesAtEnd (before ++ '{' :: after) := by
  intro whole
  have final := whole.closed
  have part := whole.ne nonempty (by simp)
  have sound : scanAll (.outside 0) ('{' :: after) ≠ .broken := by simp [closes.closed]
  rw [scanAll_append] at final
  generalize scanAll (.outside 0) before = state at final part
  cases state with
  | broken =>
    rw [scanAll_broken] at final
    cases final
  | outside depth =>
    -- The brackets that were open before stay open.
    have deeper : scanAll (.outside (0 + depth)) ('{' :: after) = .outside (0 + depth) := by
      have shifted := scanAll_deeper depth sound
      rw [closes.closed] at shifted
      exact shifted
    rw [Nat.zero_add, final] at deeper
    exact part deeper.symm
  | inside depth =>
    have flipped := flipped_scanAll (.second 0 depth) sound
    rw [closes.closed, final] at flipped
    cases flipped
  | escaped depth =>
    -- The first bracket is escaped, and the reader stays in its string.
    have flipped : Flipped (scanAll (.outside 1) after) (scanAll (.inside depth) after) :=
      flipped_scanAll (.second 1 depth) sound
    have reached : scanAll (.outside 1) after = .outside 0 := closes.closed
    have same : scanAll (.inside depth) after = .outside 0 := final
    rw [reached, same] at flipped
    cases flipped

end Foghorn.Std
