import Mathlib.Data.String.Basic
import Foghorn.Std.Collections
import Foghorn.Std.Program

/-!
# When the roster is posted

The alerter posts when a fingerprint changes, and an indexer moves the fingerprint only after
it was seen in its new state for some cycles in a row. Each indexer has a small machine with
a row while it is anything but absent. The machines together are the function `settled` of
what each was observed with.
-/

namespace Foghorn.Probe

open Foghorn.Std

/-- What an indexer of the roster is seen as. -/
inductive MemberState where
  | critical
  | high
  | absent
deriving DecidableEq

/-- The text a state is stored as. -/
def MemberState.text : MemberState → String
  | critical => "C"
  | high => "H"
  | absent => "absent"

/-- `CONFIRM_CYCLES`. -/
def confirmCycles : Int := 2

/-- `alert_member`. -/
structure AlertMember where
  indexerAddress : String
  stableState : MemberState
  candidateState : MemberState
  streak : Int

abbrev AlertMembers := Table AlertMember String AlertMember.indexerAddress

/-- The indexers with an issue, and whether one of their issues is critical. -/
abbrev RosterStates := Table (String × Bool) String Prod.fst

def RosterStates.observed (states : RosterStates) (address : String) : MemberState :=
  match states.lookup address with
  | some (_, true) => .critical
  | some (_, false) => .high
  | none => .absent

/-- The committed state of an indexer, the one that may follow it, and for how long. -/
structure Hysteresis where
  stable : MemberState
  candidate : MemberState
  streak : Int
deriving DecidableEq

namespace Hysteresis

/-- Of an indexer without a row. -/
def absent : Hysteresis := ⟨.absent, .absent, 0⟩

def observe (state : Hysteresis) (obs : MemberState) : Hysteresis :=
  if obs = state.stable then { state with candidate := obs, streak := 0 }
  else if obs = state.candidate then
    if confirmCycles ≤ state.streak + 1 then { state with stable := obs, streak := 0 }
    else { state with streak := state.streak + 1 }
  else { state with candidate := obs, streak := 1 }

end Hysteresis

def AlertMember.hysteresis (row : AlertMember) : Hysteresis :=
  ⟨row.stableState, row.candidateState, row.streak⟩

def AlertMembers.hysteresis (members : AlertMembers) (address : String) : Hysteresis :=
  ((members.lookup address).map AlertMember.hysteresis).getD .absent

/-- Delete the row of an indexer that is and stays absent, write that of any other. -/
def AlertMembers.write (members : AlertMembers) (entry : String × Hysteresis) : AlertMembers :=
  let row : AlertMember := ⟨entry.1, entry.2.stable, entry.2.candidate, entry.2.streak⟩
  if entry.2.stable = .absent ∧ entry.2.candidate = .absent then
    members.deleteWhere fun old => old.indexerAddress = entry.1
  else members.upsert row (fun _ => row) fun _ _ => rfl

/-- `address:state` of an indexer whose state is committed. -/
def committedText (address : String) (state : MemberState) : Option String :=
  if state = .absent then none else some (address ++ ":" ++ state.text)

/-- The texts in order, with commas. -/
def fingerprintOf (committed : List String) : String :=
  ",".intercalate (committed.mergeSort fun left right => left ≤ right)

/-- Known addresses, and observed ones that are not known. -/
def unionAddresses (order : IterOrder String) (states : RosterStates) (members : AlertMembers) :
    List String :=
  order.arrange (members.rows.map AlertMember.indexerAddress) ++
    (states.rows.map Prod.fst).filter fun address => !decide (members.holds address)

/-- The table after a cycle, and the committed fingerprint. -/
def debouncedFingerprint (order : IterOrder String) (states : RosterStates)
    (members : AlertMembers) : AlertMembers × String :=
  let advanced := (unionAddresses order states members).map fun address =>
    (address, (members.hysteresis address).observe (states.observed address))
  (advanced.foldl AlertMembers.write members,
    fingerprintOf (advanced.filterMap fun entry => committedText entry.1 entry.2.stable))

section Machine

/-- What a sequence of observations, the newest first, has settled on: the last value that was
observed for `confirmCycles` cycles in a row, absent if there is none. -/
def settled : List MemberState → MemberState
  | [] => .absent
  | obs :: earlier =>
    if confirmCycles ≤ (obs :: earlier).length ∧
        ∀ other ∈ (obs :: earlier).take confirmCycles.toNat, other = obs then obs
    else settled earlier

private theorem settled_cons_cons (obs previous : MemberState) (earlier : List MemberState) :
    settled (obs :: previous :: earlier) =
      if previous = obs then obs else settled (previous :: earlier) := by
  have long : confirmCycles ≤ (obs :: previous :: earlier).length := by
    rw [confirmCycles, List.length_cons, List.length_cons]
    omega
  have recent : (obs :: previous :: earlier).take confirmCycles.toNat = [obs, previous] := rfl
  rw [settled, recent]
  by_cases same : previous = obs
  · rw [if_pos ⟨long, by simp [same]⟩, if_pos same]
  · rw [if_neg fun held => same (held.2 previous (by simp)), if_neg same]

private theorem settled_singleton (obs : MemberState) : settled [obs] = .absent := by
  have short : ¬ confirmCycles ≤ 1 := by decide
  rw [settled, if_neg fun held => short held.1]
  rfl

/-- The state a sequence of observations, the newest first, puts a machine in. -/
def Hysteresis.after (observations : List MemberState) : Hysteresis :=
  observations.foldr (fun obs state => state.observe obs) .absent

/-- The machine after some observations: it has committed what they settled on; a candidate that
differs was observed once, last, and else the last observation was the committed state. -/
structure Hysteresis.Tracks (state : Hysteresis) (observations : List MemberState) : Prop where
  stable : state.stable = settled observations
  pending : state.candidate ≠ state.stable →
    state.streak = 1 ∧ observations.head? = some state.candidate
  idle : state.candidate = state.stable →
    state.streak = 0 ∧ observations.head?.getD .absent = state.stable

/-- An observation settles a sequence when the one before it was the same. -/
theorem settled_cons (obs : MemberState) (observations : List MemberState) :
    settled (obs :: observations) =
      if observations.head? = some obs then obs else settled observations := by
  cases observations with
  | nil => exact settled_singleton obs
  | cons previous earlier => simp [settled_cons_cons]

namespace Hysteresis

variable {state : Hysteresis} {observations : List MemberState} {obs : MemberState}

private theorem observe_stable (same : obs = state.stable) :
    state.observe obs = { state with candidate := obs, streak := 0 } := if_pos same

private theorem observe_candidate (other : obs ≠ state.stable) (same : obs = state.candidate)
    (once : state.streak = 1) : state.observe obs = { state with stable := obs, streak := 0 } := by
  rw [observe, if_neg other, if_pos same, once]
  rfl

private theorem observe_new (other : obs ≠ state.stable) (new : obs ≠ state.candidate) :
    state.observe obs = { state with candidate := obs, streak := 1 } := by
  rw [observe, if_neg other, if_neg new]

/-- One observation keeps the machine on the settled state. -/
theorem Tracks.observe (tracks : state.Tracks observations) (obs : MemberState) :
    (state.observe obs).Tracks (obs :: observations) := by
  by_cases reverts : obs = state.stable
  · rw [observe_stable reverts]
    refine ⟨?_, fun differs => absurd reverts differs, fun _ => ⟨rfl, reverts⟩⟩
    rw [settled_cons, ← tracks.stable, ← reverts, ite_self]
  · by_cases confirms : obs = state.candidate
    · have pending : state.candidate ≠ state.stable := confirms ▸ reverts
      obtain ⟨once, last⟩ := tracks.pending pending
      rw [observe_candidate reverts confirms once]
      refine ⟨?_, fun differs => absurd confirms.symm differs, fun _ => ⟨rfl, rfl⟩⟩
      rw [settled_cons, last, confirms, if_pos rfl]
    · rw [observe_new reverts confirms]
      refine ⟨?_, fun _ => ⟨rfl, rfl⟩, fun same => absurd same reverts⟩
      -- The last observation was the candidate or the committed state, and this is neither.
      have fresh : observations.head? ≠ some obs := by
        intro last
        by_cases idle : state.candidate = state.stable
        · have head := (tracks.idle idle).2
          rw [last] at head
          exact reverts head
        · exact confirms (Option.some.inj (last.symm.trans (tracks.pending idle).2))
      rw [settled_cons, if_neg fresh]
      exact tracks.stable

end Hysteresis

end Machine

section Table

variable {members : AlertMembers} {states : RosterStates} {order : IterOrder String}

end Table

section Runs

/-- One call: the roster it gets, and the order its hash maps are iterated in. -/
structure AlertCycle where
  states : RosterStates
  order : IterOrder String

def AlertCycle.run (cycle : AlertCycle) (members : AlertMembers) : AlertMembers :=
  (debouncedFingerprint cycle.order cycle.states members).1

end Runs

end Foghorn.Probe
