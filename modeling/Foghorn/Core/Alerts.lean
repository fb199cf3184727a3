import Mathlib.Data.List.AList
import Mathlib.Data.Rat.Defs
import Mathlib.Algebra.Order.Ring.Rat

/-!
# What changed since the last look

A subscription stores what its last evaluation saw. The next one compares a snapshot with it,
reports the differences, and yields the state to store. An alert is known here by what it is
about; `Alert.message` is the text that is posted for it.
-/

namespace Foghorn.Core

/-- `MAX_POI_STALENESS_DAYS`, `POI_AMBER_DAYS_LEFT` and `POI_RED_DAYS_LEFT`. -/
def maxPoiStalenessDays : Int := 28

def poiAmberDaysLeft : Int := 7

def poiRedDaysLeft : Int := 2

/-- `KINDS`. -/
inductive AlertKind where
  | poi
  | denied
  | signal
  | cuts
  | reo
deriving DecidableEq

def AlertKind.text : AlertKind → String
  | poi => "poi"
  | denied => "denied"
  | signal => "signal"
  | cuts => "cuts"
  | reo => "reo"

structure AllocSnap where
  id : String
  ipfsHash : String
  name : Option String
  createdAtEpoch : Int
  signalGrt : ℚ
  denied : Bool
deriving DecidableEq

structure Snapshot where
  currentEpoch : Int
  allocations : List AllocSnap
  indexingRewardCut : Option Int
  queryFeeCut : Option Int
  reoStatus : Option String
deriving DecidableEq

inductive Tone where
  | fresh
  | due
  | close
deriving DecidableEq

def tone (daysLeft : Int) : Tone :=
  if daysLeft ≤ poiRedDaysLeft then .close
  else if daysLeft ≤ poiAmberDaysLeft then .due
  else .fresh

/-- `tone_rank`. -/
def Tone.rank : Tone → Nat
  | close => 2
  | due => 1
  | fresh => 0

def AllocSnap.label (a : AllocSnap) : String :=
  match a.name with
  | some n => if n = "" then a.ipfsHash else s!"{n} ({a.ipfsHash})"
  | none => a.ipfsHash

def AllocSnap.daysLeft (a : AllocSnap) (currentEpoch : Int) : Int :=
  maxPoiStalenessDays - max (currentEpoch - a.createdAtEpoch) 0

def AllocSnap.tone (a : AllocSnap) (currentEpoch : Int) : Tone :=
  Core.tone (a.daysLeft currentEpoch)

/-- What is stored of a subscription, the keys of one kind as one map. The stored text of a
number reads back as that number. -/
structure AlertState where
  seen : Bool
  poi : AList fun _ : String => Tone
  denied : AList fun _ : String => Bool
  signal : AList fun _ : String => ℚ
  cuts : Option (Int × Int)
  reo : Option String

namespace AlertState

def empty : AlertState := ⟨false, ∅, ∅, ∅, none, none⟩

def isEmpty (state : AlertState) : Bool :=
  !state.seen && state.poi.keys.isEmpty && state.denied.keys.isEmpty &&
    state.signal.keys.isEmpty && state.cuts.isNone && state.reo.isNone

/-- The tone at the last look, `fresh` if there was none. -/
def poiTone (prev : AlertState) (id : String) : Tone :=
  (prev.poi.lookup id).getD .fresh

def wasDenied (prev : AlertState) (hash : String) : Bool :=
  (prev.denied.lookup hash).getD false

end AlertState

/-- How far a signal is from its baseline: `moved`, in percent. -/
inductive Move where
  | percent (moved : ℚ)
  | infinite
deriving DecidableEq

def signalMove (baseline signal : ℚ) : Move :=
  if 0 < baseline then .percent (100 * (signal - baseline) / baseline)
  else if 0 < signal then .infinite
  else .percent 0

def Move.atLeast (signalMovePct : ℚ) : Move → Prop
  | percent moved => signalMovePct ≤ |moved|
  | infinite => True

instance (signalMovePct : ℚ) (move : Move) : Decidable (move.atLeast signalMovePct) :=
  match move with
  | .percent moved => inferInstanceAs (Decidable (signalMovePct ≤ |moved|))
  | .infinite => .isTrue trivial

def Move.up : Move → Bool
  | percent moved => 0 < moved
  | infinite => true

/-- `moved.clamp(-100.0, 9_999.0)`. -/
def Move.shown : Move → ℚ
  | percent moved => max (-100) (min moved 9999)
  | infinite => 9999

/-- An event, by what it is about. -/
inductive Alert where
  | poi (a : AllocSnap) (daysLeft : Int)
  | denied (a : AllocSnap)
  | signal (a : AllocSnap) (baseline : ℚ)
  | cuts (was now : Int × Int)
  | reo (was now : String)
deriving DecidableEq

def Alert.kind : Alert → AlertKind
  | poi .. => .poi
  | denied .. => .denied
  | signal .. => .signal
  | cuts .. => .cuts
  | reo .. => .reo

section Messages

-- `format!` of an f64 with a number of decimals.
variable (fixed : Nat → ℚ → String)

def pct (ppm : Int) : String := fixed 2 (ppm / 10000) ++ "%"

def Alert.message : Alert → String
  | poi a daysLeft =>
    if Core.tone daysLeft = .close ∧ daysLeft ≤ 0 then
      s!"POI overdue: {a.label} is {-daysLeft}d past maxPOIStaleness and can be force-closed. " ++
        s!"Allocation {a.id}."
    else if Core.tone daysLeft = .close then
      s!"POI due now: {a.label} has {daysLeft}d before it can be force-closed. Allocation {a.id}."
    else s!"POI due soon: {a.label} has {daysLeft}d left. Allocation {a.id}."
  | denied a =>
    if a.denied then
      s!"Rewards denied: {a.label} is on the RewardsManager denylist. Allocations there earn " ++
        "nothing."
    else s!"Rewards allowed again: {a.label} is off the denylist."
  | signal a baseline =>
    let moved := signalMove baseline a.signalGrt
    "Signal " ++ (if moved.up then "up" else "down") ++ " on " ++ a.label ++ ": " ++
      fixed 0 baseline ++ " to " ++ fixed 0 a.signalGrt ++ " GRT (" ++
      (if moved.up then "+" else "") ++ fixed 0 moved.shown ++ "%)."
  | cuts was now =>
    "Cuts changed: indexing rewards " ++ pct fixed was.1 ++ " to " ++ pct fixed now.1 ++
      ", query fees " ++ pct fixed was.2 ++ " to " ++ pct fixed now.2 ++ "."
  | reo was now => s!"REO status changed: {was} to {now}."

structure AlertEvent where
  kind : AlertKind
  message : String
deriving DecidableEq

def Alert.event (alert : Alert) : AlertEvent := ⟨alert.kind, alert.message fixed⟩

end Messages

/-- The kinds a subscriber chose, and the percentage from which a move of the signal counts. -/
structure AlertChoice where
  kinds : List String
  signalMovePct : ℚ

def AlertChoice.on (choice : AlertChoice) (kind : AlertKind) : Prop :=
  kind.text ∈ choice.kinds

instance (choice : AlertChoice) (kind : AlertKind) : Decidable (choice.on kind) :=
  inferInstanceAs (Decidable (_ ∈ _))

section Evaluate

variable (prev : AlertState) (choice : AlertChoice)

def poiAlert (currentEpoch : Int) (a : AllocSnap) : Option Alert :=
  if choice.on .poi ∧ ¬ prev.isEmpty ∧ (prev.poiTone a.id).rank < (a.tone currentEpoch).rank then
    some (.poi a (a.daysLeft currentEpoch))
  else none

def deniedAlert (a : AllocSnap) : Option Alert :=
  if choice.on .denied ∧ ¬ prev.isEmpty ∧ a.denied ≠ prev.wasDenied a.ipfsHash then
    some (.denied a)
  else none

/-- The baseline that the signal has moved away from by enough. -/
def movedFrom (a : AllocSnap) : Option ℚ :=
  (prev.signal.lookup a.ipfsHash).filter fun baseline =>
    (signalMove baseline a.signalGrt).atLeast choice.signalMovePct

def signalAlert (a : AllocSnap) : Option Alert :=
  if choice.on .signal ∧ ¬ prev.isEmpty then (movedFrom prev choice a).map (.signal a) else none

/-- The level at the last alert, so that a slow drift still arrives. -/
def signalKeep (a : AllocSnap) : ℚ :=
  match prev.signal.lookup a.ipfsHash, movedFrom prev choice a with
  | some baseline, none => baseline
  | _, _ => a.signalGrt

def cutsAlert (snap : Snapshot) : Option Alert :=
  match snap.indexingRewardCut, snap.queryFeeCut, prev.cuts with
  | some irc, some qfc, some was =>
    if choice.on .cuts ∧ was ≠ (irc, qfc) then some (.cuts was (irc, qfc)) else none
  | _, _, _ => none

def cutsNext (snap : Snapshot) : Option (Int × Int) :=
  match snap.indexingRewardCut, snap.queryFeeCut with
  | some irc, some qfc => some (irc, qfc)
  | _, _ => prev.cuts

def reoAlert (snap : Snapshot) : Option Alert :=
  match snap.reoStatus, prev.reo with
  | some now, some was => if choice.on .reo ∧ was ≠ now then some (.reo was now) else none
  | _, _ => none

def reoNext (snap : Snapshot) : Option String :=
  match snap.reoStatus with
  | some now => some now
  | none => prev.reo

/-- What the walk over the allocations has gathered. -/
structure Evaluation where
  alerts : List Alert
  next : AlertState
  deployments : List String

/-- The tone of an allocation, and of its deployment the denial and the signal if it is the
first allocation there. -/
def evaluateAllocation (currentEpoch : Int) (walk : Evaluation) (a : AllocSnap) : Evaluation :=
  let alerts := walk.alerts ++ (poiAlert prev choice currentEpoch a).toList
  let next := { walk.next with poi := walk.next.poi.insert a.id (a.tone currentEpoch) }
  if a.ipfsHash ∈ walk.deployments then ⟨alerts, next, walk.deployments⟩
  else
    ⟨alerts ++ (deniedAlert prev choice a).toList ++ (signalAlert prev choice a).toList,
      { next with
        denied := next.denied.insert a.ipfsHash a.denied
        signal := next.signal.insert a.ipfsHash (signalKeep prev choice a) },
      a.ipfsHash :: walk.deployments⟩

/-- The alerts since `prev`, and the state to store. -/
def evaluate (snap : Snapshot) : List Alert × AlertState :=
  let walk := snap.allocations.foldl (evaluateAllocation prev choice snap.currentEpoch)
    ⟨[], { AlertState.empty with seen := true }, []⟩
  (walk.alerts ++ (cutsAlert prev choice snap).toList ++ (reoAlert prev choice snap).toList,
    { walk.next with cuts := cutsNext prev snap, reo := reoNext prev snap })

variable {prev choice}

/-- The first allocation of its deployment. -/
def Leads (allocations : List AllocSnap) (a : AllocSnap) : Prop :=
  (allocations.find? fun b => b.ipfsHash = a.ipfsHash) = some a

/-- The first row leads its deployment, and a later one when the first is of another. -/
theorem leads_cons {first a : AllocSnap} {rest : List AllocSnap} :
    Leads (first :: rest) a ↔ first = a ∨ first.ipfsHash ≠ a.ipfsHash ∧ Leads rest a := by
  rw [Leads, List.find?_cons]
  by_cases same : first.ipfsHash = a.ipfsHash
  · simp [same]
  · have other : first ≠ a := fun eq => same (congrArg AllocSnap.ipfsHash eq)
    simp [same, other, Leads]

/-- A leading row is listed. -/
theorem Leads.mem {allocations : List AllocSnap} {a : AllocSnap} (leads : Leads allocations a) :
    a ∈ allocations :=
  List.mem_of_find?_eq_some leads

/-- A listed deployment has a first allocation. -/
theorem exists_leads {allocations : List AllocSnap} {a : AllocSnap} (listed : a ∈ allocations) :
    ∃ lead, Leads allocations lead ∧ lead.ipfsHash = a.ipfsHash := by
  cases found : allocations.find? (fun b => decide (b.ipfsHash = a.ipfsHash)) with
  | none =>
    have none_there := List.find?_eq_none.mp found a listed
    simp at none_there
  | some lead =>
    have same : lead.ipfsHash = a.ipfsHash := by simpa using List.find?_some found
    exact ⟨lead, by rw [Leads, same, found], same⟩

/-- The step of the walk, by what each field becomes. -/
theorem deployments_evaluateAllocation {currentEpoch : Int} {walk : Evaluation} {a : AllocSnap}
    {hash : String} :
    hash ∈ (evaluateAllocation prev choice currentEpoch walk a).deployments ↔
      hash = a.ipfsHash ∨ hash ∈ walk.deployments := by
  rw [evaluateAllocation]
  by_cases known : a.ipfsHash ∈ walk.deployments
  · rw [if_pos known]
    exact ⟨.inr, fun either => either.elim (fun eq => eq ▸ known) id⟩
  · rw [if_neg known]
    exact List.mem_cons

private theorem poi_evaluateAllocation {currentEpoch : Int} {walk : Evaluation} {a : AllocSnap} :
    (evaluateAllocation prev choice currentEpoch walk a).next.poi =
      walk.next.poi.insert a.id (a.tone currentEpoch) := by
  rw [evaluateAllocation]
  by_cases known : a.ipfsHash ∈ walk.deployments <;> simp [known]

private theorem seen_evaluateAllocation {currentEpoch : Int} {walk : Evaluation} {a : AllocSnap} :
    (evaluateAllocation prev choice currentEpoch walk a).next.seen = walk.next.seen := by
  rw [evaluateAllocation]
  by_cases known : a.ipfsHash ∈ walk.deployments <;> simp [known]

/-- What a walk reports that has been at some deployments: something of each allocation, and
something of the first one of each other deployment. -/
def walkAlerts (each lead : AllocSnap → List Alert) : List String → List AllocSnap → List Alert
  | _, [] => []
  | seen, a :: rest =>
    each a ++ if a.ipfsHash ∈ seen then walkAlerts each lead seen rest
      else lead a ++ walkAlerts each lead (a.ipfsHash :: seen) rest

/-- The walk tells each row's own alerts, and a deployment's alerts at its first row only. -/
theorem mem_walkAlerts {each lead : AllocSnap → List Alert} {seen : List String}
    {allocations : List AllocSnap} {alert : Alert} :
    alert ∈ walkAlerts each lead seen allocations ↔
      (∃ a ∈ allocations, alert ∈ each a) ∨
        ∃ a, Leads allocations a ∧ a.ipfsHash ∉ seen ∧ alert ∈ lead a := by
  induction allocations generalizing seen with
  | nil => simp [walkAlerts, Leads]
  | cons first rest ih =>
    rw [walkAlerts, List.mem_append, List.exists_mem_cons_iff, or_assoc]
    refine or_congr_right ?_
    simp only [leads_cons]
    by_cases known : first.ipfsHash ∈ seen
    · rw [if_pos known, ih]
      refine or_congr_right ⟨?_, ?_⟩
      · rintro ⟨a, leads, new, told⟩
        exact ⟨a, .inr ⟨fun eq => new (eq ▸ known), leads⟩, new, told⟩
      · rintro ⟨a, rfl | ⟨-, leads⟩, new, told⟩
        · exact absurd known new
        · exact ⟨a, leads, new, told⟩
    · rw [if_neg known, List.mem_append, ih]
      simp only [List.mem_cons, not_or]
      constructor
      · rintro (told | listed | ⟨a, leads, ⟨other, new⟩, told⟩)
        · exact .inr ⟨first, .inl rfl, known, told⟩
        · exact .inl listed
        · exact .inr ⟨a, .inr ⟨fun eq => other eq.symm, leads⟩, new, told⟩
      · rintro (listed | ⟨a, rfl | ⟨other, leads⟩, new, told⟩)
        · exact .inr (.inl listed)
        · exact .inl told
        · exact .inr (.inr ⟨a, leads, ⟨fun eq => other eq.symm, new⟩, told⟩)

/-- The walk over the allocations appends its alerts to those it started with. -/
theorem alerts_walk {currentEpoch : Int} {allocations : List AllocSnap} {walk : Evaluation} :
    (allocations.foldl (evaluateAllocation prev choice currentEpoch) walk).alerts =
      walk.alerts ++ walkAlerts (fun a => (poiAlert prev choice currentEpoch a).toList)
        (fun a => (deniedAlert prev choice a).toList ++ (signalAlert prev choice a).toList)
        walk.deployments allocations := by
  induction allocations generalizing walk with
  | nil => exact (List.append_nil _).symm
  | cons first rest ih =>
    rw [List.foldl_cons, ih, evaluateAllocation, walkAlerts]
    by_cases known : first.ipfsHash ∈ walk.deployments <;> simp [known]

/-- A map that the walk writes once for each deployment holds the value of its first
allocation. -/
theorem lookup_walk {V : Type} {currentEpoch : Int} (read : AlertState → AList fun _ : String => V)
    (value : AllocSnap → V)
    (writes : ∀ walk a, read (evaluateAllocation prev choice currentEpoch walk a).next =
      if a.ipfsHash ∈ walk.deployments then read walk.next
      else (read walk.next).insert a.ipfsHash (value a))
    (allocations : List AllocSnap) (walk : Evaluation) (hash : String) :
    (read (allocations.foldl (evaluateAllocation prev choice currentEpoch) walk).next).lookup hash =
      if hash ∈ walk.deployments then (read walk.next).lookup hash
      else ((allocations.find? fun a => a.ipfsHash = hash).map value).or
        ((read walk.next).lookup hash) := by
  induction allocations generalizing walk with
  | nil => simp
  | cons first rest ih =>
    rw [List.foldl_cons, ih, writes, List.find?_cons]
    simp only [deployments_evaluateAllocation]
    by_cases same : first.ipfsHash = hash
    · subst same
      by_cases known : first.ipfsHash ∈ walk.deployments <;> simp [known]
    · have other : hash ≠ first.ipfsHash := fun eq => same eq.symm
      by_cases known : first.ipfsHash ∈ walk.deployments <;>
        simp [known, same, other, AList.lookup_insert_ne other]

/-- A stored tone is that of a listed allocation, or was stored before the walk. -/
theorem poi_walk {currentEpoch : Int} {allocations : List AllocSnap} {walk : Evaluation}
    {id : String} {stored : Tone}
    (found : (allocations.foldl (evaluateAllocation prev choice currentEpoch)
      walk).next.poi.lookup id = some stored) :
    (∃ a ∈ allocations, a.id = id ∧ a.tone currentEpoch = stored) ∨
      walk.next.poi.lookup id = some stored := by
  induction allocations generalizing walk with
  | nil => exact .inr found
  | cons first rest ih =>
    rcases ih found with ⟨a, listed, about⟩ | before
    · exact .inl ⟨a, List.mem_cons_of_mem _ listed, about⟩
    · rw [poi_evaluateAllocation] at before
      by_cases same : id = first.id
      · subst same
        rw [AList.lookup_insert] at before
        exact .inl ⟨first, List.mem_cons_self, rfl, Option.some.inj before⟩
      · rw [AList.lookup_insert_ne same] at before
        exact .inr before

private theorem seen_walk {currentEpoch : Int} {allocations : List AllocSnap} {walk : Evaluation} :
    (allocations.foldl (evaluateAllocation prev choice currentEpoch) walk).next.seen =
      walk.next.seen := by
  induction allocations generalizing walk with
  | nil => rfl
  | cons first rest ih => rw [List.foldl_cons, ih, seen_evaluateAllocation]

/-- What an evaluation reports. -/
theorem mem_evaluate {snap : Snapshot} {alert : Alert} :
    alert ∈ (evaluate prev choice snap).1 ↔
      (∃ a ∈ snap.allocations, poiAlert prev choice snap.currentEpoch a = some alert) ∨
        (∃ a, Leads snap.allocations a ∧
          (deniedAlert prev choice a = some alert ∨ signalAlert prev choice a = some alert)) ∨
        cutsAlert prev choice snap = some alert ∨ reoAlert prev choice snap = some alert := by
  simp [evaluate, alerts_walk, mem_walkAlerts, or_assoc]

section Next

variable {snap : Snapshot}

@[simp] theorem seen_evaluate : (evaluate prev choice snap).2.seen = true := by
  simp [evaluate, seen_walk]

/-- What is stored is never empty, so only the first look is a first look. -/
@[simp] theorem isEmpty_evaluate : ¬ (evaluate prev choice snap).2.isEmpty := by
  simp [AlertState.isEmpty]

@[simp] theorem cuts_evaluate : (evaluate prev choice snap).2.cuts = cutsNext prev snap := rfl

@[simp] theorem reo_evaluate : (evaluate prev choice snap).2.reo = reoNext prev snap := rfl

/-- A tone the evaluation stores is that of a listed allocation. -/
theorem poi_evaluate {id : String} {stored : Tone}
    (found : (evaluate prev choice snap).2.poi.lookup id = some stored) :
    ∃ a ∈ snap.allocations, a.id = id ∧ a.tone snap.currentEpoch = stored := by
  rcases poi_walk found with told | initial
  · exact told
  · cases initial

/-- The denial stored for a deployment is that of its first listed allocation. -/
theorem denied_evaluate (hash : String) :
    (evaluate prev choice snap).2.denied.lookup hash =
      (snap.allocations.find? fun a => a.ipfsHash = hash).map AllocSnap.denied := by
  refine (lookup_walk AlertState.denied AllocSnap.denied (fun walk a => ?_) _ _ _).trans
    (by simp [AlertState.empty])
  rw [evaluateAllocation]
  by_cases known : a.ipfsHash ∈ walk.deployments <;> simp [known]

/-- The signal stored for a deployment is kept by its first listed allocation. -/
theorem signal_evaluate (hash : String) :
    (evaluate prev choice snap).2.signal.lookup hash =
      (snap.allocations.find? fun a => a.ipfsHash = hash).map (signalKeep prev choice) := by
  refine (lookup_walk AlertState.signal (signalKeep prev choice) (fun walk a => ?_) _ _ _).trans
    (by simp [AlertState.empty])
  rw [evaluateAllocation]
  by_cases known : a.ipfsHash ∈ walk.deployments <;> simp [known]

end Next

end Evaluate

end Foghorn.Core
