import Mathlib.Data.Finmap
import Foghorn.Core.Alerts
import Foghorn.Core.Decimal
import Foghorn.Std.Collections

/-!
# The evaluation over the stored texts

A subscription's state is stored as a map from text to text. The evaluation here reads and
writes the texts, for every map that the table may hold; one that an evaluation has stored
reads back as an `AlertState`.
-/

namespace Foghorn.Core

open Foghorn.Std

/-- `State`. -/
abbrev StoredState := Finmap fun _ : String => String

inductive StoredKey where
  | seen
  | poi (id : String)
  | denied (hash : String)
  | signal (hash : String)
  | cuts
  | reo
deriving DecidableEq

def StoredKey.text : StoredKey → String
  | seen => "seen"
  | poi id => "poi:" ++ id
  | denied hash => "denied:" ++ hash
  | signal hash => "signal:" ++ hash
  | cuts => "cuts"
  | reo => "reo"

/-- No id or hash makes one key look like another. -/
theorem StoredKey.text_injective : Function.Injective StoredKey.text := by
  intro first second same
  have chars := congrArg String.toList same
  cases first <;> cases second <;> simp [StoredKey.text, String.toList_inj] at chars ⊢ <;>
    exact chars

namespace StoredState

def get (state : StoredState) (key : StoredKey) : Option String := state.lookup key.text

def put (state : StoredState) (key : StoredKey) (text : String) : StoredState :=
  state.insert key.text text

@[simp] theorem get_put_self (state : StoredState) (key : StoredKey) (text : String) :
    (state.put key text).get key = some text :=
  Finmap.lookup_insert _

private theorem get_put_ne {key other : StoredKey} (ne : other ≠ key) (state : StoredState)
    (text : String) : (state.put key text).get other = state.get other :=
  Finmap.lookup_insert_of_ne _ fun eq => ne (StoredKey.text_injective eq)

/-- Storing a text under a key changes that key alone. -/
theorem get_put (state : StoredState) (key other : StoredKey) (text : String) :
    (state.put key text).get other = if other = key then some text else state.get other := by
  by_cases same : other = key
  · rw [if_pos same, same, get_put_self]
  · rw [if_neg same, get_put_ne same]

@[simp] theorem get_empty (key : StoredKey) : get ∅ key = none := Finmap.lookup_empty _

/-- A state that holds a text is not empty. -/
theorem ne_empty_of_get {state : StoredState} {key : StoredKey} {text : String}
    (stored : state.get key = some text) : state ≠ ∅ := by
  rintro rfl
  rw [get_empty] at stored
  cases stored

end StoredState

/-- How an amount is written, and read back as the same number. -/
structure AmountText where
  text : ℚ → String
  parse : String → Option ℚ
  parse_text : ∀ amount, parse (text amount) = some amount

/-- Amounts as whole numbers where they are, and as fractions. -/
def AmountText.fractions : AmountText where
  text amount :=
    if amount.den = 1 then amount.num.repr else amount.num.repr ++ "/" ++ amount.den.repr
  parse text :=
    let (num, rest) := text.toList.span (· ≠ '/')
    (signedValue num).bind fun num =>
      ((match rest with
        | _ :: den => digitsValue den
        | [] => some 1)).map (mkRat num)
  parse_text amount := by
    by_cases whole : amount.den = 1
    · have chars := span_repr amount.num (.inl rfl)
      rw [List.append_nil] at chars
      rw [if_pos whole, chars]
      simp only [signedValue_repr, Option.bind_some, Option.map_some]
      rw [← whole, Rat.mkRat_self]
    · rw [if_neg whole, String.toList_append, String.toList_append, Nat.toList_repr]
      have slash : "/".toList = ['/'] := by decide
      rw [slash, List.append_assoc, span_repr _ (.inr rfl)]
      simp only [signedValue_repr, Option.bind_some, List.singleton_append, digitsValue_toDigits,
        Option.map_some, Rat.mkRat_self]

def Tone.text : Tone → String
  | fresh => "fresh"
  | due => "due"
  | close => "close"

/-- `tone_rank`, of a stored text. -/
def toneRank (text : String) : Nat :=
  if text = "close" then 2 else if text = "due" then 1 else 0

@[simp] theorem toneRank_text (tone : Tone) : toneRank tone.text = tone.rank := by
  cases tone <;> rfl

def flagText (flag : Bool) : String := if flag then "1" else "0"

@[simp] theorem flagText_eq_one {flag : Bool} : flagText flag = "1" ↔ flag = true := by
  cases flag <;> decide

def cutsText (cuts : Int × Int) : String := s!"{cuts.1}/{cuts.2}"

/-- `split_once('/')` with both halves parsed, `0` for what does not parse. -/
def readCuts (text : String) : Int × Int :=
  match text.toList.span (· ≠ '/') with
  | (wi, _ :: wq) => ((parseI64 (.ofList wi)).getD 0, (parseI64 (.ofList wq)).getD 0)
  | _ => (0, 0)

section Evaluate

variable (amounts : AmountText) (prev : StoredState) (choice : AlertChoice)

def storedPoiAlert (currentEpoch : Int) (a : AllocSnap) : Option Alert :=
  let was := (prev.get (.poi a.id)).getD "fresh"
  if choice.on .poi ∧ prev ≠ ∅ ∧ toneRank was < toneRank (a.tone currentEpoch).text then
    some (.poi a (a.daysLeft currentEpoch))
  else none

def storedDeniedAlert (a : AllocSnap) : Option Alert :=
  let wasDenied := decide (prev.get (.denied a.ipfsHash) = some "1")
  if choice.on .denied ∧ prev ≠ ∅ ∧ a.denied ≠ wasDenied then some (.denied a) else none

/-- The baseline, unless it is missing or does not parse. -/
def storedBaseline (hash : String) : Option ℚ := (prev.get (.signal hash)).bind amounts.parse

def storedMovedFrom (a : AllocSnap) : Option ℚ :=
  (storedBaseline amounts prev a.ipfsHash).filter fun baseline =>
    (signalMove baseline a.signalGrt).atLeast choice.signalMovePct

def storedSignalAlert (a : AllocSnap) : Option Alert :=
  if choice.on .signal ∧ prev ≠ ∅ then (storedMovedFrom amounts prev choice a).map (.signal a)
  else none

/-- `keep`. -/
def storedKeep (a : AllocSnap) : ℚ :=
  match storedBaseline amounts prev a.ipfsHash, storedMovedFrom amounts prev choice a with
  | some baseline, none => baseline
  | _, _ => a.signalGrt

def storedCutsAlert (snap : Snapshot) : Option Alert :=
  match snap.indexingRewardCut, snap.queryFeeCut, prev.get .cuts with
  | some irc, some qfc, some was =>
    if choice.on .cuts ∧ was ≠ cutsText (irc, qfc) then some (.cuts (readCuts was) (irc, qfc))
    else none
  | _, _, _ => none

def storedCutsNext (snap : Snapshot) : Option String :=
  match snap.indexingRewardCut, snap.queryFeeCut with
  | some irc, some qfc => some (cutsText (irc, qfc))
  | _, _ => prev.get .cuts

def storedReoAlert (snap : Snapshot) : Option Alert :=
  match snap.reoStatus, prev.get .reo with
  | some now, some was => if choice.on .reo ∧ was ≠ now then some (.reo was now) else none
  | _, _ => none

def storedReoNext (snap : Snapshot) : Option String :=
  match snap.reoStatus with
  | some now => some now
  | none => prev.get .reo

structure StoredEvaluation where
  alerts : List Alert
  next : StoredState
  deployments : List String

def evaluateStoredAllocation (currentEpoch : Int) (walk : StoredEvaluation) (a : AllocSnap) :
    StoredEvaluation :=
  let alerts := walk.alerts ++ (storedPoiAlert prev choice currentEpoch a).toList
  let next := walk.next.put (.poi a.id) (a.tone currentEpoch).text
  -- `continue` for a deployment that the walk has been at.
  if a.ipfsHash ∈ walk.deployments then ⟨alerts, next, walk.deployments⟩
  else
    ⟨alerts ++ (storedDeniedAlert prev choice a).toList ++
        (storedSignalAlert amounts prev choice a).toList,
      (next.put (.denied a.ipfsHash) (flagText a.denied)).put (.signal a.ipfsHash)
        (amounts.text (storedKeep amounts prev choice a)),
      a.ipfsHash :: walk.deployments⟩

def StoredState.putSome (state : StoredState) (key : StoredKey) : Option String → StoredState
  | some text => state.put key text
  | none => state

def storedWalk (snap : Snapshot) : StoredEvaluation :=
  snap.allocations.foldl (evaluateStoredAllocation amounts prev choice snap.currentEpoch)
    ⟨[], StoredState.put ∅ .seen "1", []⟩

/-- `evaluate`. -/
def evaluateStored (snap : Snapshot) : List Alert × StoredState :=
  let walk := storedWalk amounts prev choice snap
  (walk.alerts ++ (storedCutsAlert prev choice snap).toList ++
      (storedReoAlert prev choice snap).toList,
    (walk.next.putSome .cuts (storedCutsNext prev snap)).putSome .reo (storedReoNext prev snap))

end Evaluate

section Walk

variable {amounts : AmountText} {prev : StoredState} {choice : AlertChoice} {currentEpoch : Int}

private theorem get_putSome (state : StoredState) (key other : StoredKey) (text : Option String) :
    (state.putSome key text).get other = if other = key then text.or (state.get key)
      else state.get other := by
  cases text with
  | none =>
    by_cases same : other = key <;> simp [StoredState.putSome, same]
  | some text => simp [StoredState.putSome, StoredState.get_put]

/-- What the step of the walk writes under each key. -/
theorem get_evaluateStoredAllocation {walk : StoredEvaluation} {a : AllocSnap} (key : StoredKey) :
    (evaluateStoredAllocation amounts prev choice currentEpoch walk a).next.get key =
      if key = .poi a.id then some (a.tone currentEpoch).text
      else if a.ipfsHash ∈ walk.deployments then walk.next.get key
      else if key = .denied a.ipfsHash then some (flagText a.denied)
      else if key = .signal a.ipfsHash then some (amounts.text (storedKeep amounts prev choice a))
      else walk.next.get key := by
  rw [evaluateStoredAllocation]
  by_cases known : a.ipfsHash ∈ walk.deployments
  · simp only [if_pos known, StoredState.get_put]
  · simp only [if_neg known, StoredState.get_put]
    cases key <;> simp

private theorem mem_deployments_evaluateStoredAllocation {walk : StoredEvaluation} {a : AllocSnap}
    {hash : String} :
    hash ∈ (evaluateStoredAllocation amounts prev choice currentEpoch walk a).deployments ↔
      hash = a.ipfsHash ∨ hash ∈ walk.deployments := by
  rw [evaluateStoredAllocation]
  by_cases known : a.ipfsHash ∈ walk.deployments
  · rw [if_pos known]
    exact ⟨.inr, fun either => either.elim (fun eq => eq ▸ known) id⟩
  · rw [if_neg known]
    exact List.mem_cons

/-- The walk stores each listed allocation's tone. -/
theorem get_poi_foldl {allocations : List AllocSnap} {walk : StoredEvaluation} (id : String)
    (distinct : (allocations.map AllocSnap.id).Nodup) :
    (allocations.foldl (evaluateStoredAllocation amounts prev choice currentEpoch)
        walk).next.get (.poi id) =
      ((allocations.find? fun a => a.id = id).map fun a => (a.tone currentEpoch).text).or
        (walk.next.get (.poi id)) := by
  induction allocations generalizing walk with
  | nil => rfl
  | cons first rest ih =>
    obtain ⟨fresh, later⟩ := List.nodup_cons.mp distinct
    rw [List.foldl_cons, ih later, get_evaluateStoredAllocation, List.find?_cons]
    by_cases same : first.id = id
    · -- No later allocation has the id, so what the first one stored stays.
      simp [same, find?_name_eq_none (same ▸ fresh)]
    · simp [same, Ne.symm same]

/-- A key that the walk writes once for each deployment holds what its first allocation says. -/
theorem get_foldl_of_writes (key : StoredKey) (hash : String) (value : AllocSnap → String)
    (writes : ∀ (walk : StoredEvaluation) a,
      (evaluateStoredAllocation amounts prev choice currentEpoch walk a).next.get key =
        if a.ipfsHash = hash ∧ hash ∉ walk.deployments then some (value a) else walk.next.get key)
    (allocations : List AllocSnap) (walk : StoredEvaluation) :
    (allocations.foldl (evaluateStoredAllocation amounts prev choice currentEpoch)
        walk).next.get key =
      if hash ∈ walk.deployments then walk.next.get key
      else ((allocations.find? fun a => a.ipfsHash = hash).map value).or (walk.next.get key) := by
  induction allocations generalizing walk with
  | nil => simp
  | cons first rest ih =>
    rw [List.foldl_cons, ih, writes, List.find?_cons]
    simp only [mem_deployments_evaluateStoredAllocation]
    by_cases known : hash ∈ walk.deployments
    · simp [known]
    · by_cases same : first.ipfsHash = hash
      · simp [same, known]
      · simp [same, Ne.symm same, known]

/-- The walk tells each row's POI alert, and a deployment's alerts at its first row only. -/
theorem alerts_foldl {allocations : List AllocSnap} {walk : StoredEvaluation} :
    (allocations.foldl (evaluateStoredAllocation amounts prev choice currentEpoch) walk).alerts =
      walk.alerts ++ walkAlerts (fun a => (storedPoiAlert prev choice currentEpoch a).toList)
        (fun a => (storedDeniedAlert prev choice a).toList ++
          (storedSignalAlert amounts prev choice a).toList)
        walk.deployments allocations := by
  induction allocations generalizing walk with
  | nil => exact (List.append_nil _).symm
  | cons first rest ih =>
    rw [List.foldl_cons, ih, evaluateStoredAllocation, walkAlerts]
    by_cases known : first.ipfsHash ∈ walk.deployments <;> simp [known]

/-- The keys that are not about an allocation. -/
def StoredKey.Whole (key : StoredKey) : Prop := key = .seen ∨ key = .cuts ∨ key = .reo

private theorem get_whole_foldl {allocations : List AllocSnap} {walk : StoredEvaluation}
    {key : StoredKey}
    (whole : key.Whole) :
    (allocations.foldl (evaluateStoredAllocation amounts prev choice currentEpoch)
        walk).next.get key = walk.next.get key := by
  induction allocations generalizing walk with
  | nil => rfl
  | cons first rest ih =>
    rw [List.foldl_cons, ih, get_evaluateStoredAllocation]
    rcases whole with rfl | rfl | rfl <;> simp

end Walk

section Next

variable {amounts : AmountText} {prev : StoredState} {choice : AlertChoice} {snap : Snapshot}

/-- Below the cuts and the REO figure a cycle stores what its walk stored. -/
theorem get_evaluateStored_of_walk (key : StoredKey) (cuts : key ≠ .cuts) (reo : key ≠ .reo) :
    (evaluateStored amounts prev choice snap).2.get key =
      (storedWalk amounts prev choice snap).next.get key := by
  rw [evaluateStored, get_putSome, if_neg reo, get_putSome, if_neg cuts]

@[simp] theorem get_evaluateStored_seen :
    (evaluateStored amounts prev choice snap).2.get .seen = some "1" := by
  rw [get_evaluateStored_of_walk .seen nofun nofun, storedWalk, get_whole_foldl (.inl rfl)]
  exact StoredState.get_put_self _ _ _

/-- What is stored is never empty, so only the first look is a first look. -/
theorem evaluateStored_ne_empty : (evaluateStored amounts prev choice snap).2 ≠ ∅ :=
  StoredState.ne_empty_of_get get_evaluateStored_seen

/-- A cycle stores the tone of each listed allocation and of no other. -/
theorem get_evaluateStored_poi (distinct : (snap.allocations.map AllocSnap.id).Nodup)
    (id : String) :
    (evaluateStored amounts prev choice snap).2.get (.poi id) =
      (snap.allocations.find? fun a => a.id = id).map fun a =>
        (a.tone snap.currentEpoch).text := by
  rw [get_evaluateStored_of_walk (.poi id) nofun nofun, storedWalk, get_poi_foldl id distinct]
  simp [StoredState.get_put]

/-- A cycle stores the denial of each deployment's first row. -/
theorem get_evaluateStored_denied (hash : String) :
    (evaluateStored amounts prev choice snap).2.get (.denied hash) =
      (snap.allocations.find? fun a => a.ipfsHash = hash).map fun a => flagText a.denied := by
  rw [get_evaluateStored_of_walk (.denied hash) nofun nofun, storedWalk,
    get_foldl_of_writes _ hash fun a => flagText a.denied]
  · simp [StoredState.get_put]
  · intro walk a
    rw [get_evaluateStoredAllocation]
    by_cases known : a.ipfsHash ∈ walk.deployments <;> by_cases same : a.ipfsHash = hash
    all_goals simp_all [eq_comm]

/-- A cycle stores the kept signal of each deployment's first row. -/
theorem get_evaluateStored_signal (hash : String) :
    (evaluateStored amounts prev choice snap).2.get (.signal hash) =
      (snap.allocations.find? fun a => a.ipfsHash = hash).map fun a =>
        amounts.text (storedKeep amounts prev choice a) := by
  rw [get_evaluateStored_of_walk (.signal hash) nofun nofun, storedWalk,
    get_foldl_of_writes _ hash fun a => amounts.text (storedKeep amounts prev choice a)]
  · simp [StoredState.get_put]
  · intro walk a
    rw [get_evaluateStoredAllocation]
    by_cases known : a.ipfsHash ∈ walk.deployments <;> by_cases same : a.ipfsHash = hash
    all_goals simp_all [eq_comm]

@[simp] theorem get_evaluateStored_cuts :
    (evaluateStored amounts prev choice snap).2.get .cuts = storedCutsNext prev snap := by
  rw [evaluateStored, get_putSome, if_neg nofun, get_putSome, if_pos rfl, storedWalk,
    get_whole_foldl (.inr (.inl rfl))]
  simp [StoredState.get_put]

@[simp] theorem get_evaluateStored_reo :
    (evaluateStored amounts prev choice snap).2.get .reo = storedReoNext prev snap := by
  rw [evaluateStored, get_putSome, if_pos rfl, get_putSome, if_neg nofun, storedWalk,
    get_whole_foldl (.inr (.inr rfl))]
  simp [StoredState.get_put]

end Next

section Again

variable {amounts : AmountText} {prev next : StoredState} {choice : AlertChoice} {snap : Snapshot}

/-- Walks that keep the same signals store the same. -/
theorem next_foldl_congr {currentEpoch : Int} {allocations : List AllocSnap}
    {one two : StoredEvaluation} (next_eq : one.next = two.next)
    (deployments_eq : one.deployments = two.deployments)
    (keeps : ∀ a, Leads allocations a → a.ipfsHash ∉ two.deployments →
      storedKeep amounts next choice a = storedKeep amounts prev choice a) :
    (allocations.foldl (evaluateStoredAllocation amounts next choice currentEpoch) one).next =
      (allocations.foldl (evaluateStoredAllocation amounts prev choice currentEpoch) two).next := by
  induction allocations generalizing one two with
  | nil => exact next_eq
  | cons first rest ih =>
    have later : ∀ a, Leads rest a → a.ipfsHash ≠ first.ipfsHash → a.ipfsHash ∉ two.deployments →
        storedKeep amounts next choice a = storedKeep amounts prev choice a :=
      fun a leads other => keeps a (leads_cons.mpr (.inr ⟨Ne.symm other, leads⟩))
    rw [List.foldl_cons, List.foldl_cons]
    refine ih ?_ ?_ fun a leads new => ?_
    · rw [evaluateStoredAllocation, evaluateStoredAllocation, deployments_eq, next_eq]
      by_cases known : first.ipfsHash ∈ two.deployments
      · simp only [if_pos known]
      · simp only [if_neg known, keeps first (leads_cons.mpr (.inl rfl)) known]
    · rw [evaluateStoredAllocation, evaluateStoredAllocation, deployments_eq]
      by_cases known : first.ipfsHash ∈ two.deployments <;> simp only [known, if_true, if_false]
    · rw [mem_deployments_evaluateStoredAllocation, not_or] at new
      exact later a leads new.1 new.2

/-- The baseline that an evaluation stores for the first allocation of a deployment. -/
theorem storedBaseline_evaluateStored {a : AllocSnap} (leads : Leads snap.allocations a) :
    storedBaseline amounts (evaluateStored amounts prev choice snap).2 a.ipfsHash =
      some (storedKeep amounts prev choice a) := by
  rw [storedBaseline, get_evaluateStored_signal, leads, Option.map_some, Option.bind_some,
    amounts.parse_text]

/-- A signal has not moved from itself. -/
theorem not_atLeast_self {signalMovePct signal : ℚ} (counts : 1 ≤ signalMovePct) :
    ¬ (signalMove signal signal).atLeast signalMovePct := by
  have not_zero : ¬ signalMovePct ≤ |(0 : ℚ)| := by
    rw [abs_zero, not_le]
    exact zero_lt_one.trans_le counts
  rw [signalMove]
  by_cases positive : 0 < signal
  · simpa [positive, Move.atLeast] using not_zero
  · simpa [positive, Move.atLeast] using not_zero

/-- Whether the signal was kept at its baseline or moved, it has not moved from what is kept. -/
theorem not_moved_from_keep (counts : 1 ≤ choice.signalMovePct) (a : AllocSnap) :
    ¬ (signalMove (storedKeep amounts prev choice a) a.signalGrt).atLeast choice.signalMovePct := by
  rw [storedKeep]
  split
  · next baseline stored unmoved =>
    rw [storedMovedFrom, stored] at unmoved
    simpa using Option.filter_eq_none_iff.mp unmoved
  · exact not_atLeast_self counts

/-- After a cycle its own snapshot shows no moved signal. -/
theorem storedMovedFrom_again (counts : 1 ≤ choice.signalMovePct) {a : AllocSnap}
    (leads : Leads snap.allocations a) :
    storedMovedFrom amounts (evaluateStored amounts prev choice snap).2 choice a = none := by
  rw [storedMovedFrom, storedBaseline_evaluateStored leads]
  exact Option.filter_eq_none_iff.mpr fun baseline kept => by
    cases kept
    simpa using not_moved_from_keep counts a

private theorem storedKeep_again (counts : 1 ≤ choice.signalMovePct) {a : AllocSnap}
    (leads : Leads snap.allocations a) :
    storedKeep amounts (evaluateStored amounts prev choice snap).2 choice a =
      storedKeep amounts prev choice a := by
  rw [storedKeep, storedBaseline_evaluateStored leads, storedMovedFrom_again counts leads]

/-- After a cycle its own snapshot raises no POI alert. -/
theorem storedPoiAlert_again (distinct : (snap.allocations.map AllocSnap.id).Nodup) {a : AllocSnap}
    (listed : a ∈ snap.allocations) :
    storedPoiAlert (evaluateStored amounts prev choice snap).2 choice snap.currentEpoch a = none := by
  rw [storedPoiAlert, get_evaluateStored_poi distinct, find?_name_of_nodup distinct listed]
  exact if_neg fun worse => lt_irrefl _ worse.2.2

/-- After a cycle its own snapshot raises no denial alert. -/
theorem storedDeniedAlert_again {a : AllocSnap} (leads : Leads snap.allocations a) :
    storedDeniedAlert (evaluateStored amounts prev choice snap).2 choice a = none := by
  rw [storedDeniedAlert, get_evaluateStored_denied, leads]
  exact if_neg fun changed => by simp at changed

private theorem storedCutsAlert_again :
    storedCutsAlert (evaluateStored amounts prev choice snap).2 choice snap = none := by
  rw [storedCutsAlert, get_evaluateStored_cuts, storedCutsNext]
  cases snap.indexingRewardCut <;> cases snap.queryFeeCut <;> simp

private theorem storedReoAlert_again :
    storedReoAlert (evaluateStored amounts prev choice snap).2 choice snap = none := by
  rw [storedReoAlert, get_evaluateStored_reo, storedReoNext]
  cases snap.reoStatus <;> simp

/-- An evaluation that is repeated on the state it stored reports nothing and stores it again. -/
theorem evaluateStored_again (distinct : (snap.allocations.map AllocSnap.id).Nodup)
    (counts : 1 ≤ choice.signalMovePct) :
    evaluateStored amounts (evaluateStored amounts prev choice snap).2 choice snap =
      ([], (evaluateStored amounts prev choice snap).2) := by
  have quiet : (storedWalk amounts (evaluateStored amounts prev choice snap).2 choice snap).alerts =
      [] := by
    rw [storedWalk, alerts_foldl, List.nil_append]
    refine List.eq_nil_iff_forall_not_mem.mpr fun alert told => ?_
    rcases mem_walkAlerts.mp told with ⟨a, listed, poi⟩ | ⟨a, leads, -, other⟩
    · rw [storedPoiAlert_again distinct listed] at poi
      cases poi
    · rw [storedDeniedAlert_again leads, storedSignalAlert, storedMovedFrom_again counts leads]
        at other
      simp at other
  have same : (storedWalk amounts (evaluateStored amounts prev choice snap).2 choice snap).next =
      (storedWalk amounts prev choice snap).next :=
    next_foldl_congr rfl rfl fun a leads _ => storedKeep_again counts leads
  rw [evaluateStored, quiet, same, storedCutsAlert_again, storedReoAlert_again]
  have cuts : storedCutsNext (evaluateStored amounts prev choice snap).2 snap =
      storedCutsNext prev snap := by
    rw [storedCutsNext, get_evaluateStored_cuts, storedCutsNext]
    cases snap.indexingRewardCut <;> cases snap.queryFeeCut <;> rfl
  have reo : storedReoNext (evaluateStored amounts prev choice snap).2 snap =
      storedReoNext prev snap := by
    rw [storedReoNext, get_evaluateStored_reo, storedReoNext]
    cases snap.reoStatus <;> rfl
  rw [cuts, reo]
  rfl

/-- A first look reports nothing. -/
theorem evaluateStored_empty : (evaluateStored amounts ∅ choice snap).1 = [] := by
  have quiet : (storedWalk amounts ∅ choice snap).alerts = [] := by
    rw [storedWalk, alerts_foldl, List.nil_append]
    refine List.eq_nil_iff_forall_not_mem.mpr fun alert told => ?_
    rcases mem_walkAlerts.mp told with ⟨a, -, poi⟩ | ⟨a, -, -, other⟩
    · simp [storedPoiAlert] at poi
    · simp [storedDeniedAlert, storedSignalAlert] at other
  have cuts : storedCutsAlert ∅ choice snap = none := by
    rw [storedCutsAlert, StoredState.get_empty]
    cases snap.indexingRewardCut <;> cases snap.queryFeeCut <;> rfl
  have reo : storedReoAlert ∅ choice snap = none := by
    rw [storedReoAlert, StoredState.get_empty]
    cases snap.reoStatus <;> rfl
  rw [evaluateStored, quiet, cuts, reo]
  rfl

/-- An alert is sent once: the state it leaves behind does not raise it again on the same
snapshot, and a first look raises none. -/
theorem alert_sent_once (amounts : AmountText) (prev : StoredState) (choice : AlertChoice)
    (snap : Snapshot) (distinct : (snap.allocations.map AllocSnap.id).Nodup)
    (counts : 1 ≤ choice.signalMovePct) :
    evaluateStored amounts (evaluateStored amounts prev choice snap).2 choice snap =
        ([], (evaluateStored amounts prev choice snap).2) ∧
      (evaluateStored amounts ∅ choice snap).1 = [] :=
  ⟨evaluateStored_again distinct counts, evaluateStored_empty⟩

/-- A signal that doubled is reported, and not again. -/
theorem doubled_signal_sent_once :
    let choice : AlertChoice := ⟨["signal"], 10⟩
    let snap (grt : ℚ) : Snapshot := ⟨5, [⟨"0xa1", "Qm1", none, 3, grt, false⟩], none, none, none⟩
    let first := (evaluateStored .fractions ∅ choice (snap 100)).2
    let second := (evaluateStored .fractions first choice (snap 200)).2
    evaluateStored .fractions second choice (snap 200) = ([], second) ∧
      (evaluateStored .fractions ∅ choice (snap 200)).1 = [] := by
  intro choice snap first second
  exact alert_sent_once .fractions first choice (snap 200) (by decide) (by decide)

end Again

end Foghorn.Core
