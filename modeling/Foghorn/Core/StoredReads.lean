import Foghorn.Core.StoredState

/-!
# What a stored state reads as

The evaluation over the stored texts is the evaluation over `AlertState`: from a map that reads
as a state, both report the same, and the map that one stores reads as the state of the other.
-/

namespace Foghorn.Core

/-- The first slash of a stored pair is the one between its halves. -/
theorem span_cutsText (cuts : Int × Int) :
    (cutsText cuts).toList.span (· ≠ '/') =
      (cuts.1.repr.toList, '/' :: cuts.2.repr.toList) := by
  have chars : (cutsText cuts).toList = cuts.1.repr.toList ++ '/' :: cuts.2.repr.toList := by
    have slash : (toString "/").toList = ['/'] := by decide
    simp [cutsText, slash]
  rw [chars, span_repr _ (.inr rfl)]

private theorem cutsText_injective : Function.Injective cutsText := by
  intro first second same
  have halves := (span_cutsText first).symm.trans (same ▸ span_cutsText second)
  simp only [Prod.mk.injEq, List.cons.injEq, true_and, String.toList_inj, repr_injective.eq_iff] at halves
  exact Prod.ext halves.1 halves.2

/-- Cuts within 64 bits are read back from their text. -/
theorem readCuts_cutsText {cuts : Int × Int} (irc : InI64 cuts.1) (qfc : InI64 cuts.2) :
    readCuts (cutsText cuts) = cuts := by
  rw [readCuts, span_cutsText]
  simp only [String.ofList_toList, parseI64_repr irc, parseI64_repr qfc, Option.getD_some]

section Reads

/-- The map reads as the state, key by key. -/
structure Reads (amounts : AmountText) (stored : StoredState) (state : AlertState) : Prop where
  empty : stored = ∅ ↔ state.isEmpty
  poi (id : String) : stored.get (.poi id) = (state.poi.lookup id).map Tone.text
  denied (hash : String) : stored.get (.denied hash) = (state.denied.lookup hash).map flagText
  signal (hash : String) : stored.get (.signal hash) = (state.signal.lookup hash).map amounts.text
  cuts : stored.get .cuts = state.cuts.map cutsText
  reo : stored.get .reo = state.reo

variable {amounts : AmountText} {stored : StoredState} {state : AlertState} {choice : AlertChoice}

/-- The empty map reads as the empty state. -/
theorem reads_empty : Reads amounts ∅ .empty where
  empty := by simp [AlertState.isEmpty, AlertState.empty]
  poi _ := by simp [AlertState.empty]
  denied _ := by simp [AlertState.empty]
  signal _ := by simp [AlertState.empty]
  cuts := by simp [AlertState.empty]
  reo := by simp [AlertState.empty]

variable (reads : Reads amounts stored state)

include reads

private theorem Reads.poiAlert_eq (currentEpoch : Int) (a : AllocSnap) :
    storedPoiAlert stored choice currentEpoch a = poiAlert state choice currentEpoch a := by
  have was : toneRank ((stored.get (.poi a.id)).getD "fresh") = (state.poiTone a.id).rank := by
    rw [reads.poi, AlertState.poiTone]
    cases state.poi.lookup a.id with
    | none => rfl
    | some tone => exact toneRank_text tone
  simp only [storedPoiAlert, poiAlert, was, toneRank_text, reads.empty, ne_eq]

private theorem Reads.deniedAlert_eq (a : AllocSnap) :
    storedDeniedAlert stored choice a = deniedAlert state choice a := by
  have was : decide (stored.get (.denied a.ipfsHash) = some "1") = state.wasDenied a.ipfsHash := by
    rw [reads.denied, AlertState.wasDenied]
    cases state.denied.lookup a.ipfsHash with
    | none => rfl
    | some flag => cases flag <;> decide
  simp only [storedDeniedAlert, deniedAlert, was, reads.empty, ne_eq]

private theorem Reads.baseline_eq (hash : String) :
    storedBaseline amounts stored hash = state.signal.lookup hash := by
  rw [storedBaseline, reads.signal]
  cases state.signal.lookup hash with
  | none => rfl
  | some baseline => exact amounts.parse_text baseline

private theorem Reads.movedFrom_eq (a : AllocSnap) :
    storedMovedFrom amounts stored choice a = movedFrom state choice a := by
  rw [storedMovedFrom, movedFrom, reads.baseline_eq]

private theorem Reads.signalAlert_eq (a : AllocSnap) :
    storedSignalAlert amounts stored choice a = signalAlert state choice a := by
  simp only [storedSignalAlert, signalAlert, reads.movedFrom_eq, reads.empty, ne_eq]

private theorem Reads.keep_eq (a : AllocSnap) :
    storedKeep amounts stored choice a = signalKeep state choice a := by
  unfold storedKeep signalKeep
  cases held : state.signal.lookup a.ipfsHash <;> cases moved : movedFrom state choice a <;>
    simp only [reads.baseline_eq, reads.movedFrom_eq, held, moved]

private theorem Reads.cutsAlert_eq {snap : Snapshot}
    (fits : ∀ was, state.cuts = some was → InI64 was.1 ∧ InI64 was.2) :
    storedCutsAlert stored choice snap = cutsAlert state choice snap := by
  rw [storedCutsAlert, cutsAlert, reads.cuts]
  cases snap.indexingRewardCut with
  | none => rfl
  | some irc =>
    cases snap.queryFeeCut with
    | none => rfl
    | some qfc =>
      cases held : state.cuts with
      | none => rfl
      | some was =>
        simp only [Option.map_some, cutsText_injective.ne_iff,
          readCuts_cutsText (fits was held).1 (fits was held).2]

private theorem Reads.reoAlert_eq {snap : Snapshot} :
    storedReoAlert stored choice snap = reoAlert state choice snap := by
  unfold storedReoAlert reoAlert
  cases snap.reoStatus <;> cases held : state.reo <;> simp only [reads.reo, held]

end Reads

section Simulation

variable {amounts : AmountText} {stored : StoredState} {state : AlertState} {choice : AlertChoice}

private theorem StoredState.put_ne_empty (stored : StoredState) (key : StoredKey) (text : String) :
    stored.put key text ≠ ∅ :=
  ne_empty_of_get (get_put_self stored key text)

private theorem Reads.putPoi (reads : Reads amounts stored state) (seen : state.seen = true)
    (id : String)
    (tone : Tone) :
    Reads amounts (stored.put (.poi id) tone.text) { state with poi := state.poi.insert id tone } where
  empty := by simp [StoredState.put_ne_empty, AlertState.isEmpty, seen]
  poi other := by
    by_cases same : other = id
    · subst same
      simp
    · simp [StoredState.get_put, same, reads.poi]
  denied hash := by simp [StoredState.get_put, reads.denied]
  signal hash := by simp [StoredState.get_put, reads.signal]
  cuts := by simp [StoredState.get_put, reads.cuts]
  reo := by simp [StoredState.get_put, reads.reo]

private theorem Reads.putDenied (reads : Reads amounts stored state) (seen : state.seen = true)
    (hash : String) (flag : Bool) :
    Reads amounts (stored.put (.denied hash) (flagText flag))
      { state with denied := state.denied.insert hash flag } where
  empty := by simp [StoredState.put_ne_empty, AlertState.isEmpty, seen]
  poi id := by simp [StoredState.get_put, reads.poi]
  denied other := by
    by_cases same : other = hash
    · subst same
      simp
    · simp [StoredState.get_put, same, reads.denied]
  signal hash := by simp [StoredState.get_put, reads.signal]
  cuts := by simp [StoredState.get_put, reads.cuts]
  reo := by simp [StoredState.get_put, reads.reo]

private theorem Reads.putSignal (reads : Reads amounts stored state) (seen : state.seen = true)
    (hash : String) (level : ℚ) :
    Reads amounts (stored.put (.signal hash) (amounts.text level))
      { state with signal := state.signal.insert hash level } where
  empty := by simp [StoredState.put_ne_empty, AlertState.isEmpty, seen]
  poi id := by simp [StoredState.get_put, reads.poi]
  denied hash := by simp [StoredState.get_put, reads.denied]
  signal other := by
    by_cases same : other = hash
    · subst same
      simp
    · simp [StoredState.get_put, same, reads.signal]
  cuts := by simp [StoredState.get_put, reads.cuts]
  reo := by simp [StoredState.get_put, reads.reo]

/-- What the two walks hold at the same allocation. -/
structure WalkReads (amounts : AmountText) (storedWalk : StoredEvaluation) (walk : Evaluation) :
    Prop where
  alerts : storedWalk.alerts = walk.alerts
  next : Reads amounts storedWalk.next walk.next
  deployments : storedWalk.deployments = walk.deployments
  seen : walk.next.seen = true

/-- The two walks agree after one more allocation. -/
theorem WalkReads.step (reads : Reads amounts stored state) {currentEpoch : Int}
    {storedWalk : StoredEvaluation} {walk : Evaluation}
    (same : WalkReads amounts storedWalk walk) (a : AllocSnap) :
    WalkReads amounts (evaluateStoredAllocation amounts stored choice currentEpoch storedWalk a)
      (evaluateAllocation state choice currentEpoch walk a) := by
  have poi := same.next.putPoi same.seen a.id (a.tone currentEpoch)
  rw [evaluateStoredAllocation, evaluateAllocation, reads.poiAlert_eq, reads.deniedAlert_eq,
    reads.signalAlert_eq, reads.keep_eq, same.alerts, same.deployments]
  by_cases known : a.ipfsHash ∈ walk.deployments
  · simp only [if_pos known]
    exact ⟨rfl, poi, rfl, same.seen⟩
  · simp only [if_neg known]
    exact ⟨rfl, (poi.putDenied same.seen _ _).putSignal same.seen _ _, rfl, same.seen⟩

/-- The two walks agree over any allocations. -/
theorem WalkReads.foldl (reads : Reads amounts stored state) {currentEpoch : Int}
    (allocations : List AllocSnap) {storedWalk : StoredEvaluation} {walk : Evaluation}
    (same : WalkReads amounts storedWalk walk) :
    WalkReads amounts
      (allocations.foldl (evaluateStoredAllocation amounts stored choice currentEpoch) storedWalk)
      (allocations.foldl (evaluateAllocation state choice currentEpoch) walk) := by
  induction allocations generalizing storedWalk walk with
  | nil => exact same
  | cons first rest ih => exact ih (same.step reads first)

/-- The evaluation over the texts reports and stores what the evaluation over the state it reads
as does. -/
theorem Reads.evaluate (reads : Reads amounts stored state) (snap : Snapshot)
    (fits : ∀ was, state.cuts = some was → InI64 was.1 ∧ InI64 was.2) :
    (evaluateStored amounts stored choice snap).1 = (evaluate state choice snap).1 ∧
      Reads amounts (evaluateStored amounts stored choice snap).2 (evaluate state choice snap).2 := by
  have start : WalkReads amounts ⟨[], StoredState.put ∅ .seen "1", []⟩
      ⟨[], { AlertState.empty with seen := true }, []⟩ := by
    refine ⟨rfl, ?_, rfl, rfl⟩
    constructor <;> simp [StoredState.put_ne_empty, AlertState.isEmpty, AlertState.empty,
      StoredState.get_put]
  have walked : WalkReads amounts (storedWalk amounts stored choice snap)
      (snap.allocations.foldl (evaluateAllocation state choice snap.currentEpoch)
        ⟨[], { AlertState.empty with seen := true }, []⟩) :=
    start.foldl reads snap.allocations
  constructor
  · exact congrArg₂ _ (congrArg₂ _ walked.alerts (congrArg _ (reads.cutsAlert_eq fits)))
      (congrArg _ reads.reoAlert_eq)
  · refine ⟨?_, fun id => ?_, fun hash => ?_, fun hash => ?_, ?_, ?_⟩
    · simp [evaluateStored_ne_empty]
    · rw [get_evaluateStored_of_walk (.poi id) (by simp) (by simp)]
      exact walked.next.poi id
    · rw [get_evaluateStored_of_walk (.denied hash) (by simp) (by simp)]
      exact walked.next.denied hash
    · rw [get_evaluateStored_of_walk (.signal hash) (by simp) (by simp)]
      exact walked.next.signal hash
    · rw [get_evaluateStored_cuts, storedCutsNext, cuts_evaluate, cutsNext, reads.cuts]
      cases snap.indexingRewardCut <;> cases snap.queryFeeCut <;> rfl
    · rw [get_evaluateStored_reo, reo_evaluate]
      unfold storedReoNext reoNext
      cases snap.reoStatus with
      | none => exact reads.reo
      | some now => rfl

end Simulation

end Foghorn.Core
