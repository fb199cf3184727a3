import Foghorn.Core.Alerts

/-!
# The facts behind the alerts

An alert reports a fact about a snapshot. Whether it is reported again depends on the stored
state alone: a state that awaits a fact reports it as soon as a snapshot has it, and what is stored of
a snapshot without the fact awaits it still, as long as the deployment it is about stays listed.
-/

namespace Foghorn.Core

inductive Fact where
  | poi (id : String) (tone : Tone)
  | denied (hash : String) (flag : Bool)
  | signal (hash : String) (grt : ℚ)
  | cuts (now : Int × Int)
  | reo (now : String)
deriving DecidableEq

def Alert.fact : Alert → Fact
  | poi a daysLeft => .poi a.id (Core.tone daysLeft)
  | denied a => .denied a.ipfsHash a.denied
  | signal a _ => .signal a.ipfsHash a.signalGrt
  | cuts _ now => .cuts now
  | reo _ now => .reo now

namespace Fact

/-- The snapshot has the fact: a tone that is as bad or worse, any other value as it is. -/
def HoldsIn (snap : Snapshot) : Fact → Prop
  | poi id tone => ∃ a ∈ snap.allocations, a.id = id ∧ tone.rank ≤ (a.tone snap.currentEpoch).rank
  | denied hash flag => ∃ a ∈ snap.allocations, a.ipfsHash = hash ∧ a.denied = flag
  | signal hash grt => ∃ a ∈ snap.allocations, a.ipfsHash = hash ∧ a.signalGrt = grt
  | cuts now => snap.indexingRewardCut = some now.1 ∧ snap.queryFeeCut = some now.2
  | reo now => snap.reoStatus = some now

/-- What reports the second fact reports the first. -/
def CoveredBy : Fact → Fact → Prop
  | poi id tone, poi other worse => id = other ∧ tone.rank ≤ worse.rank
  | fact, told => fact = told

instance decidableCoveredBy : (fact told : Fact) → Decidable (fact.CoveredBy told)
  | .poi id tone, .poi other worse =>
    inferInstanceAs (Decidable (id = other ∧ tone.rank ≤ worse.rank))
  | .poi _ _, .denied _ _ | .poi _ _, .signal _ _ | .poi _ _, .cuts _ | .poi _ _, .reo _ =>
    inferInstanceAs (Decidable (_ = _))
  | .denied _ _, _ | .signal _ _, _ | .cuts _, _ | .reo _, _ => inferInstanceAs (Decidable (_ = _))

end Fact

/-- Every allocation of a deployment carries its denial and its signal. -/
structure Snapshot.Consistent (snap : Snapshot) : Prop where
  denied : ∀ a ∈ snap.allocations, ∀ b ∈ snap.allocations, a.ipfsHash = b.ipfsHash →
    a.denied = b.denied
  signal : ∀ a ∈ snap.allocations, ∀ b ∈ snap.allocations, a.ipfsHash = b.ipfsHash →
    a.signalGrt = b.signalGrt

/-- The stored state reports the fact to a subscriber of its kind when a snapshot has it. -/
def AlertState.Awaits (prev : AlertState) (choice : AlertChoice) : Fact → Prop
  | .poi id tone => choice.on .poi ∧ ¬ prev.isEmpty ∧ (prev.poiTone id).rank < tone.rank
  | .denied hash flag => choice.on .denied ∧ ¬ prev.isEmpty ∧ flag ≠ prev.wasDenied hash
  | .signal hash grt => choice.on .signal ∧ ¬ prev.isEmpty ∧
      ∃ baseline, prev.signal.lookup hash = some baseline ∧
        (signalMove baseline grt).atLeast choice.signalMovePct
  | .cuts now => choice.on .cuts ∧ ∃ was, prev.cuts = some was ∧ was ≠ now
  | .reo now => choice.on .reo ∧ ∃ was, prev.reo = some was ∧ was ≠ now

/-- What is stored of the snapshot awaits the fact still. A lifted denial and a moved signal need
their deployment listed, and the signal no newer level that is reported now and that the level
of the fact is close to. -/
def Fact.KeptBy (prev : AlertState) (choice : AlertChoice) (snap : Snapshot) : Fact → Prop
  | .denied hash false => ∃ a ∈ snap.allocations, a.ipfsHash = hash
  | .signal hash grt => ∃ a ∈ snap.allocations, a.ipfsHash = hash ∧
      ∀ baseline, prev.signal.lookup hash = some baseline →
        (signalMove baseline a.signalGrt).atLeast choice.signalMovePct →
          (signalMove a.signalGrt grt).atLeast choice.signalMovePct
  | _ => True

section Evaluate

variable {prev : AlertState} {choice : AlertChoice} {snap : Snapshot}

/-- A signal moved from its baseline when the change reaches the chosen percentage. -/
theorem movedFrom_eq_some_iff {a : AllocSnap} {baseline : ℚ} :
    movedFrom prev choice a = some baseline ↔
      prev.signal.lookup a.ipfsHash = some baseline ∧
        (signalMove baseline a.signalGrt).atLeast choice.signalMovePct := by
  simp [movedFrom, Option.filter_eq_some_iff]

/-- Every alert reports a fact of the snapshot that the stored state awaits. -/
theorem awaits_of_mem {alert : Alert} (told : alert ∈ (evaluate prev choice snap).1) :
    prev.Awaits choice alert.fact ∧ alert.fact.HoldsIn snap := by
  rcases mem_evaluate.mp told with ⟨a, listed, poi⟩ | ⟨a, leads, denied | signal⟩ | cuts | reo
  · rw [poiAlert] at poi
    split at poi
    · next worse =>
      cases poi
      exact ⟨worse, a, listed, rfl, le_rfl⟩
    · cases poi
  · rw [deniedAlert] at denied
    split at denied
    · next changed =>
      cases denied
      exact ⟨changed, a, leads.mem, rfl, rfl⟩
    · cases denied
  · rw [signalAlert] at signal
    split at signal
    · next heard =>
      obtain ⟨baseline, moved, rfl⟩ := Option.map_eq_some_iff.mp signal
      exact ⟨⟨heard.1, heard.2, baseline, movedFrom_eq_some_iff.mp moved⟩, a, leads.mem, rfl, rfl⟩
    · cases signal
  · rw [cutsAlert] at cuts
    split at cuts
    · next irc qfc was irced qfced cut =>
      split at cuts
      · next changed =>
        cases cuts
        exact ⟨⟨changed.1, was, cut, changed.2⟩, irced, qfced⟩
      · cases cuts
    · cases cuts
  · rw [reoAlert] at reo
    split at reo
    · next now was status old =>
      split at reo
      · next changed =>
        cases reo
        exact ⟨⟨changed.1, was, old, changed.2⟩, status⟩
      · cases reo
    · cases reo

/-- A fact of the snapshot that the stored state awaits is reported. -/
theorem exists_mem_of_awaits (consistent : snap.Consistent) {fact : Fact}
    (awaited : prev.Awaits choice fact) (holds : fact.HoldsIn snap) :
    ∃ alert ∈ (evaluate prev choice snap).1, fact.CoveredBy alert.fact := by
  cases fact with
  | poi id tone =>
    obtain ⟨on, later, worse⟩ := awaited
    obtain ⟨a, listed, rfl, reached⟩ := holds
    have told : poiAlert prev choice snap.currentEpoch a =
        some (.poi a (a.daysLeft snap.currentEpoch)) :=
      if_pos ⟨on, later, worse.trans_le reached⟩
    exact ⟨_, mem_evaluate.mpr (.inl ⟨a, listed, told⟩), rfl, reached⟩
  | denied hash flag =>
    obtain ⟨on, later, changed⟩ := awaited
    obtain ⟨a, listed, rfl, rfl⟩ := holds
    obtain ⟨lead, leads, same⟩ := exists_leads listed
    have flag := consistent.denied lead leads.mem a listed same
    have told : deniedAlert prev choice lead = some (.denied lead) :=
      if_pos ⟨on, later, by rw [same, flag]; exact changed⟩
    refine ⟨_, mem_evaluate.mpr (.inr (.inl ⟨lead, leads, .inl told⟩)), ?_⟩
    rw [Alert.fact, same, flag]
    rfl
  | signal hash grt =>
    obtain ⟨on, later, baseline, stored, moved⟩ := awaited
    obtain ⟨a, listed, rfl, rfl⟩ := holds
    obtain ⟨lead, leads, same⟩ := exists_leads listed
    have level := consistent.signal lead leads.mem a listed same
    have told : signalAlert prev choice lead = some (.signal lead baseline) := by
      rw [signalAlert, if_pos ⟨on, later⟩, movedFrom_eq_some_iff.mpr ⟨same ▸ stored, level ▸ moved⟩]
      rfl
    refine ⟨_, mem_evaluate.mpr (.inr (.inl ⟨lead, leads, .inr told⟩)), ?_⟩
    rw [Alert.fact, same, level]
    rfl
  | cuts now =>
    obtain ⟨on, was, stored, changed⟩ := awaited
    have told : cutsAlert prev choice snap = some (.cuts was now) := by
      rw [cutsAlert, holds.1, holds.2, stored]
      exact if_pos ⟨on, changed⟩
    exact ⟨_, mem_evaluate.mpr (.inr (.inr (.inl told))), rfl⟩
  | reo now =>
    obtain ⟨on, was, stored, changed⟩ := awaited
    have told : reoAlert prev choice snap = some (.reo was now) := by
      rw [reoAlert, show snap.reoStatus = some now from holds, stored]
      exact if_pos ⟨on, changed⟩
    exact ⟨_, mem_evaluate.mpr (.inr (.inr (.inr told))), rfl⟩

/-- An evaluation has something to report when an awaited fact holds, and only then. -/
theorem evaluate_eq_nil_iff (consistent : snap.Consistent) :
    (evaluate prev choice snap).1 = [] ↔
      ∀ fact : Fact, prev.Awaits choice fact → ¬ fact.HoldsIn snap := by
  constructor
  · intro quiet fact awaited holds
    obtain ⟨alert, told, -⟩ := exists_mem_of_awaits consistent awaited holds
    rw [quiet] at told
    cases told
  · intro quiet
    refine List.eq_nil_iff_forall_not_mem.mpr fun alert told => ?_
    exact quiet alert.fact (awaits_of_mem told).1 (awaits_of_mem told).2

/-- An awaited tone that no longer holds is still awaited after a further evaluation. -/
theorem awaits_poi {id : String} {tone : Tone} (awaited : prev.Awaits choice (.poi id tone))
    (absent : ¬ (Fact.poi id tone).HoldsIn snap) :
    (evaluate prev choice snap).2.Awaits choice (.poi id tone) := by
  obtain ⟨on, later, worse⟩ := awaited
  refine ⟨on, isEmpty_evaluate, ?_⟩
  rw [AlertState.poiTone]
  cases found : (evaluate prev choice snap).2.poi.lookup id with
  | none => exact (Nat.zero_le _).trans_lt worse
  | some stored =>
    -- The stored tone is one of the snapshot, which has none as bad as the awaited one.
    obtain ⟨a, listed, about, rfl⟩ := poi_evaluate found
    by_contra reached
    exact absent ⟨a, listed, about, not_lt.mp reached⟩

/-- An awaited denial that no longer holds is still awaited, a lifted one while it is listed. -/
theorem awaits_denied {hash : String} {flag : Bool}
    (awaited : prev.Awaits choice (.denied hash flag))
    (absent : ¬ (Fact.denied hash flag).HoldsIn snap)
    (kept : flag = false → ∃ a ∈ snap.allocations, a.ipfsHash = hash) :
    (evaluate prev choice snap).2.Awaits choice (.denied hash flag) := by
  obtain ⟨on, later, changed⟩ := awaited
  refine ⟨on, isEmpty_evaluate, ?_⟩
  rw [AlertState.wasDenied, denied_evaluate]
  cases found : snap.allocations.find? (fun a => decide (a.ipfsHash = hash)) with
  | none =>
    -- Without the deployment the denial reads as false, so only `true` is still awaited.
    intro lifted
    obtain ⟨a, listed, about⟩ := kept lifted
    simpa [about] using List.find?_eq_none.mp found a listed
  | some a =>
    have about : a.ipfsHash = hash := by simpa using List.find?_some found
    intro same
    exact absent ⟨a, List.mem_of_find?_eq_some found, about, same.symm⟩

/-- An awaited signal move is still awaited while its baseline is kept. -/
theorem awaits_signal (consistent : snap.Consistent) {hash : String} {grt : ℚ}
    (awaited : prev.Awaits choice (.signal hash grt))
    (kept : (Fact.signal hash grt).KeptBy prev choice snap) :
    (evaluate prev choice snap).2.Awaits choice (.signal hash grt) := by
  obtain ⟨on, later, baseline, stored, moved⟩ := awaited
  obtain ⟨a, listed, about, newer⟩ := kept
  obtain ⟨lead, leads, same⟩ := exists_leads listed
  have level := consistent.signal lead leads.mem a listed same
  have shown : snap.allocations.find? (fun b => decide (b.ipfsHash = hash)) = some lead := by
    rw [← about, ← same]
    exact leads
  have next : (evaluate prev choice snap).2.signal.lookup hash =
      some (signalKeep prev choice lead) := by
    rw [signal_evaluate, shown]
    rfl
  refine ⟨on, isEmpty_evaluate, signalKeep prev choice lead, next, ?_⟩
  have held : prev.signal.lookup lead.ipfsHash = some baseline := by rw [same, about, stored]
  rw [signalKeep, held]
  cases far : movedFrom prev choice lead with
  | none => exact moved
  | some other =>
    -- The level is reported now and becomes the baseline.
    obtain ⟨from_other, reached⟩ := movedFrom_eq_some_iff.mp far
    rw [held, Option.some.injEq] at from_other
    subst from_other
    rw [level] at reached ⊢
    exact newer baseline stored reached

/-- An awaited cut that no longer holds is still awaited after a further evaluation. -/
theorem awaits_cuts {now : Int × Int} (awaited : prev.Awaits choice (.cuts now))
    (absent : ¬ (Fact.cuts now).HoldsIn snap) :
    (evaluate prev choice snap).2.Awaits choice (.cuts now) := by
  obtain ⟨on, was, stored, changed⟩ := awaited
  rw [AlertState.Awaits, cuts_evaluate, cutsNext]
  split
  · next irc qfc irced qfced =>
    refine ⟨on, (irc, qfc), rfl, fun same => absent ?_⟩
    rw [← same]
    exact ⟨irced, qfced⟩
  · exact ⟨on, was, stored, changed⟩

/-- An awaited REO figure that no longer holds is still awaited after a further evaluation. -/
theorem awaits_reo {now : String} (awaited : prev.Awaits choice (.reo now))
    (absent : ¬ (Fact.reo now).HoldsIn snap) :
    (evaluate prev choice snap).2.Awaits choice (.reo now) := by
  obtain ⟨on, was, stored, changed⟩ := awaited
  rw [AlertState.Awaits, reo_evaluate, reoNext]
  split
  · next status told => exact ⟨on, status, rfl, fun same => absent (same ▸ told)⟩
  · exact ⟨on, was, stored, changed⟩

/-- What an evaluation stores awaits an awaited fact that the snapshot does not have, if the
snapshot keeps it. -/
theorem awaits_evaluate (consistent : snap.Consistent) {fact : Fact}
    (awaited : prev.Awaits choice fact) (absent : ¬ fact.HoldsIn snap)
    (kept : fact.KeptBy prev choice snap) : (evaluate prev choice snap).2.Awaits choice fact := by
  cases fact with
  | poi id tone => exact awaits_poi awaited absent
  | denied hash flag =>
    exact awaits_denied awaited absent fun lifted => by subst lifted; exact kept
  | signal hash grt => exact awaits_signal consistent awaited kept
  | cuts now => exact awaits_cuts awaited absent
  | reo now => exact awaits_reo awaited absent

end Evaluate

end Foghorn.Core
