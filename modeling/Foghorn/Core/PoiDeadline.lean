import Foghorn.Core.AlertRuns

/-!
# The POI deadline over a run

While the epochs advance, the tone of an allocation only gets worse. Each step that makes it
worse than what was stored is told, and what was told is never told again.
-/

namespace Foghorn.Core

section Tones

/-- The fewer epochs are left, the graver the tone. -/
theorem tone_antitone {fewer more : Int} (le : fewer ≤ more) : (tone more).rank ≤ (tone fewer).rank := by
  unfold tone
  by_cases red : more ≤ poiRedDaysLeft
  · rw [if_pos red, if_pos (le.trans red)]
  · rw [if_neg red]
    by_cases amber : more ≤ poiAmberDaysLeft
    · rw [if_pos amber, if_pos (le.trans amber)]
      split <;> decide
    · rw [if_neg amber]
      exact Nat.zero_le _

/-- An allocation's tone does not get better with the epochs. -/
theorem AllocSnap.tone_mono {a b : AllocSnap} (created : a.createdAtEpoch = b.createdAtEpoch)
    {earlier later : Int} (le : earlier ≤ later) : (a.tone earlier).rank ≤ (b.tone later).rank := by
  refine tone_antitone ?_
  rw [daysLeft, daysLeft, created]
  omega

/-- The tone of an allocation in a snapshot, `fresh` if it is not listed. -/
def Snapshot.toneOf (snap : Snapshot) (id : String) : Tone :=
  ((snap.allocations.find? fun a => a.id = id).map fun a => a.tone snap.currentEpoch).getD .fresh

def Snapshot.Lists (snap : Snapshot) (id : String) : Prop := ∃ a ∈ snap.allocations, a.id = id

/-- A listed allocation has its own tone in the snapshot. -/
theorem Snapshot.toneOf_of_mem {snap : Snapshot} (distinct : (snap.allocations.map AllocSnap.id).Nodup)
    {a : AllocSnap} (listed : a ∈ snap.allocations) :
    snap.toneOf a.id = a.tone snap.currentEpoch := by
  rw [toneOf, Std.find?_name_of_nodup distinct listed]
  rfl

private theorem Snapshot.toneOf_of_not_lists {snap : Snapshot} {id : String}
    (absent : ¬ snap.Lists id) :
    snap.toneOf id = .fresh := by
  rw [toneOf, Std.find?_name_eq_none]
  · rfl
  · intro named
    obtain ⟨a, listed, same⟩ := List.mem_map.mp named
    exact absent ⟨a, listed, same⟩

end Tones

section Runs

/-- The epochs advance, the ids of a snapshot are distinct, and an allocation keeps the epoch it
was created at. -/
structure PoiRun (snaps : List Snapshot) : Prop where
  epochs : snaps.Pairwise fun earlier later => earlier.currentEpoch ≤ later.currentEpoch
  distinct : ∀ snap ∈ snaps, (snap.allocations.map AllocSnap.id).Nodup
  created : ∀ snap ∈ snaps, ∀ other ∈ snaps, ∀ a ∈ snap.allocations, ∀ b ∈ other.allocations,
    a.id = b.id → a.createdAtEpoch = b.createdAtEpoch

/-- Once listed, the allocation is listed in every later snapshot. -/
def StaysPresent (id : String) (snaps : List Snapshot) : Prop :=
  snaps.Pairwise fun earlier later => earlier.Lists id → later.Lists id

variable {amounts : AmountText} {choice : AlertChoice} {id : String}

private theorem PoiRun.of_append {before after : List Snapshot} (run : PoiRun (before ++ after)) :
    PoiRun before where
  epochs := (List.pairwise_append.mp run.epochs).1
  distinct snap there := run.distinct snap (List.mem_append_left _ there)
  created snap there other elsewhere :=
    run.created snap (List.mem_append_left _ there) other (List.mem_append_left _ elsewhere)

private theorem StaysPresent.of_append {before after : List Snapshot}
    (stays : StaysPresent id (before ++ after)) : StaysPresent id before :=
  (List.pairwise_append.mp stays).1

/-- The tone in a later snapshot is at least as bad. -/
theorem PoiRun.toneOf_mono {before : List Snapshot} {earlier later : Snapshot}
    (run : PoiRun (before ++ [later])) (stays : StaysPresent id (before ++ [later]))
    (there : earlier ∈ before) : (earlier.toneOf id).rank ≤ (later.toneOf id).rank := by
  have earlier_there : earlier ∈ before ++ [later] := List.mem_append_left _ there
  have later_there : later ∈ before ++ [later] := List.mem_append_right _ List.mem_cons_self
  by_cases listed : earlier.Lists id
  · obtain ⟨b, later_listed, about⟩ :=
      (List.pairwise_append.mp stays).2.2 earlier there later List.mem_cons_self listed
    obtain ⟨a, earlier_listed, rfl⟩ := listed
    have epochs : earlier.currentEpoch ≤ later.currentEpoch :=
      (List.pairwise_append.mp run.epochs).2.2 earlier there later List.mem_cons_self
    have created := run.created earlier earlier_there later later_there a earlier_listed b
      later_listed about.symm
    rw [Snapshot.toneOf_of_mem (run.distinct _ earlier_there) earlier_listed, ← about,
      Snapshot.toneOf_of_mem (run.distinct _ later_there) later_listed]
    exact AllocSnap.tone_mono created epochs
  · rw [Snapshot.toneOf_of_not_lists listed]
    exact Nat.zero_le _

section Step

variable {prev : StoredState} {snap : Snapshot}

/-- The rank of the stored tone. -/
def storedRank (stored : StoredState) (id : String) : Nat :=
  toneRank ((stored.get (.poi id)).getD "fresh")

/-- A cycle stores the tone its snapshot shows. -/
theorem storedRank_evaluateStored (distinct : (snap.allocations.map AllocSnap.id).Nodup) :
    storedRank (evaluateStored amounts prev choice snap).2 id = (snap.toneOf id).rank := by
  rw [storedRank, get_evaluateStored_poi distinct, Snapshot.toneOf]
  cases snap.allocations.find? (fun a => decide (a.id = id)) with
  | none => rfl
  | some a => exact toneRank_text _

/-- The tone is told exactly when it is worse than the stored one. -/
theorem poiTones_step (on : choice.on .poi) (later : prev ≠ ∅)
    (distinct : (snap.allocations.map AllocSnap.id).Nodup) :
    (evaluateStored amounts prev choice snap).1.filterMap (poiToneOf id) =
      if storedRank prev id < (snap.toneOf id).rank then [snap.toneOf id] else [] := by
  rw [poiTones_evaluateStored distinct, Snapshot.toneOf, ← storedRank]
  cases snap.allocations.find? (fun a => decide (a.id = id)) with
  | none => exact (if_neg (Nat.not_lt_zero _)).symm
  | some a => simp [on, later]

end Step

/-- What holds of an allocation whose tone was `base` at the first look and is `current` now. -/
structure Followed (id : String) (base current : Tone) (run : List Alert × StoredState) : Prop where
  stored : storedRank run.2 id = current.rank
  rising : (run.1.filterMap (poiToneOf id)).Pairwise fun earlier later => earlier.rank < later.rank
  reached : ∀ told ∈ run.1.filterMap (poiToneOf id), told.rank ≤ current.rank
  caught : current.rank ≤ base.rank ∨
    ∃ told ∈ run.1.filterMap (poiToneOf id), current.rank ≤ told.rank

/-- A further snapshot in which the tone is no better keeps the allocation followed. -/
theorem Followed.step {base current : Tone} {before : List Snapshot} {snap : Snapshot}
    (on : choice.on .poi) (nonempty : before ≠ [])
    (distinct : (snap.allocations.map AllocSnap.id).Nodup)
    (followed : Followed id base current (evaluateRun amounts choice before))
    (worse : current.rank ≤ (snap.toneOf id).rank) :
    Followed id base (snap.toneOf id) (evaluateRun amounts choice (before ++ [snap])) := by
  have tones : (evaluateRun amounts choice (before ++ [snap])).1.filterMap (poiToneOf id) =
      (evaluateRun amounts choice before).1.filterMap (poiToneOf id) ++
        if current.rank < (snap.toneOf id).rank then [snap.toneOf id] else [] := by
    rw [evaluateRun_concat, List.filterMap_append,
      poiTones_step on (evaluateRun_ne_empty nonempty) distinct, followed.stored]
  have stored : storedRank (evaluateRun amounts choice (before ++ [snap])).2 id =
      (snap.toneOf id).rank := by
    rw [evaluateRun_concat]
    exact storedRank_evaluateStored distinct
  by_cases step : current.rank < (snap.toneOf id).rank
  · rw [if_pos step] at tones
    refine ⟨stored, ?_, ?_, ?_⟩
    · rw [tones, List.pairwise_append]
      refine ⟨followed.rising, List.pairwise_singleton _ _, fun told listed last latest => ?_⟩
      rw [List.mem_singleton.mp latest]
      exact (followed.reached told listed).trans_lt step
    · rw [tones]
      intro told listed
      rcases List.mem_append.mp listed with listed | listed
      · exact (followed.reached told listed).trans worse
      · rw [List.mem_singleton.mp listed]
    · rw [tones]
      exact .inr ⟨_, List.mem_append_right _ List.mem_cons_self, le_rfl⟩
  · have same : (snap.toneOf id).rank = current.rank := le_antisymm (not_lt.mp step) worse
    rw [if_neg step, List.append_nil] at tones
    refine ⟨stored, ?_, ?_, ?_⟩
    · rw [tones]
      exact followed.rising
    · rw [tones, same]
      exact followed.reached
    · rw [tones, same]
      exact followed.caught

/-- Over a run the allocation is followed from its first tone to its last. -/
theorem followed_run (on : choice.on .poi) {first : Snapshot} {rest : List Snapshot}
    (run : PoiRun (first :: rest)) (stays : StaysPresent id (first :: rest)) :
    Followed id (first.toneOf id)
      (((first :: rest).getLast (List.cons_ne_nil _ _)).toneOf id)
      (evaluateRun amounts choice (first :: rest)) := by
  induction rest using List.reverseRecOn with
  | nil =>
    have quiet : (evaluateRun amounts choice [first]).1 = [] := by
      rw [evaluateRun_singleton]
      exact evaluateStored_empty
    refine ⟨?_, ?_, ?_, .inl le_rfl⟩
    · rw [evaluateRun_singleton]
      exact storedRank_evaluateStored (run.distinct first List.mem_cons_self)
    · rw [quiet]
      exact List.Pairwise.nil
    · rw [quiet]
      nofun
  | append_singleton rest snap ih =>
    have earlier : PoiRun ((first :: rest) ++ [snap]) := run
    have stays : StaysPresent id ((first :: rest) ++ [snap]) := stays
    have last : (first :: (rest ++ [snap])).getLast (List.cons_ne_nil _ _) = snap := by simp
    rw [last]
    refine Followed.step on (List.cons_ne_nil _ _) (run.distinct snap (by simp))
      (ih earlier.of_append stays.of_append) ?_
    exact earlier.toneOf_mono stays (List.getLast_mem _)

/-- The tones that a run has told of the allocation, in order. -/
def toldTones (amounts : AmountText) (choice : AlertChoice) (id : String) (snaps : List Snapshot) :
    List Tone :=
  (evaluateRun amounts choice snaps).1.filterMap (poiToneOf id)

private theorem count_le_one_of_rising {tones : List Tone}
    (rising : tones.Pairwise fun earlier later => earlier.rank < later.rank) (tone : Tone) :
    tones.count tone ≤ 1 :=
  List.nodup_iff_count_le_one.mp (rising.imp fun lt eq => lt.ne (congrArg Tone.rank eq)) tone

/-- POI alerts follow the deadline once per step: `due` and `close` are told at most once and in
this order, and a tone that is worse than at the first look has been told, or a worse one. -/
theorem poi_alerts_once_per_step (amounts : AmountText) (choice : AlertChoice) (id : String)
    (snaps : List Snapshot) (run : PoiRun snaps) (stays : StaysPresent id snaps)
    (on : choice.on .poi) :
    (toldTones amounts choice id snaps).count .due ≤ 1 ∧
    (toldTones amounts choice id snaps).count .close ≤ 1 ∧
    ((toldTones amounts choice id snaps).Pairwise fun earlier later => earlier.rank ≤ later.rank) ∧
    ∀ first before snap after, snaps = first :: before ++ snap :: after →
      ∀ a ∈ snap.allocations, a.id = id →
        (first.toneOf id).rank < (a.tone snap.currentEpoch).rank →
        ∃ told ∈ toldTones amounts choice id (first :: before ++ [snap]),
          (a.tone snap.currentEpoch).rank ≤ told.rank := by
  have rising : (toldTones amounts choice id snaps).Pairwise
      fun earlier later => earlier.rank < later.rank := by
    cases snaps with
    | nil => exact List.Pairwise.nil
    | cons first rest => exact (followed_run on run stays).rising
  refine ⟨count_le_one_of_rising rising _, count_le_one_of_rising rising _, rising.imp le_of_lt, ?_⟩
  rintro first before snap after rfl a listed rfl worse
  have there : snap ∈ first :: before ++ snap :: after := by simp
  have upTo : first :: before ++ snap :: after = first :: (before ++ [snap]) ++ after := by simp
  rw [upTo] at run stays
  have followed : Followed a.id _ _ (evaluateRun amounts choice (first :: (before ++ [snap]))) :=
    followed_run on run.of_append stays.of_append
  have last : (first :: (before ++ [snap])).getLast (List.cons_ne_nil _ _) = snap := by simp
  rw [last, Snapshot.toneOf_of_mem (run.distinct snap (upTo ▸ there)) listed] at followed
  exact followed.caught.resolve_left (not_le.mpr worse)

/-- An allocation created in epoch 3, alone. -/
def poiSnapshot (currentEpoch : Int) : Snapshot :=
  ⟨currentEpoch, [⟨"0xa1", "Qm1", none, 3, 0, false⟩], none, none, none⟩

/-- From fresh over two amber epochs to overdue makes two alerts. -/
theorem amber_then_overdue_told_once :
    let choice : AlertChoice := ⟨["poi"], 10⟩
    let snaps := [poiSnapshot 20, poiSnapshot 25, poiSnapshot 27, poiSnapshot 40]
    toldTones .fractions choice "0xa1" snaps = [.due, .close] ∧
      ∃ told ∈ toldTones .fractions choice "0xa1" snaps, Tone.close.rank ≤ told.rank := by
  intro choice snaps
  have run : PoiRun snaps := ⟨by decide, by decide, by simp [snaps, poiSnapshot]⟩
  have stays : StaysPresent "0xa1" snaps := by
    simp [StaysPresent, Snapshot.Lists, snaps, poiSnapshot]
  refine ⟨by decide, ?_⟩
  exact (poi_alerts_once_per_step .fractions choice "0xa1" snaps run stays (by decide)).2.2.2
    (poiSnapshot 20) [poiSnapshot 25, poiSnapshot 27] (poiSnapshot 40) [] rfl
    ⟨"0xa1", "Qm1", none, 3, 0, false⟩ (by decide) rfl (by decide)

end Runs

end Foghorn.Core
