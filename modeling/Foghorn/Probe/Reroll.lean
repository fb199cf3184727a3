import Foghorn.Probe.Qos

/-!
# Rerolling everything

`rerollAll` walks the days from the first probe to today and rolls each of them. Whole
buckets overlap the edges of a day, so the walk leaves no gap (`lookup_rerollFrom`); what
it does not reach is what lies outside `Walked`, and `rerollAll_exact_iff` says what must
already be right there for the result to be a fresh rollup's.
-/

namespace Foghorn.Probe

open Foghorn.Std Foghorn.Core

def dayMicros : Int := 86400 * microsPerSecond

private theorem microsPerSecond_pos : 0 < microsPerSecond := by decide

private theorem dayMicros_pos : 0 < dayMicros := by decide

/-- The loop of `reroll_all`: a day at a time while the day has begun. -/
def rerollFrom (cfg : QosRollupConfig) (now lower : Int) (db : Db) (rows : Nat) : Db × Nat :=
  if _begun : lower ≤ floorTo microsPerSecond now then
    let rolled := rollRange cfg now lower (some (lower + dayMicros - microsPerSecond)) none db
    rerollFrom cfg now (lower + dayMicros) rolled.1 (rows + rolled.2)
  else (db, rows)
termination_by (floorTo microsPerSecond now + 1 - lower).toNat
decreasing_by
  have day := dayMicros_pos
  omega

/-- `reroll_all`. -/
def rerollAll (cfg : QosRollupConfig) (now : Int) (db : Db) : Db × Nat :=
  match (db.probe.rows.map ProbeRow.dispatchedAt).min? with
  | none => (db, 0)
  | some first => rerollFrom cfg now (floorTo dayMicros first) db 0

/-- What a roll leaves under a key it covers. -/
def rolledTo (cfg : QosRollupConfig) (now : Int) (db : Db) (key : QosKey) : Option QosRow :=
  (wantedRow cfg now db key).map fun row =>
    ((db.foghornQos.lookup key).map (keepFees row)).getD row

/-- The buckets from the first probe's day to the end of today, widened to whole ones. -/
def Walked (cfg : QosRollupConfig) (now : Int) (db : Db) (bucket : Int) : Prop :=
  ∃ first ∈ (db.probe.rows.map ProbeRow.dispatchedAt).min?,
    floorTo dayMicros first ≤ floorTo microsPerSecond now ∧
    floorTo cfg.bucketMicros (floorTo dayMicros first) ≤ bucket ∧
    bucket < floorTo cfg.bucketMicros
      (floorTo dayMicros (floorTo microsPerSecond now) + dayMicros - microsPerSecond) +
        cfg.bucketMicros

/-- A row without the time it was computed at. -/
def timeless (row : Option QosRow) : Option QosRow := row.map fun row => { row with computedAt := 0 }

section Walk

variable {cfg : QosRollupConfig}

/-- Rolling a range up changes no wanted row. -/
theorem wantedRow_rollRange (now lower : Int) (upper : Option Int) (deployment : Option String)
    (db : Db) (key : QosKey) :
    wantedRow cfg now (rollRange cfg now lower upper deployment db).1 key =
      wantedRow cfg now db key := rfl

/-- Rolling a key again leaves what the first roll left. -/
theorem rolledTo_of_lookup {now : Int} {db rolled : Db} {key : QosKey}
    (wanted : wantedRow cfg now rolled key = wantedRow cfg now db key)
    (stored : rolled.foghornQos.lookup key = rolledTo cfg now db key ∨
      rolled.foghornQos.lookup key = db.foghornQos.lookup key) :
    rolledTo cfg now rolled key = rolledTo cfg now db key := by
  rcases stored with once | untouched
  · unfold rolledTo at once ⊢
    rw [wanted, once]
    cases wantedRow cfg now db key with
    | none => rfl
    | some row => cases db.foghornQos.lookup key <;> rfl
  · unfold rolledTo
    rw [wanted, untouched]

/-- The roll of a day rewrites the buckets from the day's first to the one it ends in. -/
theorem lookup_rollDay (positive : 0 < cfg.bucketSecs) (now lower : Int) (db : Db) (key : QosKey) :
    (rollRange cfg now lower (some (lower + dayMicros - microsPerSecond)) none
        db).1.foghornQos.lookup key =
      if key.2.2.2 = cfg.width ∧ floorTo cfg.bucketMicros lower ≤ key.2.2.1 ∧
          key.2.2.1 < floorTo cfg.bucketMicros (lower + dayMicros - microsPerSecond) +
            cfg.bucketMicros then
        rolledTo cfg now db key
      else db.foghornQos.lookup key := by
  have covers : Covers cfg (windowRange cfg lower (some (lower + dayMicros - microsPerSecond)))
      none key ↔ key.2.2.2 = cfg.width ∧ floorTo cfg.bucketMicros lower ≤ key.2.2.1 ∧
        key.2.2.1 < floorTo cfg.bucketMicros (lower + dayMicros - microsPerSecond) +
          cfg.bucketMicros := by
    simp [Covers, Window.Holds, windowRange, forDeployment]
  rw [lookup_rollRange positive, rolledTo]
  simp only [covers]

/-- The walk rewrites every key from its first bucket to the bucket that today ends in. -/
theorem lookup_rerollFrom (positive : 0 < cfg.bucketSecs) (now lower : Int) (db : Db)
    (rows : Nat) (key : QosKey) :
    (rerollFrom cfg now lower db rows).1.foghornQos.lookup key =
      if key.2.2.2 = cfg.width ∧ lower ≤ floorTo microsPerSecond now ∧
          floorTo cfg.bucketMicros lower ≤ key.2.2.1 ∧
          key.2.2.1 < floorTo cfg.bucketMicros
            (lower + floorTo dayMicros (floorTo microsPerSecond now - lower) + dayMicros -
              microsPerSecond) + cfg.bucketMicros then
        rolledTo cfg now db key
      else db.foghornQos.lookup key := by
  fun_induction rerollFrom cfg now lower db rows with
  | case2 lower db rows past => simp [past]
  | case1 lower db rows begun rolled ih =>
    have second := microsPerSecond_pos
    have day := dayMicros_pos
    have bucket := bucketMicros_pos positive
    have roll : rolled.1.foghornQos.lookup key = _ := lookup_rollDay positive now lower db key
    have again : rolledTo cfg now rolled.1 key = rolledTo cfg now db key := by
      apply rolledTo_of_lookup (wantedRow_rollRange _ _ _ _ _ _)
      rw [roll]
      split
      · exact Or.inl rfl
      · exact Or.inr rfl
    -- The next day's first bucket begins inside this day's last one.
    have onward : floorTo cfg.bucketMicros lower ≤ floorTo cfg.bucketMicros (lower + dayMicros) :=
      floorTo_mono (by omega) (by omega)
    have noGap : floorTo cfg.bucketMicros (lower + dayMicros) ≤
        floorTo cfg.bucketMicros (lower + dayMicros - microsPerSecond) + cfg.bucketMicros := by
      have := floorTo_add_le (by omega) bucket (lower + dayMicros - microsPerSecond)
      rwa [Int.sub_add_cancel] at this
    rw [ih, again, roll]
    by_cases sameWidth : key.2.2.2 = cfg.width
    · by_cases another : lower + dayMicros ≤ floorTo microsPerSecond now
      · have later : floorTo cfg.bucketMicros (lower + dayMicros - microsPerSecond) ≤
            floorTo cfg.bucketMicros (lower +
              floorTo dayMicros (floorTo microsPerSecond now - lower) + dayMicros -
                microsPerSecond) := by
          have nonneg := floorTo_mono day (show 0 ≤ floorTo microsPerSecond now - lower by omega)
          rw [floorTo_eq_zero (Int.le_refl 0) day] at nonneg
          exact floorTo_mono (by omega) (by omega)
        rw [add_floorTo_sub day]
        simp only [sameWidth, begun, another, true_and]
        clear sameWidth roll again ih
        split_ifs <;> first | rfl | omega
      · have lastDay : floorTo dayMicros (floorTo microsPerSecond now - lower) = 0 :=
          floorTo_eq_zero (by omega) (by omega)
        rw [lastDay]
        simp only [begun, another, true_and, false_and, and_false, if_false, Int.add_zero]
    · simp only [sameWidth, false_and, if_false]

/-- After rerolling, a walked key of this width holds what a roll leaves there, and every
other key what it held. -/
theorem lookup_rerollAll (positive : 0 < cfg.bucketSecs) (now : Int) (db : Db) (key : QosKey) :
    (key.2.2.2 = cfg.width ∧ Walked cfg now db key.2.2.1 →
      (rerollAll cfg now db).1.foghornQos.lookup key = rolledTo cfg now db key) ∧
    (¬ (key.2.2.2 = cfg.width ∧ Walked cfg now db key.2.2.1) →
      (rerollAll cfg now db).1.foghornQos.lookup key = db.foghornQos.lookup key) := by
  unfold rerollAll Walked
  cases earliest : (db.probe.rows.map ProbeRow.dispatchedAt).min? with
  | none => simp
  | some first =>
    have day := dayMicros_pos
    -- The walk starts on a whole day, so it ends on one.
    have lastDay : floorTo dayMicros first +
        floorTo dayMicros (floorTo microsPerSecond now - floorTo dayMicros first) =
        floorTo dayMicros (floorTo microsPerSecond now) := by
      have moved := floorTo_add_floorTo day first
        (floorTo microsPerSecond now - floorTo dayMicros first)
      rw [Int.sub_add_cancel] at moved
      omega
    have walk := lookup_rerollFrom positive now (floorTo dayMicros first) db 0 key
    rw [lastDay] at walk
    simp only [Option.mem_def, Option.some.injEq, exists_eq_left']
    rw [walk]
    exact ⟨fun walked => if_pos walked, fun unwalked => if_neg unwalked⟩

/-- A re-roll writes the rollup and nothing else. -/
theorem rerollFrom_frame (now lower : Int) (db : Db) (rows : Nat) :
    (rerollFrom cfg now lower db rows).1 =
      { db with foghornQos := (rerollFrom cfg now lower db rows).1.foghornQos } := by
  fun_induction rerollFrom cfg now lower db rows with
  | case1 lower db rows begun rolled ih =>
    rw [ih]
    rfl
  | case2 lower db rows past => rfl

/-- Nothing but the QoS table changes. -/
theorem rerollAll_frame (now : Int) (db : Db) :
    (rerollAll cfg now db).1 =
      { db with foghornQos := (rerollAll cfg now db).1.foghornQos } := by
  unfold rerollAll
  split
  · rfl
  · exact rerollFrom_frame _ _ _ _

end Walk

/-- What `reroll_all` promises: the rows of this width are those of one rollup over all time
into an empty table, computation times apart, other widths are untouched, and running it
again changes nothing. -/
structure RerolledExactly (cfg : QosRollupConfig) (now beginning : Int) (db : Db) : Prop where
  fresh : ∀ key : QosKey, key.2.2.2 = cfg.width →
    timeless ((rerollAll cfg now db).1.foghornQos.lookup key) =
      timeless ((rollRange cfg now beginning none none
        { db with foghornQos := Table.empty }).1.foghornQos.lookup key)
  others : ∀ key : QosKey, key.2.2.2 ≠ cfg.width →
    (rerollAll cfg now db).1.foghornQos.lookup key = db.foghornQos.lookup key
  again : ∀ (later : Int) (key : QosKey),
    timeless ((rerollAll cfg later (rerollAll cfg now db).1).1.foghornQos.lookup key) =
      timeless ((rerollAll cfg now db).1.foghornQos.lookup key)

/-- Outside the walked days the rows of this width are already right, and inside them no row
that stays has a fee. -/
def RightWhereUnwalked (cfg : QosRollupConfig) (now : Int) (db : Db) : Prop :=
  ∀ key : QosKey, key.2.2.2 = cfg.width →
    (¬ Walked cfg now db key.2.2.1 →
      timeless (db.foghornQos.lookup key) = timeless (wantedRow cfg now db key)) ∧
    (Walked cfg now db key.2.2.1 → (wantedRow cfg now db key).isSome →
      ∀ old ∈ db.foghornQos.lookup key, old.fees = QosFees.none)

section Exact

variable {cfg : QosRollupConfig}

/-- But for its time stamp a wanted row does not depend on the clock. -/
theorem timeless_wantedRow (now later : Int) (db : Db) (key : QosKey) :
    timeless (wantedRow cfg now db key) = timeless (wantedRow cfg later db key) := by
  unfold wantedRow
  split <;> rfl

private theorem fees_of_wantedRow {now : Int} {db : Db} {key : QosKey} {row : QosRow}
    (wanted : wantedRow cfg now db key = some row) : row.fees = QosFees.none := by
  obtain ⟨_, rfl⟩ := wantedRow_eq_some_iff.mp wanted
  rfl

private theorem fees_of_timeless {left right : QosRow}
    (same : timeless (some left) = timeless (some right)) : left.fees = right.fees := by
  simp only [timeless, Option.map_some, Option.some.injEq, QosRow.mk.injEq] at same
  exact same.2.2.2.2.2.2.2.2.1

/-- One rollup over all time into an empty table writes the wanted rows. -/
theorem lookup_freshRollup (positive : 0 < cfg.bucketSecs) (now beginning : Int) (db : Db)
    (early : ∀ p ∈ db.probe, beginning ≤ p.dispatchedAt) {key : QosKey}
    (sameWidth : key.2.2.2 = cfg.width) :
    (rollRange cfg now beginning none none
      { db with foghornQos := Table.empty }).1.foghornQos.lookup key = wantedRow cfg now db key := by
  have second := microsPerSecond_pos
  have bucket := bucketMicros_pos positive
  have roll := lookup_rollRange positive now { db with foghornQos := Table.empty } beginning none
    none key
  rw [roll]
  have same : wantedRow cfg now { db with foghornQos := Table.empty } key =
      wantedRow cfg now db key := rfl
  rw [same]
  cases wanted : wantedRow cfg now db key with
  | none => simp
  | some row =>
    obtain ⟨p, probed, _, inBucket⟩ := exists_probe_of_wantedRow wanted
    have covered : Covers cfg (windowRange cfg beginning none) none key := by
      have le := floorTo_mono (show 0 < cfg.bucketMicros by omega) (early p probed)
      rw [inBucket] at le
      simp [Covers, Window.Holds, windowRange, forDeployment, sameWidth, le]
    simp [covered]

/-- A table that already holds a fresh rollup's row under a key keeps it when rolled again. -/
theorem timeless_rolledTo {now later : Int} {db : Db} {key : QosKey}
    (right : timeless (db.foghornQos.lookup key) = timeless (wantedRow cfg now db key)) :
    timeless (rolledTo cfg later db key) = timeless (db.foghornQos.lookup key) := by
  rw [right, timeless_wantedRow now later]
  unfold rolledTo
  cases wanted : wantedRow cfg later db key with
  | none => rfl
  | some row =>
    have noFees := fees_of_wantedRow wanted
    rw [timeless_wantedRow now later, wanted] at right
    cases stored : db.foghornQos.lookup key with
    | none => rfl
    | some old =>
      rw [stored] at right
      have fees : old.fees = row.fees := fees_of_timeless right
      simp [timeless, keepFees, fees]

/-- A roll leaves the wanted row, up to its time, where no row that stays has a fee. -/
theorem timeless_rolledTo_iff {now : Int} {db : Db} {key : QosKey} :
    timeless (rolledTo cfg now db key) = timeless (wantedRow cfg now db key) ↔
      ((wantedRow cfg now db key).isSome →
        ∀ old ∈ db.foghornQos.lookup key, old.fees = QosFees.none) := by
  unfold rolledTo
  cases wanted : wantedRow cfg now db key with
  | none => simp
  | some row =>
    have noFees := fees_of_wantedRow wanted
    cases stored : db.foghornQos.lookup key with
    | none => simp
    | some old =>
      constructor
      · intro fresh _ kept member
        obtain rfl := Option.some.inj member
        have fees : (keepFees row old).fees = row.fees := fees_of_timeless fresh
        exact fees.trans noFees
      · intro free
        simp [timeless, keepFees, free rfl old rfl, noFees]

/-- Rerolling everything leaves the wanted row under a key that it walks and where no fee stays,
or where the row was right before. -/
theorem timeless_rerollAll_iff (positive : 0 < cfg.bucketSecs) (now : Int) (db : Db)
    {key : QosKey} (sameWidth : key.2.2.2 = cfg.width) :
    timeless ((rerollAll cfg now db).1.foghornQos.lookup key) =
        timeless (wantedRow cfg now db key) ↔
      (¬ Walked cfg now db key.2.2.1 →
        timeless (db.foghornQos.lookup key) = timeless (wantedRow cfg now db key)) ∧
      (Walked cfg now db key.2.2.1 → (wantedRow cfg now db key).isSome →
        ∀ old ∈ db.foghornQos.lookup key, old.fees = QosFees.none) := by
  obtain ⟨inside, outside⟩ := lookup_rerollAll positive now db key
  by_cases walked : Walked cfg now db key.2.2.1
  · rw [inside ⟨sameWidth, walked⟩, timeless_rolledTo_iff]
    exact ⟨fun free => ⟨fun unwalked => absurd walked unwalked, fun _ => free⟩,
      fun right => right.2 walked⟩
  · rw [outside fun both => walked both.2]
    exact ⟨fun right => ⟨fun _ => right, fun within => absurd within walked⟩,
      fun right => right.1 walked⟩

private theorem wantedRow_rerollAll (now later : Int) (db : Db) (key : QosKey) :
    wantedRow cfg now (rerollAll cfg later db).1 key = wantedRow cfg now db key := by
  rw [rerollAll_frame]
  rfl

/-- Rerolling everything leaves exactly a fresh rollup's rows if and only if the rows it does
not walk were already right and no row it keeps has a fee. -/
theorem rerollAll_exact_iff (cfg : QosRollupConfig) (now beginning : Int) (db : Db)
    (positive : 0 < cfg.bucketSecs) (early : ∀ p ∈ db.probe, beginning ≤ p.dispatchedAt) :
    RerolledExactly cfg now beginning db ↔ RightWhereUnwalked cfg now db := by
  constructor
  · intro exact_ key sameWidth
    have fresh := exact_.fresh key sameWidth
    rw [lookup_freshRollup positive now beginning db early sameWidth] at fresh
    exact (timeless_rerollAll_iff positive now db sameWidth).mp fresh
  · intro right
    have fresh (key : QosKey) (sameWidth : key.2.2.2 = cfg.width) :=
      (timeless_rerollAll_iff positive now db sameWidth).mpr (right key sameWidth)
    refine ⟨?_, ?_, ?_⟩
    · intro key sameWidth
      rw [lookup_freshRollup positive now beginning db early sameWidth]
      exact fresh key sameWidth
    · intro key otherWidth
      exact (lookup_rerollAll positive now db key).2 fun both => otherWidth both.1
    · intro later key
      obtain ⟨inside, outside⟩ := lookup_rerollAll positive later (rerollAll cfg now db).1 key
      by_cases walked : key.2.2.2 = cfg.width ∧
          Walked cfg later (rerollAll cfg now db).1 key.2.2.1
      · rw [inside walked]
        have right' := fresh key walked.1
        rw [← wantedRow_rerollAll now now] at right'
        exact timeless_rolledTo right'
      · rw [outside walked]

end Exact

section Samples

/-- Five-minute buckets. -/
def sampleRollup : QosRollupConfig := ⟨300, 3600, "lodestar", "arbitrum-one", 12⟩

/-- A row nobody's observations give, in a database without probes. -/
def orphanRow : QosRow where
  indexerAddress := "0xindexer"
  deploymentId := "Qm"
  bucketStart := 0
  bucketSecs := 300
  indexerUrl := none
  chainId := "arbitrum-one"
  gatewayId := "lodestar"
  measure := measureOf []
  fees := QosFees.none
  computedAt := 0

def orphanDb : Db := { Db.empty with foghornQos := Table.empty.insertNew orphanRow }

/-- A row that no answer backs survives a re-roll that has no probe to begin with. -/
theorem orphan_survives_rerollAll :
    ¬ ∀ (cfg : QosRollupConfig) (now beginning : Int) (db : Db) (_ : 0 < cfg.bucketSecs)
      (_ : ∀ p ∈ db.probe, beginning ≤ p.dispatchedAt), RerolledExactly cfg now beginning db := by
  intro always
  have noProbes : ∀ p ∈ orphanDb.probe, (0 : Int) ≤ p.dispatchedAt := fun p member =>
    absurd member (Table.not_mem_empty p)
  have width : (300 : Int) = sampleRollup.width := by decide +kernel
  have fresh := (always sampleRollup 0 0 orphanDb (by decide) noProbes).fresh
    ("0xindexer", "Qm", 0, 300) width
  rw [lookup_freshRollup (by decide) 0 0 orphanDb noProbes width] at fresh
  have gone : timeless (wantedRow sampleRollup 0 orphanDb ("0xindexer", "Qm", 0, 300)) = none := rfl
  have kept : (timeless ((rerollAll sampleRollup 0 orphanDb).1.foghornQos.lookup
      ("0xindexer", "Qm", 0, 300))).isSome := by decide
  rw [fresh, gone] at kept
  cases kept

/-- Two stale rows of one bucket: an indexer has answered since, and another has not answered
any of the probes that are left. -/
def staleDb : Db :=
  { Db.empty with
    probe := Table.empty.insertNew ⟨1, "Qm", "0x00", 7, "q", "Q_byid", "", 0⟩
    observation := Table.empty.insertNew ⟨1, "0xindexer", some "hash", some 120, some 7, none,
      some 200, none, .exact 1, .gateway, none, none, none⟩
    foghornQos := ⟨[orphanRow, { orphanRow with indexerAddress := "0xgone" }], by decide⟩ }

private theorem walked_staleDb : Walked sampleRollup 0 staleDb 0 :=
  ⟨0, rfl, by decide, by decide, by decide⟩

private theorem mem_staleDb {row : QosRow} (stored : row ∈ staleDb.foghornQos) :
    row.bucketStart = 0 ∧ row.fees = QosFees.none := by
  rcases List.mem_cons.mp (Table.mem_rows.mpr stored) with rfl | other
  · exact ⟨rfl, rfl⟩
  · obtain rfl := List.mem_singleton.mp other
    exact ⟨rfl, rfl⟩

private theorem wantedRow_staleDb {key : QosKey} (later : key.2.2.1 ≠ 0) :
    wantedRow sampleRollup 0 staleDb key = none := by
  refine Option.eq_none_iff_forall_ne_some.mpr fun row wanted => later ?_
  obtain ⟨p, probed, -, bucket⟩ := exists_probe_of_wantedRow wanted
  rw [staleDb, Table.mem_insertNew] at probed
  rcases probed with old | ⟨-, rfl⟩
  · exact absurd old (Table.not_mem_empty p)
  · exact bucket.symm

/-- The row of the first is written again, and that of the second goes. -/
theorem stale_rows_rerolled_exactly : RerolledExactly sampleRollup 0 0 staleDb := by
  refine (rerollAll_exact_iff sampleRollup 0 0 staleDb (by decide) ?_).mpr fun key _ => ⟨?_, ?_⟩
  · intro p probed
    rw [staleDb, Table.mem_insertNew] at probed
    rcases probed with old | ⟨-, rfl⟩
    · exact absurd old (Table.not_mem_empty p)
    · exact Int.le_refl 0
  · intro unwalked
    have later : key.2.2.1 ≠ 0 := fun first => unwalked (first ▸ walked_staleDb)
    have free : staleDb.foghornQos.lookup key = none := by
      refine Option.eq_none_iff_forall_ne_some.mpr fun row stored => later ?_
      obtain ⟨member, rfl⟩ := Table.lookup_eq_some_iff.mp stored
      exact (mem_staleDb member).1
    rw [free, wantedRow_staleDb later]
  · intro _ _ old stored
    exact (mem_staleDb (Table.lookup_eq_some_iff.mp stored).1).2

end Samples

end Foghorn.Probe
