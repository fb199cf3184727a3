import Mathlib.Data.Prod.Lex
import Mathlib.Data.List.Perm.Subperm
import Foghorn.Std.Cursor
import Foghorn.Std.Table
import Foghorn.Probe.Nest

/-!
# Ingesting realised query fees

Settlements are copied from the nest a page at a time, after the highest block that is
stored. The cursor is a block and the page is counted in rows, so a page that ends inside a
block leaves the rest of the block behind the cursor for good. Everything else is harmless:
a failed pass writes nothing, and a page that is read again is not stored twice.
-/

namespace Foghorn.Probe

open Foghorn.Std Foghorn.Core

/-- `PAGE`. -/
def feePage : Nat := 5000

/-- A `QueryFeesCollected` event as the nest serves it. -/
structure NestQueryFee where
  indexer : String
  deploymentId : String
  allocationId : String
  payer : String
  tokensCollected : String
  tokensCurators : Option String
  blockNumber : Int
  blockTimestamp : Int
  logIndex : Int

/-- `chain_query_fees`. -/
structure ChainQueryFee where
  indexerAddress : String
  deploymentId : String
  allocationId : String
  payer : String
  tokensCollected : ℚ
  tokensCurators : Option ℚ
  blockNumber : Int
  blockTimestamp : Int
  logIndex : Int

def NestQueryFee.key (event : NestQueryFee) : Int × Int := (event.blockNumber, event.logIndex)

def ChainQueryFee.key (row : ChainQueryFee) : Int × Int := (row.blockNumber, row.logIndex)

abbrev FeeTable := Table ChainQueryFee (Int × Int) ChainQueryFee.key

/-- `ORDER BY block_number, log_index`. -/
def feeRank (event : NestQueryFee) : Int ×ₗ Int := toLex event.key

def blockOf (rank : Int ×ₗ Int) : Int := (ofLex rank).1

private theorem blockOf_monotone : Monotone blockOf := Prod.Lex.monotone_fst

@[simp] theorem blockOf_feeRank (event : NestQueryFee) :
    blockOf (feeRank event) = event.blockNumber := rfl

/-- `COALESCE(MAX(block_number), 0)`. -/
def highestBlock (fees : FeeTable) : Int := (fees.rows.map ChainQueryFee.blockNumber).max?.getD 0

/-- What can go wrong in a pass: the cursor is not read, the nest does not answer, the
transaction does not commit. -/
structure IngestPass where
  cursorRead : Bool
  fetched : Bool
  committed : Bool

section Ingest

variable (crates : Crates) (numeric : String → Option ℚ)

/-- A row of the nest as `query_fees` returns it. -/
def NestQueryFee.read (event : NestQueryFee) : NestQueryFee :=
  { event with
    deploymentId := normaliseDeploymentId event.deploymentId
    indexer := crates.lowercase event.indexer }

def queryFees (nest : List NestQueryFee) (sinceBlock : Int) (limit : Nat) : List NestQueryFee :=
  (pageAfter feeRank blockOf nest sinceBlock limit).map (NestQueryFee.read crates)

/-- The row that is inserted, if both amounts cast to `numeric`. -/
def NestQueryFee.toRow (event : NestQueryFee) : Option ChainQueryFee := do
  let tokensCollected ← numeric event.tokensCollected
  let tokensCurators ← castNullable numeric event.tokensCurators
  some
    { indexerAddress := event.indexer
      deploymentId := event.deploymentId
      allocationId := crates.lowercase event.allocationId
      payer := crates.lowercase event.payer
      tokensCollected := tokensCollected
      tokensCurators := tokensCurators
      blockNumber := event.blockNumber
      blockTimestamp := event.blockTimestamp
      logIndex := event.logIndex }

/-- The statements of one transaction; an amount that does not cast fails it. -/
def insertFees (page : List NestQueryFee) (fees : FeeTable) : Option FeeTable :=
  page.foldlM (fun fees event => (event.toRow crates numeric).map fees.insertNew) fees

def sinceOf (pass : IngestPass) (fees : FeeTable) : Int :=
  if pass.cursorRead then highestBlock fees else 0

/-- One pass: the table after it, and how many rows were written unless it failed. -/
def ingestOnce (pass : IngestPass) (nest : List NestQueryFee) (fees : FeeTable) :
    FeeTable × Option Nat :=
  if pass.fetched then
    let page := queryFees crates nest (sinceOf pass fees) feePage
    if page.isEmpty then (fees, some 0)
    else
      match insertFees crates numeric page fees with
      | some stored => if pass.committed then (stored, some page.length) else (fees, none)
      | none => (fees, none)
  else (fees, none)

/-- What an event is stored as. -/
def NestQueryFee.stored (event : NestQueryFee) : Option ChainQueryFee :=
  (event.read crates).toRow crates numeric

variable {crates numeric}

private theorem key_of_stored {event : NestQueryFee} {row : ChainQueryFee}
    (stored : event.stored crates numeric = some row) : row.key = event.key := by
  simp only [NestQueryFee.stored, NestQueryFee.toRow, Option.bind_eq_bind,
    Option.bind_eq_some_iff, Option.some.injEq] at stored
  obtain ⟨_, _, _, _, rfl⟩ := stored
  rfl

/-- What a transaction leaves: all that was there, and a row for each key of the page. -/
structure Inserted (crates : Crates) (numeric : String → Option ℚ) (page : List NestQueryFee)
    (before after : FeeTable) : Prop where
  kept : ∀ row ∈ before, row ∈ after
  origin : ∀ row ∈ after, row ∈ before ∨ ∃ event ∈ page, event.toRow crates numeric = some row
  held : ∀ event ∈ page, ∃ row, event.toRow crates numeric = some row ∧ after.holds row.key
  bounded : after.rows.length ≤ before.rows.length + page.length

private theorem length_insertNew_le (fees : FeeTable) (row : ChainQueryFee) :
    (fees.insertNew row).rows.length ≤ fees.rows.length + 1 := by
  by_cases taken : fees.holds row.key
  · rw [Table.insertNew_of_holds taken]
    omega
  · rw [Table.rows_insertNew taken, List.length_append, List.length_singleton]

/-- A page whose insert ends well has stored each of its events. -/
theorem inserted_insertFees {page : List NestQueryFee} {before after : FeeTable}
    (done : insertFees crates numeric page before = some after) :
    Inserted crates numeric page before after := by
  induction page generalizing before with
  | nil =>
    obtain rfl := Option.some.inj done
    exact ⟨fun _ member => member, fun _ member => .inl member,
      fun _ member => absurd member List.not_mem_nil, Nat.le_refl _⟩
  | cons event rest ih =>
    rw [insertFees, List.foldlM_cons] at done
    obtain ⟨middle, inserted, rests⟩ := Option.bind_eq_some_iff.mp done
    obtain ⟨row, written, rfl⟩ := Option.map_eq_some_iff.mp inserted
    obtain ⟨kept, origin, held, bounded⟩ := ih rests
    have keptAll : ∀ old ∈ before, old ∈ after := fun old member =>
      kept old (Table.mem_insertNew.mpr (.inl member))
    refine ⟨keptAll, fun found member => ?_, fun other member => ?_, ?_⟩
    · rcases origin found member with earlier | ⟨source, listed, same⟩
      · rcases Table.mem_insertNew.mp earlier with old | ⟨_, rfl⟩
        · exact .inl old
        · exact .inr ⟨event, List.mem_cons_self, written⟩
      · exact .inr ⟨source, List.mem_cons_of_mem _ listed, same⟩
    · rcases List.mem_cons.mp member with rfl | later
      · refine ⟨row, written, ?_⟩
        -- The key is held by the new row, or by the one that kept it out.
        by_cases taken : before.holds row.key
        · obtain ⟨old, there, sameKey⟩ := Table.holds_iff.mp taken
          exact Table.holds_iff.mpr ⟨old, keptAll old there, sameKey⟩
        · exact Table.holds_of_mem (kept row (Table.mem_insertNew.mpr (.inr ⟨taken, rfl⟩)))
      · exact held other later
    · have one := length_insertNew_le before row
      rw [List.length_cons]
      omega

end Ingest

section Highest

private theorem highestBlock_cases (fees : FeeTable) :
    (fees.rows = [] ∧ highestBlock fees = 0) ∨
      ∃ row ∈ fees, row.blockNumber = highestBlock fees := by
  unfold highestBlock
  cases found : (fees.rows.map ChainQueryFee.blockNumber).max? with
  | none =>
    rw [List.max?_eq_none_iff, List.map_eq_nil_iff] at found
    exact .inl ⟨found, rfl⟩
  | some highest =>
    obtain ⟨row, member, same⟩ := List.mem_map.mp (List.max?_mem found)
    exact .inr ⟨row, member, same⟩

/-- A positive block above all that is stored is above the cursor. -/
theorem highestBlock_lt {fees : FeeTable} {block : Int} (positive : 0 < block)
    (above : ∀ row ∈ fees, row.blockNumber < block) : highestBlock fees < block := by
  rcases highestBlock_cases fees with ⟨_, none⟩ | ⟨row, member, highest⟩
  · rw [none]
    exact positive
  · rw [← highest]
    exact above row member

end Highest

section Runs

variable (crates : Crates) (numeric : String → Option ℚ)

/-- The nest and what is stored of it. -/
structure FeeState where
  nest : List NestQueryFee
  fees : FeeTable

/-- The nest grows by some events, or a pass is made. -/
inductive FeeStep where
  | grow (events : List NestQueryFee)
  | pass (pass : IngestPass)

/-- Events are unique, and new ones belong to later blocks. -/
structure Appends (nest events : List NestQueryFee) : Prop where
  unique : ((nest ++ events).map NestQueryFee.key).Nodup
  later : ∀ old ∈ nest, ∀ event ∈ events, old.blockNumber < event.blockNumber

def FeeStep.Possible : FeeStep → FeeState → Prop
  | .grow events, state => Appends state.nest events
  | .pass _, _ => True

def FeeStep.run : FeeStep → FeeState → FeeState
  | .grow events, state => { state with nest := state.nest ++ events }
  | .pass attempt, state =>
    { state with fees := (ingestOnce crates numeric attempt state.nest state.fees).1 }

/-- No event is in block 0 or below, and no page that is written ends inside a block that was
not stored before. -/
def FeeStep.Clean : FeeStep → FeeState → Prop
  | .grow events, _ => ∀ event ∈ events, 0 < event.blockNumber
  | .pass attempt, state => attempt.fetched = true → attempt.committed = true →
      EndsBetween feeRank blockOf state.nest (sinceOf attempt state.fees) feePage
        (highestBlock state.fees)

/-- The states of the runs from an empty nest and an empty table whose steps are allowed. -/
inductive FeeRun (allowed : FeeStep → FeeState → Prop) : FeeState → Prop where
  | start : FeeRun allowed ⟨[], Table.empty⟩
  | step {state : FeeState} (step : FeeStep) (reached : FeeRun allowed state)
      (possible : step.Possible state) (allows : allowed step state) :
      FeeRun allowed (step.run crates numeric state)

/-- Every event up to a stored block is stored, as the one row of its key. -/
def HoldsEvery (state : FeeState) : Prop :=
  ∀ event ∈ state.nest, ∀ last ∈ state.fees, event.blockNumber ≤ last.blockNumber →
    ∃ row ∈ state.fees, event.stored crates numeric = some row ∧
      ∀ other ∈ state.fees, other.key = event.key → other = row

/-- The invariant of a clean run. -/
structure FeeState.Faithful (state : FeeState) : Prop where
  unique : (state.nest.map NestQueryFee.key).Nodup
  positive : ∀ event ∈ state.nest, 0 < event.blockNumber
  sound : ∀ row ∈ state.fees, ∃ event ∈ state.nest, event.stored crates numeric = some row
  complete : ∀ event ∈ state.nest, ∀ last ∈ state.fees, event.blockNumber ≤ last.blockNumber →
    state.fees.holds event.key

variable {crates numeric}

private theorem faithful_start : FeeState.Faithful crates numeric ⟨[], Table.empty⟩ where
  unique := List.nodup_nil
  positive _ member := absurd member List.not_mem_nil
  sound _ member := absurd member (Table.not_mem_empty _)
  complete _ member := absurd member List.not_mem_nil

variable {state : FeeState}

/-- New events of the nest keep what is stored faithful. -/
theorem faithful_grow (faithful : state.Faithful crates numeric) {events : List NestQueryFee}
    (appends : Appends state.nest events) (positive : ∀ event ∈ events, 0 < event.blockNumber) :
    FeeState.Faithful crates numeric { state with nest := state.nest ++ events } where
  unique := appends.unique
  positive event member :=
    (List.mem_append.mp member).elim (faithful.positive event) (positive event)
  sound row member := by
    obtain ⟨event, listed, stored⟩ := faithful.sound row member
    exact ⟨event, List.mem_append_left _ listed, stored⟩
  complete event member last stored le := by
    rcases List.mem_append.mp member with old | new
    · exact faithful.complete event old last stored le
    · -- What is stored comes from blocks before those that the nest grows by.
      obtain ⟨source, listed, written⟩ := faithful.sound last stored
      have before := appends.later source listed event new
      have same : last.blockNumber = source.blockNumber :=
        congrArg Prod.fst (key_of_stored written)
      omega

/-- A pass that changes the table stored its page. -/
theorem ingestOnce_cases (attempt : IngestPass) (nest : List NestQueryFee) (fees : FeeTable) :
    (ingestOnce crates numeric attempt nest fees).1 = fees ∨
      attempt.fetched = true ∧ attempt.committed = true ∧
        insertFees crates numeric (queryFees crates nest (sinceOf attempt fees) feePage) fees =
          some (ingestOnce crates numeric attempt nest fees).1 := by
  unfold ingestOnce
  split
  · rename_i fetched
    dsimp only
    split
    · exact .inl rfl
    · split
      · rename_i stored done
        split
        · rename_i committed
          exact .inr ⟨fetched, committed, done⟩
        · exact .inl rfl
      · exact .inl rfl
  · exact .inl rfl

/-- A pass in which nothing fails. -/
theorem ingestOnce_of_inserted {attempt : IngestPass} {nest : List NestQueryFee}
    {fees after : FeeTable} (fetched : attempt.fetched = true) (committed : attempt.committed = true)
    {event : NestQueryFee} (shown : event ∈ queryFees crates nest (sinceOf attempt fees) feePage)
    (done : insertFees crates numeric (queryFees crates nest (sinceOf attempt fees) feePage) fees =
      some after) :
    (ingestOnce crates numeric attempt nest fees).1 = after := by
  have nonempty : (queryFees crates nest (sinceOf attempt fees) feePage).isEmpty = false :=
    List.isEmpty_eq_false_iff_exists_mem.mpr ⟨event, shown⟩
  rw [ingestOnce, if_pos fetched]
  simp only [nonempty, Bool.false_eq_true, if_false, done, committed, if_true]

private theorem sinceOf_lt {attempt : IngestPass} {fees : FeeTable} {block : Int}
    (positive : 0 < block)
    (above : ∀ row ∈ fees, row.blockNumber < block) : sinceOf attempt fees < block := by
  unfold sinceOf
  split
  · exact highestBlock_lt positive above
  · exact positive

/-- A clean pass keeps what is stored faithful. -/
theorem faithful_pass (faithful : state.Faithful crates numeric) {attempt : IngestPass}
    (clean : FeeStep.Clean (.pass attempt) state) :
    (FeeStep.run crates numeric (.pass attempt) state).Faithful crates numeric := by
  rcases @ingestOnce_cases crates numeric attempt state.nest state.fees with
    unchanged | ⟨fetched, committed, done⟩
  · rw [FeeStep.run, unchanged]
    exact faithful
  · have ends := clean fetched committed
    have inserted := inserted_insertFees done
    have ofPage {event : NestQueryFee}
        (member : event ∈ queryFees crates state.nest (sinceOf attempt state.fees) feePage) :
        ∃ source ∈ pageAfter feeRank blockOf state.nest (sinceOf attempt state.fees) feePage,
          source.read crates = event := List.mem_map.mp member
    refine ⟨faithful.unique, faithful.positive, fun row member => ?_,
      fun event listed last stored le => ?_⟩
    · rcases inserted.origin row member with old | ⟨event, paged, written⟩
      · exact faithful.sound row old
      · obtain ⟨source, shown, rfl⟩ := ofPage paged
        exact ⟨source, (mem_log_of_mem_pageAfter shown).1, written⟩
    · by_cases reached : ∃ old ∈ state.fees, event.blockNumber ≤ old.blockNumber
      · obtain ⟨old, there, within⟩ := reached
        obtain ⟨row, held, key⟩ := Table.holds_iff.mp (faithful.complete event listed old there within)
        exact Table.holds_iff.mpr ⟨row, inserted.kept row held, key⟩
      · -- The block is new, so a row of the page reached it and the page has all of it.
        have above : ∀ old ∈ state.fees, old.blockNumber < event.blockNumber := fun old there =>
          not_le.mp fun within => reached ⟨old, there, within⟩
        have positive := faithful.positive event listed
        rcases inserted.origin last stored with old | ⟨_, paged, written⟩
        · exact absurd le (not_le.mpr (above last old))
        · obtain ⟨shown, inPage, rfl⟩ := ofPage paged
          have same : last.blockNumber = shown.blockNumber :=
            congrArg Prod.fst (key_of_stored written)
          have taken := mem_pageAfter_of_le blockOf_monotone ends listed (sinceOf_lt positive above)
            (highestBlock_lt positive above) inPage (le.trans_eq same)
          obtain ⟨row, rowWritten, held⟩ :=
            inserted.held _ (List.mem_map.mpr ⟨event, taken, rfl⟩)
          exact key_of_stored rowWritten ▸ held

/-- After clean passes what is stored is faithful to the nest. -/
theorem faithful_run (reached : FeeRun crates numeric FeeStep.Clean state) :
    state.Faithful crates numeric := by
  induction reached with
  | start => exact faithful_start
  | step step _ possible clean ih =>
    cases step with
    | grow events => exact faithful_grow ih possible clean
    | pass attempt => exact faithful_pass ih clean

/-- A faithful table holds every event up to its highest block. -/
theorem holdsEvery_of_faithful (faithful : state.Faithful crates numeric) :
    HoldsEvery crates numeric state := by
  intro event listed last stored le
  obtain ⟨row, held, key⟩ := Table.holds_iff.mp (faithful.complete event listed last stored le)
  obtain ⟨source, sourceListed, written⟩ := faithful.sound row held
  have same : source = event := List.inj_on_of_nodup_map faithful.unique sourceListed listed
    ((key_of_stored written).symm.trans key)
  refine ⟨row, held, same ▸ written, fun other there otherKey => ?_⟩
  exact Table.eq_of_key_eq there held (otherKey.trans key.symm)

/-- In a run whose pages all end between blocks, every state holds every event up to the
highest stored block once, so also after a pass that returns less than a page. -/
theorem clean_run_holds_every (reached : FeeRun crates numeric FeeStep.Clean state) :
    HoldsEvery crates numeric state :=
  holdsEvery_of_faithful (faithful_run reached)

end Runs

section Samples

/-- A settlement of one token. -/
def settlement (block log : Int) : NestQueryFee :=
  ⟨"0xindexer", "Qm", "0xallocation", "0xpayer", "1", none, block, 0, log⟩

def oneToken : String → Option ℚ := fun _ => some 1

def soundPass : IngestPass := ⟨true, true, true⟩

/-- Two settlements in one block are stored by one pass. -/
theorem two_settlements_held :
    HoldsEvery (Crates.knowing [] []) oneToken
      (FeeStep.run (Crates.knowing [] []) oneToken (.pass soundPass)
        ⟨[settlement 1 0, settlement 1 1], Table.empty⟩) := by
  have grown : FeeRun (Crates.knowing [] []) oneToken FeeStep.Clean
      ⟨[settlement 1 0, settlement 1 1], Table.empty⟩ :=
    FeeRun.step (.grow [settlement 1 0, settlement 1 1]) .start ⟨by decide, by decide⟩
      (show ∀ event ∈ [settlement 1 0, settlement 1 1], 0 < event.blockNumber by decide)
  refine clean_run_holds_every (FeeRun.step (.pass soundPass) grown trivial fun _ _ => ?_)
  intro last _ next after
  have few : ((orderedAfter feeRank blockOf [settlement 1 0, settlement 1 1]
      (sinceOf soundPass Table.empty)).drop feePage) = [] := by
    refine List.drop_eq_nil_of_le ?_
    rw [orderedAfter, List.length_mergeSort]
    exact (List.length_filter_le _ _).trans (by decide)
  rw [few] at after
  cases after

/-- A nest with one block of settlements. -/
def oneBlock (size : Nat) : List NestQueryFee := 
  (List.range size).map fun (log : Nat) => settlement 1 log

private theorem oneBlock_unique (size : Nat) : ((oneBlock size).map NestQueryFee.key).Nodup := by
  rw [oneBlock, List.map_map]
  refine List.nodup_range.map fun left right same => ?_
  exact Int.ofNat.inj (Prod.mk.inj same).2

private theorem block_of_mem_oneBlock {size : Nat} {event : NestQueryFee}
    (member : event ∈ oneBlock size) :
    event.blockNumber = 1 := by
  obtain ⟨_, _, rfl⟩ := List.mem_map.mp member
  rfl

private theorem exists_insertFees (page : List NestQueryFee) (fees : FeeTable) :
    ∃ after, insertFees (Crates.knowing [] []) oneToken page fees = some after := by
  induction page generalizing fees with
  | nil => exact ⟨fees, rfl⟩
  | cons event rest ih =>
    have casts : ∃ row, event.toRow (Crates.knowing [] []) oneToken = some row := by
      cases curators : event.tokensCurators <;> simp [NestQueryFee.toRow, curators, castNullable, oneToken]
    obtain ⟨row, written⟩ := casts
    obtain ⟨after, done⟩ := ih (fees.insertNew row)
    refine ⟨after, ?_⟩
    rw [insertFees, List.foldlM_cons, written]
    exact done

/-- The table after a pass over one block. -/
def oneBlockFees (size : Nat) : FeeTable :=
  (ingestOnce (Crates.knowing [] []) oneToken soundPass (oneBlock size) Table.empty).1

/-- What the pass stores: rows of the block, at least one and at most a page. -/
theorem oneBlockFees_spec {size : Nat} (occurs : 0 < size) :
    (∃ row, row ∈ oneBlockFees size) ∧ (∀ row ∈ oneBlockFees size, row.blockNumber = 1) ∧
      (oneBlockFees size).rows.length ≤ feePage := by
  have first : settlement 1 0 ∈ orderedAfter feeRank blockOf (oneBlock size)
      (sinceOf soundPass Table.empty) :=
    mem_orderedAfter.mpr ⟨List.mem_map.mpr ⟨0, List.mem_range.mpr occurs, rfl⟩, by decide⟩
  obtain ⟨head, rest, split⟩ := List.exists_cons_of_ne_nil (List.ne_nil_of_mem first)
  have shown : head.read (Crates.knowing [] []) ∈ queryFees (Crates.knowing [] []) (oneBlock size)
      (sinceOf soundPass Table.empty) feePage := by
    refine List.mem_map.mpr ⟨head, ?_, rfl⟩
    rw [pageAfter, split, feePage]
    exact List.mem_cons_self
  obtain ⟨after, done⟩ := exists_insertFees (queryFees (Crates.knowing [] []) (oneBlock size)
    (sinceOf soundPass Table.empty) feePage) Table.empty
  have inserted := inserted_insertFees done
  rw [oneBlockFees, ingestOnce_of_inserted rfl rfl shown done]
  refine ⟨?_, fun row member => ?_, ?_⟩
  · obtain ⟨_, _, held⟩ := inserted.held _ shown
    obtain ⟨row, member, _⟩ := Table.holds_iff.mp held
    exact ⟨row, member⟩
  · rcases inserted.origin row member with old | ⟨_, paged, written⟩
    · exact absurd old (Table.not_mem_empty row)
    · obtain ⟨source, listed, rfl⟩ := List.mem_map.mp paged
      rw [← block_of_mem_oneBlock (mem_log_of_mem_pageAfter listed).1]
      exact congrArg Prod.fst (key_of_stored written)
  · refine inserted.bounded.trans ?_
    rw [queryFees, List.length_map, pageAfter]
    exact (Nat.zero_add _).trans_le (List.length_take_le _ _)

private theorem highestBlock_oneBlockFees {size : Nat} (occurs : 0 < size) :
    highestBlock (oneBlockFees size) = 1 := by
  obtain ⟨⟨stored, there⟩, ofBlock, _⟩ := oneBlockFees_spec occurs
  rcases highestBlock_cases (oneBlockFees size) with ⟨none, _⟩ | ⟨row, member, highest⟩
  · rw [← Table.mem_rows, none] at there
    cases there
  · rw [← highest, ofBlock row member]

/-- The run that meets a block of more than a page: its first page. -/
def oneBlockState (size : Nat) : FeeState := ⟨oneBlock size, oneBlockFees size⟩

private theorem oneBlockState_reached (size : Nat) :
    FeeRun (Crates.knowing [] []) oneToken (fun _ _ => True) (oneBlockState size) := by
  have grown : FeeRun (Crates.knowing [] []) oneToken (fun _ _ => True)
      ⟨oneBlock size, Table.empty⟩ :=
    FeeRun.step (.grow (oneBlock size)) .start
      ⟨oneBlock_unique size, fun _ member => absurd member List.not_mem_nil⟩ trivial
  exact FeeRun.step (.pass soundPass) grown trivial trivial

/-- The next pass finds nothing after the block. -/
theorem ingestOnce_oneBlockState {size : Nat} (occurs : 0 < size) :
    ingestOnce (Crates.knowing [] []) oneToken soundPass (oneBlock size) (oneBlockFees size) =
      (oneBlockFees size, some 0) := by
  have behind : orderedAfter feeRank blockOf (oneBlock size)
      (sinceOf soundPass (oneBlockFees size)) = [] := by
    refine List.eq_nil_iff_forall_not_mem.mpr fun event member => ?_
    obtain ⟨listed, after⟩ := mem_orderedAfter.mp member
    rw [sinceOf, soundPass, if_pos rfl, highestBlock_oneBlockFees occurs, blockOf_feeRank,
      block_of_mem_oneBlock listed] at after
    omega
  rw [ingestOnce, queryFees, pageAfter, behind]
  rfl

/-- Once a part of the block is stored, a pass stores no more of it. -/
theorem run_oneBlockState {size : Nat} (occurs : 0 < size) :
    FeeStep.run (Crates.knowing [] []) oneToken (.pass soundPass) (oneBlockState size) =
      oneBlockState size := by
  rw [FeeStep.run, oneBlockState, ingestOnce_oneBlockState occurs]

/-- A table with at most a page of rows does not hold a block of more events. -/
theorem not_holdsEvery_oneBlock {size : Nat} (large : feePage < size) :
    ¬ HoldsEvery (Crates.knowing [] []) oneToken (oneBlockState size) := by
  intro every
  obtain ⟨⟨last, there⟩, ofBlock, bounded⟩ := oneBlockFees_spec (Nat.zero_lt_of_lt large)
  have held : (oneBlock size).map NestQueryFee.key ⊆
      (oneBlockFees size).rows.map ChainQueryFee.key := by
    intro key member
    obtain ⟨event, listed, rfl⟩ := List.mem_map.mp member
    have within : event.blockNumber ≤ last.blockNumber := by
      rw [block_of_mem_oneBlock listed, ofBlock last there]
    obtain ⟨row, found, stored, _⟩ := every event listed last there within
    exact List.mem_map.mpr ⟨row, found, key_of_stored stored⟩
  have fits := (List.subperm_of_subset (oneBlock_unique size) held).length_le
  rw [List.length_map, List.length_map, oneBlock, List.length_map, List.length_range] at fits
  omega

/-- A block of more than a page is cut, and the next pass returns no rows without the rest. -/
theorem split_block_refutes :
    FeeRun (Crates.knowing [] []) oneToken (fun _ _ => True) (oneBlockState (feePage + 1)) ∧
      (ingestOnce (Crates.knowing [] []) oneToken soundPass (oneBlockState (feePage + 1)).nest
        (oneBlockState (feePage + 1)).fees).2 = some 0 ∧
      ¬ HoldsEvery (Crates.knowing [] []) oneToken
        (FeeStep.run (Crates.knowing [] []) oneToken (.pass soundPass) (oneBlockState (feePage + 1))) := by
  refine ⟨oneBlockState_reached _, ?_, ?_⟩
  · rw [oneBlockState, ingestOnce_oneBlockState (Nat.succ_pos feePage)]
  · rw [run_oneBlockState (Nat.succ_pos feePage)]
    exact not_holdsEvery_oneBlock (Nat.lt_succ_self feePage)

end Samples

end Foghorn.Probe
