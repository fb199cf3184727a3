import Foghorn.Probe.Allocations
import Foghorn.Probe.Escrow
import Foghorn.Std.Seen

/-!
# Who is paid

Three loops meet in two tables. One replaces the allocations in a transaction, from the nest or from
the gateway; one asks for the balance of each indexer that has an allocation, and writes each as it
comes; and the rounds read both when they choose whom to pay. A pass over the balances reads its
indexers once, and the allocations may be replaced while it is on its way.
-/

namespace Foghorn.Probe

open Foghorn.Core Foghorn.Std

/-- `tap_escrow`. -/
structure EscrowRow where
  indexerAddress : String
  balanceWei : Nat
  checkedAt : Int

abbrev EscrowTable := Table EscrowRow String EscrowRow.indexerAddress

/-- The tables, and the indexers that a pass has still to ask about. The listing that was committed
last and the balances that were written are in none of them. -/
structure PayState where
  allocations : ActiveAllocations
  escrow : EscrowTable
  unchecked : List String
  listing : List AllocationRow
  checked : List (String × Nat)

def PayState.empty : PayState := ⟨Table.empty, Table.empty, [], [], []⟩

/-- `eq_ignore_ascii_case`. -/
def eqIgnoreAsciiCase (left right : String) : Bool :=
  left.toList.map Char.toLower = right.toList.map Char.toLower

def EscrowConfig.skips (cfg : EscrowConfig) (indexer : String) : Bool :=
  cfg.excludedIndexers.any fun e => eqIgnoreAsciiCase e indexer

/-- What the pass over the balances reads: `SELECT DISTINCT`, in any order. -/
def indexersToCheck (order : IterOrder String) (allocations : ActiveAllocations) : List String :=
  order.arrange (((allocations.rows.filter fun row => row.indexerUrl.isSome).map
    ActiveAllocation.indexerAddress).dedup)

inductive PayEvent where
  | nest (ready : ReadyAnswer) (allocations : SqlAnswer NestAllocation)
      (endpoints : SqlAnswer NestEndpointRow) (committed : Bool) (now : Int)
  | gateway (ask : Nat → String → Option Json) (committed : Bool) (now : Int)
  /-- A pass over the balances begins. -/
  | begins (order : IterOrder String)
  /-- It comes to its next indexer; `stored` is whether a balance can be written. -/
  | checks (cfg : EscrowConfig) (rpc : Json → Option Json) (stored : Bool) (now : Int)
  /-- The program starts anew. -/
  | restart

section Steps

variable (crates : Crates) (numeric : String → Option ℚ)

/-- What a pass of the nest inserts. -/
def nestRows (ready : ReadyAnswer) (allocations : SqlAnswer NestAllocation)
    (endpoints : SqlAnswer NestEndpointRow) : Option (List AllocationRow) :=
  (nestAllocations ready allocations).map fun active =>
    active.map (nestRow crates (mapOfPairs ((nestEndpoints crates endpoints).getD [])))

/-- What a pass of the gateway inserts. -/
def gatewayRows (ask : Nat → String → Option Json) : Option (List AllocationRow) :=
  (readListing idOf "" (fun length => length ≠ gatewayPageSize)
    (fun page last => allocationsPage (ask page last))
    (fun rows a => rows ++ (allocationRow crates a).toList) allocationPages []).filter
      fun rows => rows ≠ []

/-- The listing that counts after a pass. -/
def keepListing (result : ActiveAllocations × Option Nat) (rows : Option (List AllocationRow))
    (before : List AllocationRow) : List AllocationRow :=
  if result.2.isSome then rows.getD before else before

/-- One turn of the loop of the escrow `sync_once`. A failed write ends the pass. -/
def checkNext (cfg : EscrowConfig) (rpc : Json → Option Json) (stored : Bool) (now : Int)
    (state : PayState) : PayState :=
  match state.unchecked with
  | [] => state
  | indexer :: rest =>
    if cfg.skips indexer then { state with unchecked := rest }
    else
      match readBalance (rpc (balanceBody crates cfg indexer)) with
      | none => { state with unchecked := rest }
      | some wei =>
        if stored then
          { state with
            escrow := state.escrow.upsert ⟨indexer, wei, now⟩
              (fun old => { old with balanceWei := wei, checkedAt := now }) fun _ same => same
            unchecked := rest
            checked := state.checked ++ [(indexer, wei)] }
        else { state with unchecked := [] }

def payStep (state : PayState) : PayEvent → PayState
  | .nest ready allocations endpoints committed now =>
    let result :=
      syncFromNest crates numeric now ready allocations endpoints committed state.allocations
    { state with
      allocations := result.1
      listing := keepListing result (nestRows crates ready allocations endpoints) state.listing }
  | .gateway ask committed now =>
    let result := syncOnce crates numeric now ask committed state.allocations
    { state with
      allocations := result.1
      listing := keepListing result (gatewayRows crates ask) state.listing }
  | .begins order => { state with unchecked := indexersToCheck order state.allocations }
  | .checks cfg rpc stored now => checkNext crates cfg rpc stored now state
  | .restart => { state with unchecked := [] }

def payRun (state : PayState) (events : List PayEvent) : PayState :=
  events.foldl (payStep crates numeric) state

end Steps

section Targets

def EscrowTable.isFunded (escrow : EscrowTable) (indexer : String) : Bool :=
  (escrow.lookup indexer).any fun row => 0 < row.balanceWei

/-- The joined rows that both queries select. -/
def isPayable (escrow : EscrowTable) (lowered : List String) (row : ActiveAllocation) : Bool :=
  row.indexerUrl.any (· ≠ "") && escrow.isFunded row.indexerAddress &&
    !decide (row.indexerAddress ∈ lowered)

/-- `ORDER BY a.allocated_tokens DESC NULLS LAST`. -/
def tokensFirst (a b : ActiveAllocation) : Bool :=
  match a.allocatedTokens, b.allocatedTokens with
  | some x, some y => y ≤ x
  | none, some _ => false
  | _, none => true

def ActiveAllocation.target (row : ActiveAllocation) : PayableTarget :=
  ⟨row.allocationId, row.indexerAddress, row.deploymentId, row.indexerUrl⟩

variable (crates : Crates) (order : IterOrder ActiveAllocation)

/-- The selected rows in their order. -/
def payableRows (excluded : List String) (state : PayState) (chosen : ActiveAllocation → Bool) :
    List ActiveAllocation :=
  (order.arrange (state.allocations.rows.filter fun row =>
    chosen row && isPayable state.escrow (excluded.map crates.lowercase) row)).mergeSort tokensFirst

def payableTargets (limit : Nat) (excluded : List String) (state : PayState) : List PayableTarget :=
  ((payableRows crates order excluded state fun _ => true).take limit).map ActiveAllocation.target

def payableTargetsForDeployment (deploymentId : String) (excluded : List String)
    (state : PayState) : List PayableTarget :=
  (payableRows crates order excluded state fun row => row.deploymentId = deploymentId).map
    ActiveAllocation.target

end Targets

section Reached

variable {crates : Crates} {numeric : String → Option ℚ} {state : PayState}

/-- What every step keeps: the allocations are those of the last listing, whose indexers are in
lower case, and each balance is the one that was written last. -/
structure PayState.Sound (crates : Crates) (numeric : String → Option ℚ) (state : PayState) :
    Prop where
  listed : ∃ now, insertAll numeric now state.listing = some state.allocations
  lowered : ∀ row ∈ state.listing, ∃ text, row.indexer = crates.lowercase text
  balances : ∀ indexer, (state.escrow.lookup indexer).map EscrowRow.balanceWei =
    (lastUnder Prod.fst indexer state.checked).map Prod.snd

private theorem replaceAll_cases {now : Int} (committed : Bool) (rows : List AllocationRow)
    (before : ActiveAllocations) :
    ((replaceAll numeric now committed rows before).2.isSome ∧
      insertAll numeric now rows = some (replaceAll numeric now committed rows before).1) ∨
    ((replaceAll numeric now committed rows before).2 = none ∧
      (replaceAll numeric now committed rows before).1 = before) := by
  rw [replaceAll]
  cases insertAll numeric now rows with
  | none => exact .inr ⟨rfl, rfl⟩
  | some after =>
    cases committed
    · exact .inr ⟨rfl, rfl⟩
    · exact .inl ⟨rfl, rfl⟩

/-- A pass over the allocations either replaces them by a listing or leaves them alone. -/
structure Replaces (numeric : String → Option ℚ) (now : Int) (rows : Option (List AllocationRow))
    (before : ActiveAllocations) (result : ActiveAllocations × Option Nat) : Prop where
  cases : (result.2.isSome ∧ ∃ list, rows = some list ∧ insertAll numeric now list = some result.1) ∨
    (result.2 = none ∧ result.1 = before)

/-- A sync from the nest replaces the allocations by the nest's rows, or leaves them. -/
theorem replaces_syncFromNest (now : Int) (ready : ReadyAnswer)
    (allocations : SqlAnswer NestAllocation) (endpoints : SqlAnswer NestEndpointRow)
    (committed : Bool) (before : ActiveAllocations) :
    Replaces numeric now (nestRows crates ready allocations endpoints) before
      (syncFromNest crates numeric now ready allocations endpoints committed before) := by
  rw [syncFromNest, nestRows]
  cases nestAllocations ready allocations with
  | none => exact ⟨.inr ⟨rfl, rfl⟩⟩
  | some active =>
    exact ⟨(replaceAll_cases committed _ before).imp_left fun held => ⟨held.1, _, rfl, held.2⟩⟩

/-- A sync from the gateway replaces the allocations by the gateway's rows, or leaves them. -/
theorem replaces_syncOnce (now : Int) (ask : Nat → String → Option Json) (committed : Bool)
    (before : ActiveAllocations) : Replaces numeric now (gatewayRows crates ask) before
      (syncOnce crates numeric now ask committed before) := by
  rw [syncOnce, gatewayRows]
  cases readListing idOf "" (fun length => length ≠ gatewayPageSize)
    (fun page last => allocationsPage (ask page last))
    (fun rows a => rows ++ (allocationRow crates a).toList) allocationPages [] with
  | none => exact ⟨.inr ⟨rfl, rfl⟩⟩
  | some rows =>
    dsimp only
    by_cases empty : rows = []
    · rw [if_pos empty]
      exact ⟨.inr ⟨rfl, rfl⟩⟩
    · have kept : (some rows).filter (fun rows => decide (rows ≠ [])) = some rows := by simp [empty]
      rw [if_neg empty, kept]
      exact ⟨(replaceAll_cases committed rows before).imp_left fun held => ⟨held.1, _, rfl, held.2⟩⟩

private theorem lowered_nestRows {ready : ReadyAnswer} {allocations : SqlAnswer NestAllocation}
    {endpoints : SqlAnswer NestEndpointRow} {list : List AllocationRow}
    (listed : nestRows crates ready allocations endpoints = some list) :
    ∀ row ∈ list, ∃ text, row.indexer = crates.lowercase text := by
  obtain ⟨active, -, rfl⟩ := Option.map_eq_some_iff.mp listed
  intro row member
  obtain ⟨a, -, rfl⟩ := List.mem_map.mp member
  exact ⟨a.indexer, rfl⟩

private theorem lowered_gatewayRows {ask : Nat → String → Option Json} {list : List AllocationRow}
    (listed : gatewayRows crates ask = some list) :
    ∀ row ∈ list, ∃ text, row.indexer = crates.lowercase text := by
  refine readPages_preserves
    (fun list : List AllocationRow => ∀ row ∈ list, ∃ text, row.indexer = crates.lowercase text)
    (fun rows a held row member => ?_) (by simp) (Option.filter_eq_some_iff.mp listed).1
  rcases List.mem_append.mp member with old | new
  · exact held row old
  · rw [Option.mem_toList] at new
    simp only [allocationRow, Option.bind_eq_bind, Option.bind_eq_some_iff, Option.some.injEq] at new
    obtain ⟨_, _, indexer, _, _, _, rfl⟩ := new
    exact ⟨indexer, rfl⟩

/-- Replacing the allocations keeps the state sound. -/
theorem sound_replace (sound : state.Sound crates numeric) {now : Int}
    {rows : Option (List AllocationRow)} {result : ActiveAllocations × Option Nat}
    (replaces : Replaces numeric now rows state.allocations result)
    (lowered : ∀ list, rows = some list → ∀ row ∈ list, ∃ text, row.indexer = crates.lowercase text) :
    PayState.Sound crates numeric { state with
      allocations := result.1
      listing := keepListing result rows state.listing } := by
  rcases replaces.cases with ⟨counts, list, rfl, stored⟩ | ⟨fails, same⟩
  · refine ⟨⟨now, ?_⟩, ?_, sound.balances⟩
    · simpa [keepListing, counts] using stored
    · simpa [keepListing, counts] using lowered list rfl
  · refine ⟨?_, ?_, sound.balances⟩
    · simpa [keepListing, fails, same] using sound.listed
    · simpa [keepListing, fails] using sound.lowered

/-- Checking a balance keeps the state sound. -/
theorem sound_checkNext (sound : state.Sound crates numeric) (cfg : EscrowConfig)
    (rpc : Json → Option Json) (stored : Bool) (now : Int) :
    (checkNext crates cfg rpc stored now state).Sound crates numeric := by
  rw [checkNext]
  split
  · exact sound
  · rename_i indexer rest _
    have moved (rest : List String) : PayState.Sound crates numeric { state with unchecked := rest } :=
      ⟨sound.listed, sound.lowered, sound.balances⟩
    split
    · exact moved rest
    · split
      · exact moved rest
      · split
        · refine ⟨sound.listed, sound.lowered, fun other => ?_⟩
          rw [Table.lookup_upsert, lastUnder_concat]
          by_cases own : other = indexer
          · rw [if_pos own, if_pos own.symm]
            cases state.escrow.lookup other <;> rfl
          · rw [if_neg own, if_neg (Ne.symm own)]
            exact sound.balances other
        · exact moved []

/-- Every step keeps the state sound. -/
theorem sound_payStep (sound : state.Sound crates numeric) (event : PayEvent) :
    (payStep crates numeric state event).Sound crates numeric := by
  cases event with
  | nest ready allocations endpoints committed now =>
    exact sound_replace sound (replaces_syncFromNest now ready allocations endpoints committed _)
      fun _ => lowered_nestRows
  | gateway ask committed now =>
    exact sound_replace sound (replaces_syncOnce now ask committed _) fun _ => lowered_gatewayRows
  | begins order => exact ⟨sound.listed, sound.lowered, sound.balances⟩
  | checks cfg rpc stored now => exact sound_checkNext sound cfg rpc stored now
  | restart => exact ⟨sound.listed, sound.lowered, sound.balances⟩

private theorem sound_payRun (sound : state.Sound crates numeric) (events : List PayEvent) :
    (payRun crates numeric state events).Sound crates numeric :=
  List.foldlRecOn events (payStep crates numeric) sound fun _ held event _ => sound_payStep held event

private theorem sound_empty : PayState.empty.Sound crates numeric where
  listed := ⟨0, rfl⟩
  lowered := by simp [PayState.empty]
  balances := by simp [PayState.empty, lastUnder]

/-- What is stored of a listing stands in it. -/
theorem exists_of_insertRows {now : Int} {rows : List AllocationRow}
    {before after : ActiveAllocations}
    (stored : rows.foldlM (insertRow numeric now) before = some after) {new : ActiveAllocation}
    (member : new ∈ after) : new ∈ before ∨ ∃ row ∈ rows, row.stored numeric now = some new := by
  induction rows generalizing before with
  | nil => exact .inl (Option.some.inj stored ▸ member)
  | cons row rest ih =>
    rw [List.foldlM_cons] at stored
    obtain ⟨table, inserted, folded⟩ := Option.bind_eq_some_iff.mp stored
    obtain ⟨own, cast, rfl⟩ := Option.map_eq_some_iff.mp inserted
    rcases ih folded with held | ⟨other, later, same⟩
    · rcases Table.mem_upsert.mp held with ⟨old, -⟩ | ⟨_, _, _, rfl⟩ | ⟨-, rfl⟩
      · exact .inl old
      · exact .inr ⟨row, List.mem_cons_self, cast⟩
      · exact .inr ⟨row, List.mem_cons_self, cast⟩
    · exact .inr ⟨other, List.mem_cons_of_mem _ later, same⟩

private theorem fields_of_stored {now : Int} {row : AllocationRow} {new : ActiveAllocation}
    (stored : row.stored numeric now = some new) :
    new.target = ⟨row.id, row.indexer, row.dep, row.url⟩ := by
  obtain ⟨tokens, -, rfl⟩ := Option.map_eq_some_iff.mp stored
  rfl

/-- An indexer may be paid for an allocation: it has somewhere to ask, the balance that was written
last is positive, and nobody spelled it among the excluded. -/
structure MayPay (crates : Crates) (excluded : List String) (state : PayState) (row : AllocationRow) :
    Prop where
  url : ∃ url, row.url = some url ∧ url ≠ ""
  funded : ∃ wei, lastUnder Prod.fst row.indexer state.checked = some (row.indexer, wei) ∧ 0 < wei
  included : ∀ e ∈ excluded, crates.lowercase e ≠ row.indexer

/-- In a sound state an indexer counts as funded when its last check read a balance. -/
theorem isFunded_iff (sound : state.Sound crates numeric) {indexer : String} :
    state.escrow.isFunded indexer ↔
      ∃ wei, lastUnder Prod.fst indexer state.checked = some (indexer, wei) ∧ 0 < wei := by
  have balance := sound.balances indexer
  rw [EscrowTable.isFunded]
  cases found : state.escrow.lookup indexer with
  | none =>
    rw [found, Option.map_none] at balance
    have never := Option.map_eq_none_iff.mp balance.symm
    simp [never]
  | some row =>
    rw [found, Option.map_some] at balance
    obtain ⟨entry, last, same⟩ := Option.map_eq_some_iff.mp balance.symm
    have named := (mem_of_lastUnder last).2
    rw [last]
    simp [Prod.ext_iff, named, same]

/-- In a sound state a stored row is payable exactly when it may be paid. -/
theorem isPayable_iff (sound : state.Sound crates numeric) {excluded : List String} {now : Int}
    {row : AllocationRow} {new : ActiveAllocation} (stored : row.stored numeric now = some new) :
    isPayable state.escrow (excluded.map crates.lowercase) new ↔ MayPay crates excluded state row := by
  obtain ⟨tokens, -, rfl⟩ := Option.map_eq_some_iff.mp stored
  have url : row.url.any (· ≠ "") = true ↔ ∃ url, row.url = some url ∧ url ≠ "" := by
    cases row.url <;> simp
  have included : (!decide (row.indexer ∈ excluded.map crates.lowercase)) = true ↔
      ∀ e ∈ excluded, crates.lowercase e ≠ row.indexer := by simp
  rw [isPayable, Bool.and_eq_true, Bool.and_eq_true, url, isFunded_iff sound, included]
  exact ⟨fun held => ⟨held.1.1, held.1.2, held.2⟩, fun held => ⟨⟨held.url, held.funded⟩, held.included⟩⟩

private theorem mem_payableRows {order : IterOrder ActiveAllocation} {excluded : List String}
    {chosen : ActiveAllocation → Bool} {new : ActiveAllocation} :
    new ∈ payableRows crates order excluded state chosen ↔ new ∈ state.allocations ∧ chosen new ∧
      isPayable state.escrow (excluded.map crates.lowercase) new := by
  rw [payableRows, List.mem_mergeSort, IterOrder.mem_arrange, List.mem_filter, Bool.and_eq_true,
    Table.mem_rows]

/-- Whoever is a target stands in the last listing for the deployment, and may be paid. -/
theorem mayPay_of_target (sound : state.Sound crates numeric) {order : IterOrder ActiveAllocation}
    {deploymentId : String} {excluded : List String} {target : PayableTarget}
    (member : target ∈ payableTargetsForDeployment crates order deploymentId excluded state) :
    ∃ row ∈ state.listing, target = ⟨row.id, row.indexer, row.dep, row.url⟩ ∧ row.dep = deploymentId ∧
      MayPay crates excluded state row := by
  obtain ⟨new, selected, rfl⟩ := List.mem_map.mp member
  obtain ⟨active, chosen, payable⟩ := mem_payableRows.mp selected
  obtain ⟨now, listed⟩ := sound.listed
  rcases exists_of_insertRows listed active with none | ⟨row, among, stored⟩
  · exact absurd none (Table.not_mem_empty new)
  · have fields := fields_of_stored stored
    refine ⟨row, among, fields, ?_, (isPayable_iff sound stored).mp payable⟩
    have same := congrArg PayableTarget.deploymentId fields
    exact same.symm.trans (of_decide_eq_true chosen)

/-- With one row for each allocation in the listing, it is the other way round too. -/
theorem target_of_mayPay (sound : state.Sound crates numeric) (order : IterOrder ActiveAllocation)
    {excluded : List String} (distinct : (state.listing.map AllocationRow.id).Nodup)
    {row : AllocationRow} (listed : row ∈ state.listing) (may : MayPay crates excluded state row) :
    ⟨row.id, row.indexer, row.dep, row.url⟩ ∈
      payableTargetsForDeployment crates order row.dep excluded state := by
  obtain ⟨now, inserted⟩ := sound.listed
  have rows := (insertAll_eq_some_iff distinct).mp inserted
  obtain ⟨index, inside, rfl⟩ := List.mem_iff_getElem.mp listed
  have there : index < state.allocations.rows.length := rows.length_eq ▸ inside
  have stored := (List.forall₂_iff_get.mp rows).2 index inside there
  have fields := fields_of_stored stored
  simp only [List.get_eq_getElem] at stored fields
  rw [← fields]
  refine List.mem_map_of_mem (mem_payableRows.mpr ⟨List.getElem_mem there, decide_eq_true ?_, ?_⟩)
  · exact congrArg PayableTarget.deploymentId fields
  · exact (isPayable_iff sound stored).mpr may

end Reached

section Rounds

/-- Whatever the loops did before each probe, what a round pays for was listed last, for that
deployment, has somewhere to ask, was funded when it was asked about last, and is not excluded. -/
theorem paid_mayPay {world : RoundWorld} {config : RoundConfig} {paidClient : Option Nat}
    {numeric : String → Option ℚ} {number : Nat} {input : ProbeInput}
    (events : List PayEvent) (order : IterOrder ActiveAllocation)
    (reads : ∀ targets, world.payableTargets number input.deployment.ipfsHash
        config.tap.excludedIndexers = some targets →
      targets = payableTargetsForDeployment world.crates order input.deployment.ipfsHash
        config.tap.excludedIndexers (payRun world.crates numeric .empty events))
    {target : PayableTarget} (paid : target ∈ paidTargets world config paidClient number input) :
    ∃ row ∈ (payRun world.crates numeric .empty events).listing,
      target = ⟨row.id, row.indexer, row.dep, row.url⟩ ∧ row.dep = input.deployment.ipfsHash ∧
      MayPay world.crates config.tap.excludedIndexers (payRun world.crates numeric .empty events)
        row := by
  unfold paidTargets at paid
  cases client : paidClient with
  | none =>
    rw [client] at paid
    cases paid
  | some maxTargets =>
    rw [client] at paid
    have member := List.mem_of_mem_take paid
    cases answer : world.payableTargets number input.deployment.ipfsHash
        config.tap.excludedIndexers with
    | none =>
      rw [answer] at member
      cases member
    | some targets =>
      rw [answer, Option.getD_some, reads targets answer] at member
      exact mayPay_of_target (sound_payRun sound_empty events) member

/-- An allocation of an indexer that has a balance, and a pass over both. -/
def fundedRow : AllocationRow where
  id := "0xa1"
  indexer := "0xb1"
  dep := "Qm"
  url := some "https://indexer"
  tokens := none

def fundedListing (_ : Nat) (_ : String) : Option Json :=
  some (entityBody "allocations" [.object [("id", .string fundedRow.id),
    ("indexer", .object [("id", .string fundedRow.indexer), ("url", .string "https://indexer")]),
    ("subgraphDeployment", .object [("ipfsHash", .string fundedRow.dep)])]])

def fundedEscrow : EscrowConfig := { payingConfig.tap with escrow := "0xe5" }

def fundedNode (_ : Json) : Option Json := some (.object [("result", .string "0x05")])

def fundedPass : List PayEvent :=
  [.gateway fundedListing true 0, .begins .asInserted,
    .checks fundedEscrow fundedNode true 0]

def fundedState : PayState := payRun payableWorld.crates (fun _ => none) .empty fundedPass

def fundedWorld : RoundWorld :=
  { payableWorld with
    payableTargets := fun _ deploymentId excluded =>
      some (payableTargetsForDeployment payableWorld.crates .asInserted deploymentId excluded fundedState) }

private theorem listing_fundedState : fundedState.listing = [fundedRow] := rfl

private theorem mayPay_fundedRow : MayPay payableWorld.crates [] fundedState fundedRow where
  url := ⟨_, rfl, by decide⟩
  funded := ⟨5, rfl, by decide⟩
  included := by simp

def fundedTarget : PayableTarget := ⟨fundedRow.id, fundedRow.indexer, fundedRow.dep, fundedRow.url⟩

def fundedInput : ProbeInput where
  deployment := oneQuerySet.deployment
  blockNumber := 100
  blockHash := "0xb"
  query := ⟨"Q_entity", "query", []⟩
  entityId := none

/-- The round after the pass pays for the allocation. -/
theorem fundedTarget_paid :
    fundedTarget ∈ paidTargets fundedWorld payingConfig (some 8) 0 fundedInput := by
  have sound : fundedState.Sound payableWorld.crates fun _ => none := sound_payRun sound_empty fundedPass
  have target := target_of_mayPay sound .asInserted (listing_fundedState ▸ List.nodup_singleton _)
    (listing_fundedState ▸ List.mem_cons_self) mayPay_fundedRow
  have few : (payableTargetsForDeployment payableWorld.crates .asInserted fundedRow.dep []
      fundedState).length ≤ 8 := by
    simp only [payableTargetsForDeployment, payableRows, List.length_map, List.length_mergeSort,
      IterOrder.length_arrange]
    exact (List.length_filter_le _ _).trans (by decide)
  change fundedTarget ∈ (payableTargetsForDeployment payableWorld.crates .asInserted fundedRow.dep []
    fundedState).take 8
  rw [List.take_of_length_le few]
  exact target

/-- The funded target belongs to a listed row that may be paid. -/
theorem paid_mayPay_fundedTarget : ∃ row ∈ fundedState.listing,
    fundedTarget = ⟨row.id, row.indexer, row.dep, row.url⟩ ∧ row.dep = "Qm" ∧
      MayPay payableWorld.crates [] fundedState row :=
  paid_mayPay fundedPass .asInserted (fun _ answer => (Option.some.inj answer).symm) fundedTarget_paid

end Rounds

section Passes

/-- What may happen while a pass over the balances is on its way. -/
def PayEvent.InPass (cfg : EscrowConfig) (rpc : Json → Option Json) : PayEvent → Prop
  | .nest .. => True
  | .gateway .. => True
  | .checks other node stored _ => other = cfg ∧ node = rpc ∧ stored
  | .begins _ => False
  | .restart => False

variable {crates : Crates} {numeric : String → Option ℚ} {state : PayState} {cfg : EscrowConfig}
  {rpc : Json → Option Json} {indexer : String} {wei : Nat}

/-- An indexer that a pass has asked about, or has still to ask about. -/
def Passed (state : PayState) (indexer : String) (wei : Nat) : Prop :=
  indexer ∈ state.unchecked ∨ lastUnder Prod.fst indexer state.checked = some (indexer, wei)

private theorem passed_checkNext (kept : cfg.skips indexer = false)
    (read : readBalance (rpc (balanceBody crates cfg indexer)) = some wei)
    (passed : Passed state indexer wei) (now : Int) :
    Passed (checkNext crates cfg rpc true now state) indexer wei := by
  rw [checkNext]
  split
  · exact passed
  · rename_i next rest unchecked
    rw [Passed, unchecked] at passed
    by_cases own : next = indexer
    · subst own
      rw [if_neg (by simp [kept]), read]
      exact .inr (lastUnder_concat _ |>.trans (if_pos rfl))
    · have later : indexer ∈ rest ∨
          lastUnder Prod.fst indexer state.checked = some (indexer, wei) :=
        passed.imp_left fun member => (List.mem_cons.mp member).resolve_left (Ne.symm own)
      split
      · exact later
      · split
        · exact later
        · exact later.imp_right fun last => (lastUnder_concat _).trans ((if_neg own).trans last)

private theorem passed_payStep (kept : cfg.skips indexer = false)
    (read : readBalance (rpc (balanceBody crates cfg indexer)) = some wei)
    (passed : Passed state indexer wei) {event : PayEvent} (inside : event.InPass cfg rpc) :
    Passed (payStep crates numeric state event) indexer wei := by
  cases event with
  | nest ready allocations endpoints committed now => exact passed
  | gateway ask committed now => exact passed
  | begins order => cases inside
  | checks other node stored now =>
    obtain ⟨rfl, rfl, rfl⟩ := inside
    exact passed_checkNext kept read passed now
  | restart => cases inside

/-- Events of one pass keep an indexer passed once its balance was read. -/
theorem passed_payRun (kept : cfg.skips indexer = false)
    (read : readBalance (rpc (balanceBody crates cfg indexer)) = some wei) {events : List PayEvent}
    (inside : ∀ event ∈ events, event.InPass cfg rpc) (passed : Passed state indexer wei) :
    Passed (payRun crates numeric state events) indexer wei := by
  induction events generalizing state with
  | nil => exact passed
  | cons event rest ih =>
    exact ih (fun other member => inside other (List.mem_cons_of_mem _ member))
      (passed_payStep kept read passed (inside event List.mem_cons_self))

/-- The indexers to check are those with an allocation that has a URL. -/
theorem mem_indexersToCheck {order : IterOrder String} {allocations : ActiveAllocations} :
    indexer ∈ indexersToCheck order allocations ↔
      ∃ row ∈ allocations, row.indexerUrl.isSome ∧ row.indexerAddress = indexer := by
  simp only [indexersToCheck, IterOrder.mem_arrange, List.mem_dedup, List.mem_map, List.mem_filter,
    Table.mem_rows, and_assoc]

/-- After a whole pass, an indexer that it could ask about is paid for what the last listing has of
it exactly when its balance is positive, there is somewhere to ask, and it is not excluded. Before
the pass anything may have happened, and on its way the listing may have been replaced. -/
theorem payable_after_pass (history : List PayEvent) (order : IterOrder String)
    (rows : IterOrder ActiveAllocation) {events : List PayEvent}
    (inside : ∀ event ∈ events, event.InPass cfg rpc) {before final : PayState}
    (start : before = payRun crates numeric .empty history)
    (ends : final = payRun crates numeric (payStep crates numeric before (.begins order)) events)
    (done : final.unchecked = []) (distinct : (final.listing.map AllocationRow.id).Nodup)
    {row : AllocationRow} (listed : row ∈ final.listing)
    (asked : ∃ old ∈ before.allocations, old.indexerUrl.isSome ∧ old.indexerAddress = row.indexer)
    (kept : cfg.skips row.indexer = false)
    (read : readBalance (rpc (balanceBody crates cfg row.indexer)) = some wei)
    (excluded : List String) :
    ⟨row.id, row.indexer, row.dep, row.url⟩ ∈
        payableTargetsForDeployment crates rows row.dep excluded final ↔
      (∃ url, row.url = some url ∧ url ≠ "") ∧ 0 < wei ∧
        ∀ e ∈ excluded, crates.lowercase e ≠ row.indexer := by
  subst start ends
  generalize reached : payRun crates numeric (payStep crates numeric
    (payRun crates numeric .empty history) (.begins order)) events = final at *
  have sound : final.Sound crates numeric :=
    reached ▸ sound_payRun (sound_payStep (sound_payRun sound_empty history) (.begins order)) events
  have passed : Passed final row.indexer wei := by
    rw [← reached]
    exact passed_payRun kept read inside (.inl (mem_indexersToCheck.mpr asked))
  have last := passed.resolve_left (by simp [done])
  constructor
  · intro member
    obtain ⟨other, among, same, -, may⟩ := mayPay_of_target sound member
    have address : row.indexer = other.indexer := congrArg PayableTarget.indexerAddress same
    have url : row.url = other.url := congrArg PayableTarget.indexerUrl same
    obtain ⟨funds, recorded, positive⟩ := may.funded
    rw [← address, last] at recorded
    obtain rfl : wei = funds := congrArg Prod.snd (Option.some.inj recorded)
    exact ⟨url ▸ may.url, positive, address ▸ may.included⟩
  · rintro ⟨url, positive, included⟩
    exact target_of_mayPay sound rows distinct listed ⟨url, ⟨wei, last, positive⟩, included⟩

private theorem inPass_funded : ∀ event ∈ [PayEvent.checks fundedEscrow fundedNode true 0],
    event.InPass fundedEscrow fundedNode := by
  simp [PayEvent.InPass]

/-- After the funded pass its row is payable, as its URL and its balance say. -/
theorem payable_after_pass_funded :
    ⟨fundedRow.id, fundedRow.indexer, fundedRow.dep, fundedRow.url⟩ ∈
        payableTargetsForDeployment payableWorld.crates .asInserted fundedRow.dep [] fundedState ↔
      (∃ url, fundedRow.url = some url ∧ url ≠ "") ∧ 0 < 5 ∧
        ∀ e ∈ ([] : List String), payableWorld.crates.lowercase e ≠ fundedRow.indexer :=
  payable_after_pass [.gateway fundedListing true 0] .asInserted .asInserted inPass_funded rfl rfl rfl
    (listing_fundedState ▸ List.nodup_singleton _) (listing_fundedState ▸ List.mem_cons_self)
    ⟨_, .head _, rfl, rfl⟩ rfl rfl []

end Passes

end Foghorn.Probe
