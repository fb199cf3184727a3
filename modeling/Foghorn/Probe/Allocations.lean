import Mathlib.Data.String.Basic
import Foghorn.Std.Paging
import Foghorn.Std.Collections
import Foghorn.Probe.Nest

/-!
# Replacing the active allocations

The table is replaced in one transaction by what the nest or the gateway lists. A pass that
fails leaves it alone. A pass that was answered in part does not always fail: without the
endpoints the nest's allocations lose their URLs, and a listing of the gateway that breaks off
at a page without a list, or at the cap, replaces the table by its beginning.
-/

namespace Foghorn.Probe

open Foghorn.Std Foghorn.Core

/-- `active_allocation`. -/
structure ActiveAllocation where
  allocationId : String
  indexerAddress : String
  deploymentId : String
  indexerUrl : Option String
  allocatedTokens : Option ℚ
  refreshedAt : Int

abbrev ActiveAllocations := Table ActiveAllocation String ActiveAllocation.allocationId

/-- What a pass binds to the insert of an allocation. -/
structure AllocationRow where
  id : String
  indexer : String
  dep : String
  url : Option String
  tokens : Option String

/-- A commit leaves exactly the complete table, and nothing else is ever left than the old one. -/
def AllOrNothing (complete : Option ActiveAllocations) (before after : ActiveAllocations) : Prop :=
  after = before ∨ complete = some after

section Replace

variable (numeric : String → Option ℚ) (now : Int)

/-- The row that is stored, if the tokens cast to `numeric`. -/
def AllocationRow.stored (row : AllocationRow) : Option ActiveAllocation :=
  (castNullable numeric row.tokens).map fun tokens =>
    ⟨row.id, row.indexer, row.dep, row.url, tokens, now⟩

/-- `INSERT .. ON CONFLICT (allocation_id) DO UPDATE`. -/
def insertRow (table : ActiveAllocations) (row : AllocationRow) : Option ActiveAllocations :=
  (row.stored numeric now).map fun new => table.upsert new (fun _ => new) fun _ _ => rfl

/-- The table after the delete and the inserts, unless one of them fails. -/
def insertAll (rows : List AllocationRow) : Option ActiveAllocations :=
  rows.foldlM (insertRow numeric now) Table.empty

/-- The transaction that replaces the table, and the number of rows unless it fails. -/
def replaceAll (committed : Bool) (rows : List AllocationRow) (before : ActiveAllocations) :
    ActiveAllocations × Option Nat :=
  match insertAll numeric now rows with
  | some after => if committed then (after, some rows.length) else (before, none)
  | none => (before, none)

variable {numeric now} {rows : List AllocationRow}

private theorem id_of_stored {row : AllocationRow} {new : ActiveAllocation}
    (stored : row.stored numeric now = some new) : new.allocationId = row.id := by
  obtain ⟨tokens, -, rfl⟩ := Option.map_eq_some_iff.mp stored
  rfl

/-- A row is not stored exactly when its tokens are no `NUMERIC`. -/
theorem stored_eq_none_iff {row : AllocationRow} :
    row.stored numeric now = none ↔ castNullable numeric row.tokens = none := by
  rw [AllocationRow.stored, Option.map_eq_none_iff]

/-- Inserts under new ids append their rows. -/
theorem rows_insertRows (distinct : (rows.map AllocationRow.id).Nodup) {table : ActiveAllocations}
    (free : ∀ row ∈ rows, ¬ table.holds row.id) :
    (rows.foldlM (insertRow numeric now) table).map Table.rows =
      (rows.mapM (AllocationRow.stored numeric now)).map (table.rows ++ ·) := by
  induction rows generalizing table with
  | nil => simp
  | cons row rest ih =>
    rw [List.map_cons, List.nodup_cons] at distinct
    rw [List.foldlM_cons, List.mapM_cons, insertRow]
    cases stored : row.stored numeric now with
    | none => rfl
    | some new =>
      have id := id_of_stored stored
      have unheld : ¬ table.holds new.allocationId := id ▸ free row List.mem_cons_self
      have still : ∀ other ∈ rest,
          ¬ (table.upsert new (fun _ => new) fun _ _ => rfl).holds other.id := by
        intro other member held
        rcases Table.holds_upsert.mp held with old | same
        · exact free other (List.mem_cons_of_mem _ member) old
        · exact distinct.1 (List.mem_map.mpr ⟨other, member, same.trans id⟩)
      refine (ih distinct.2 still).trans ?_
      rw [Table.rows_upsert_of_free unheld]
      cases rest.mapM (AllocationRow.stored numeric now) <;> simp

/-- Distinct allocations are stored as they are listed. -/
theorem rows_insertAll (distinct : (rows.map AllocationRow.id).Nodup) :
    (insertAll numeric now rows).map Table.rows = rows.mapM (AllocationRow.stored numeric now) := by
  rw [insertAll, rows_insertRows distinct fun row _ held => absurd held (by simp [Table.holds])]
  simp

/-- What a replacement of distinct allocations leaves. -/
theorem insertAll_eq_some_iff (distinct : (rows.map AllocationRow.id).Nodup)
    {table : ActiveAllocations} : insertAll numeric now rows = some table ↔
      List.Forall₂ (fun row new => row.stored numeric now = some new) rows table.rows := by
  rw [← mapM_eq_some_iff, ← rows_insertAll distinct, Option.map_eq_some_iff]
  constructor
  · intro held
    exact ⟨table, held, rfl⟩
  · rintro ⟨other, held, same⟩
    obtain ⟨_, _⟩ := other
    obtain ⟨_, _⟩ := table
    cases same
    exact held

/-- It fails at an amount that does not cast. -/
theorem insertAll_eq_none_iff (distinct : (rows.map AllocationRow.id).Nodup) :
    insertAll numeric now rows = none ↔ ∃ row ∈ rows, castNullable numeric row.tokens = none := by
  rw [← Option.map_eq_none_iff, rows_insertAll distinct, mapM_eq_none_iff]
  simp only [stored_eq_none_iff]

/-- A pass that replaces the table by `rows`, where the listing has `whole`, is all or nothing
exactly when the transaction fails, an amount does not cast, or the tables are the same. -/
theorem replaceAll_allOrNothing_iff {whole : List AllocationRow} {committed : Bool}
    (distinct : (rows.map AllocationRow.id).Nodup) (occupied : rows ≠ []) :
    (∀ before, AllOrNothing (insertAll numeric now whole) before
        (replaceAll numeric now committed rows before).1) ↔
      (committed = true → (∀ row ∈ rows, castNullable numeric row.tokens ≠ none) →
        insertAll numeric now whole = insertAll numeric now rows) := by
  cases stored : insertAll numeric now rows with
  | none =>
    refine iff_of_true (fun before => .inl (by rw [replaceAll, stored])) fun _ casts => ?_
    obtain ⟨row, member, fails⟩ := (insertAll_eq_none_iff distinct).mp stored
    exact absurd fails (casts row member)
  | some table =>
    have casts : ∀ row ∈ rows, castNullable numeric row.tokens ≠ none := by
      intro row member fails
      rw [(insertAll_eq_none_iff distinct).mpr ⟨row, member, fails⟩] at stored
      cases stored
    cases committed with
    | false => exact iff_of_true (fun before => .inl (by rw [replaceAll, stored]; rfl)) (by simp)
    | true =>
      have after (before : ActiveAllocations) :
          (replaceAll numeric now true rows before).1 = table := by rw [replaceAll, stored]; rfl
      simp only [after, true_implies]
      constructor
      · intro sound _
        refine (sound Table.empty).resolve_left fun same => ?_
        -- The table that is written has a row.
        have length := ((insertAll_eq_some_iff distinct).mp stored).length_eq
        rw [same] at length
        exact occupied (List.length_eq_zero_iff.mp length)
      · intro same before
        exact .inr (same casts)

end Replace

section Nest

variable (crates : Crates) (numeric : String → Option ℚ) (now : Int)

def nestRow (endpoints : Table (String × String) String Prod.fst) (a : NestAllocation) :
    AllocationRow :=
  let indexer := crates.lowercase a.indexer
  ⟨crates.lowercase a.allocationId, indexer, a.deploymentId,
    (endpoints.lookup indexer).map Prod.snd, a.tokens⟩

def syncFromNest (ready : ReadyAnswer) (allocations : SqlAnswer NestAllocation)
    (endpoints : SqlAnswer NestEndpointRow) (committed : Bool) (before : ActiveAllocations) :
    ActiveAllocations × Option Nat :=
  match nestAllocations ready allocations with
  | none => (before, none)
  | some active =>
    let urls := mapOfPairs ((nestEndpoints crates endpoints).getD [])
    replaceAll numeric now committed (active.map (nestRow crates urls)) before

/-- The allocation set and the registrations of a nest. -/
structure NestListing where
  allocations : List NestAllocation
  registrations : List NestEndpointRow
  distinct : (allocations.map fun a => crates.lowercase a.allocationId).Nodup

/-- What comes of a query for `rows`: all of them, or a failure. -/
structure SqlReply {Row : Type} (rows : List Row) where
  answer : SqlAnswer Row
  whole : ∀ shown, answer.sql = some shown → shown = rows

/-- A nest that may be asked for allocations. -/
def ReadyAnswer.Current (ready : ReadyAnswer) : Prop :=
  ∃ lag, ready.lagBlocks = some lag ∧ lag ≤ maxLagBlocks

namespace NestListing

variable {crates} (listing : NestListing crates)

def urls : Table (String × String) String Prod.fst :=
  mapOfPairs (listing.registrations.filterMap (NestEndpointRow.endpoint crates))

def active : List NestAllocation :=
  listing.allocations.map fun a => { a with deploymentId := normaliseDeploymentId a.deploymentId }

/-- The rows of the complete answers. -/
def rows : List AllocationRow := listing.active.map (nestRow crates listing.urls)

end NestListing

variable {crates numeric now}

/-- The nest lists allocations when it is current and its answer has rows. -/
theorem nestAllocations_eq_some_iff {ready : ReadyAnswer} {answer : SqlAnswer NestAllocation}
    {active : List NestAllocation} : nestAllocations ready answer = some active ↔
      ready.Current ∧ ∃ rows, answer.sql = some rows ∧ rows ≠ [] ∧
        rows.map (fun a => { a with deploymentId := normaliseDeploymentId a.deploymentId }) =
          active := by
  simp only [nestAllocations, ReadyAnswer.Current, Option.bind_eq_bind, Option.bind_eq_some_iff]
  constructor
  · rintro ⟨lag, told, holds⟩
    split at holds
    · cases holds
    · next near =>
      obtain ⟨rows, answered, holds⟩ := Option.bind_eq_some_iff.mp holds
      split at holds
      · cases holds
      · next occupied => exact ⟨⟨lag, told, not_lt.mp near⟩, rows, answered, occupied, by simpa using holds⟩
  · rintro ⟨⟨lag, told, near⟩, rows, answered, occupied, rfl⟩
    refine ⟨lag, told, ?_⟩
    rw [if_neg (not_lt.mpr near), answered]
    simp [occupied]

/-- The nest's rows have distinct allocation ids. -/
theorem distinct_nestRows (listing : NestListing crates)
    (urls : Table (String × String) String Prod.fst) :
    ((listing.active.map (nestRow crates urls)).map AllocationRow.id).Nodup := by
  have ids : (listing.active.map (nestRow crates urls)).map AllocationRow.id =
      listing.allocations.map fun a => crates.lowercase a.allocationId := by
    rw [NestListing.active, List.map_map, List.map_map]
    rfl
  exact ids ▸ listing.distinct

/-- The replacement without endpoints is the complete one when no allocation has one. -/
theorem insertAll_without_endpoints_iff {listing : NestListing crates}
    (casts : ∀ a ∈ listing.allocations, castNullable numeric a.tokens ≠ none) :
    insertAll numeric now listing.rows =
        insertAll numeric now (listing.active.map (nestRow crates Table.empty)) ↔
      ∀ a ∈ listing.allocations, listing.urls.lookup (crates.lowercase a.indexer) = none := by
  constructor
  · intro same a member
    cases stored : insertAll numeric now (listing.active.map (nestRow crates Table.empty)) with
    | none =>
      obtain ⟨row, listed, fails⟩ := (insertAll_eq_none_iff (distinct_nestRows listing _)).mp stored
      simp only [NestListing.active, List.map_map, List.mem_map] at listed
      obtain ⟨other, there, rfl⟩ := listed
      exact absurd fails (casts other there)
    | some table =>
      rw [stored] at same
      have whole := (insertAll_eq_some_iff (distinct_nestRows listing _)).mp same
      have bare := (insertAll_eq_some_iff (distinct_nestRows listing _)).mp stored
      rw [NestListing.active, List.map_map, List.forall₂_map_left_iff] at whole bare
      obtain ⟨new, first, second⟩ := exists_of_forall₂_forall₂ whole bare member
      obtain ⟨tokens, -, rfl⟩ := Option.map_eq_some_iff.mp first
      obtain ⟨_, -, written⟩ := Option.map_eq_some_iff.mp second
      have url := congrArg ActiveAllocation.indexerUrl written
      exact Option.map_eq_none_iff.mp url.symm
  · intro without
    congr 1
    rw [NestListing.rows, NestListing.active, List.map_map, List.map_map]
    refine List.map_congr_left fun a member => ?_
    simp [nestRow, without a member]

/-- Whatever the table was, the pass is all or nothing. -/
def NestPassSound (crates : Crates) (numeric : String → Option ℚ) (now : Int)
    (listing : NestListing crates) (ready : ReadyAnswer) (allocations : SqlReply listing.allocations)
    (endpoints : SqlReply listing.registrations) (committed : Bool) : Prop :=
  ∀ before, AllOrNothing (insertAll numeric now listing.rows) before
    (syncFromNest crates numeric now ready allocations.answer endpoints.answer committed before).1

/-- A transaction that goes through without the endpoints is one of allocations none of which has
an endpoint. -/
def NestPassClean (crates : Crates) (numeric : String → Option ℚ) (listing : NestListing crates)
    (ready : ReadyAnswer) (allocations : SqlReply listing.allocations)
    (endpoints : SqlReply listing.registrations) (committed : Bool) : Prop :=
  committed = true → ready.Current → allocations.answer.sql ≠ none → endpoints.answer.sql = none →
    (∀ a ∈ listing.allocations, castNullable numeric a.tokens ≠ none) →
      ∀ a ∈ listing.allocations, listing.urls.lookup (crates.lowercase a.indexer) = none

/-- A pass from the nest is all or nothing exactly when it does not go on without the endpoints
of active allocations. -/
theorem nestPassSound_iff {listing : NestListing crates} {ready : ReadyAnswer}
    {allocations : SqlReply listing.allocations} {endpoints : SqlReply listing.registrations}
    {committed : Bool} :
    NestPassSound crates numeric now listing ready allocations endpoints committed ↔
      NestPassClean crates numeric listing ready allocations endpoints committed := by
  unfold NestPassSound NestPassClean
  cases answered : nestAllocations ready allocations.answer with
  | none =>
    refine iff_of_true (fun before => .inl (by rw [syncFromNest, answered])) ?_
    intro _ current shown _ _ a member
    obtain ⟨rows, sql⟩ := Option.ne_none_iff_exists'.mp shown
    cases allocations.whole rows sql
    rw [nestAllocations_eq_some_iff.mpr ⟨current, _, sql, List.ne_nil_of_mem member, rfl⟩] at answered
    cases answered
  | some active =>
    obtain ⟨current, rows, sql, occupied, rfl⟩ := nestAllocations_eq_some_iff.mp answered
    cases allocations.whole rows sql
    have pass (before : ActiveAllocations) := congrArg Prod.fst
      (show syncFromNest crates numeric now ready allocations.answer endpoints.answer committed before =
        replaceAll numeric now committed (listing.active.map (nestRow crates
          (mapOfPairs ((nestEndpoints crates endpoints.answer).getD [])))) before by
        rw [syncFromNest, answered]; rfl)
    simp only [pass]
    have held (urls : Table (String × String) String Prod.fst) :
        listing.active.map (nestRow crates urls) ≠ [] := by
      simpa [NestListing.active] using occupied
    rw [replaceAll_allOrNothing_iff (distinct_nestRows listing _) (held _)]
    cases shown : endpoints.answer.sql with
    | some registrations =>
      cases endpoints.whole registrations shown
      have urls : mapOfPairs ((nestEndpoints crates endpoints.answer).getD []) = listing.urls := by
        rw [nestEndpoints, shown]; rfl
      exact iff_of_true (fun _ _ => by rw [urls]; rfl) (by simp)
    | none =>
      have urls : mapOfPairs ((nestEndpoints crates endpoints.answer).getD []) = Table.empty := by
        rw [nestEndpoints, shown]; rfl
      have amounts : (∀ row ∈ listing.active.map (nestRow crates Table.empty),
          castNullable numeric row.tokens ≠ none) ↔
            ∀ a ∈ listing.allocations, castNullable numeric a.tokens ≠ none := by
        simp [NestListing.active, nestRow]
      rw [urls, amounts]
      constructor
      · intro same commits _ _ _ casts
        exact (insertAll_without_endpoints_iff casts).mp (same commits casts)
      · intro without commits casts
        exact (insertAll_without_endpoints_iff casts).mpr
          (without commits current (by rw [sql]; simp) rfl casts)

end Nest

section Gateway

/-- The list that the body of an answer has for an entity. -/
def entityList (entity : String) (v : Json) : Option (List Json) :=
  (v.pointer ["data", entity]).bind Json.asArray

def entityBody (entity : String) (rows : List Json) : Json :=
  .object [("data", .object [(entity, .array rows)])]

@[simp] theorem entityList_entityBody (entity : String) (rows : List Json) :
    entityList entity (entityBody entity rows) = some rows := by
  simp [entityList, entityBody, Json.pointer, Json.get, Json.asArray]

/-- An answer that is not the page asked for: none that parses, or a body without the list. -/
inductive PageFault (entity : String) where
  | unreachable
  | body (v : Json) (unlisted : entityList entity v = none)

/-- `r["id"].as_str().unwrap_or_default()`. -/
def idOf (r : Json) : String := (r.index "id").asStr.getD ""

/-- The answer to a page of a listing, of at most `size` rows. -/
def entityAnswer {entity : String} (listing : Listing idOf "") (size : Nat)
    (fault : Nat → Option (PageFault entity)) (page : Nat) (last : String) : Option Json :=
  match fault page with
  | none => some (entityBody entity (listing.page size last))
  | some .unreachable => none
  | some (.body v _) => some v

/-- Rows of a page of the gateway. -/
def gatewayPageSize : Nat := 1000

/-- Pages that `sync_once` asks for. -/
def allocationPages : Nat := 40

variable (crates : Crates) (numeric : String → Option ℚ) (now : Int)

/-- What `sync_once` keeps of an item of the listing. -/
def allocationRow (a : Json) : Option AllocationRow := do
  let id ← (a.index "id").asStr
  let indexer ← (a.pointer ["indexer", "id"]).bind Json.asStr
  let dep ← (a.pointer ["subgraphDeployment", "ipfsHash"]).bind Json.asStr
  some
    { id := crates.lowercase id
      indexer := crates.lowercase indexer
      dep := dep
      url := (a.pointer ["indexer", "url"]).bind Json.asStr
      tokens := (a.index "allocatedTokens").asStr }

/-- What `sync_once` makes of an answer. -/
def allocationsPage (response : Option Json) : Page Json :=
  match response with
  | none => .fails
  | some v =>
    if (v.get "errors").isSome then .fails
    else
      match entityList "allocations" v with
      | none => .ends
      | some items => if items = [] then .ends else .rows items

def syncOnce (ask : Nat → String → Option Json) (committed : Bool) (before : ActiveAllocations) :
    ActiveAllocations × Option Nat :=
  let listed := readListing idOf "" (fun length => length ≠ gatewayPageSize)
    (fun page last => allocationsPage (ask page last))
    (fun rows a => rows ++ (allocationRow crates a).toList) allocationPages []
  match listed with
  | none => (before, none)
  | some rows =>
    if rows = [] then (before, none) else replaceAll numeric now committed rows before

/-- The active allocations of the network. -/
structure GatewayListing extends Listing idOf "" where
  distinct : (rows.map fun a => crates.lowercase (idOf a)).Nodup

/-- An error object fails a pass of `sync_once`; any other body without the list ends it. -/
def PageFault.allocationsStop : PageFault "allocations" → Stop
  | unreachable => .fails
  | body v _ => if (v.get "errors").isSome then .fails else .ends

variable {crates numeric now}

/-- A page of the gateway is what its listing answers, or the fault it met. -/
theorem allocationsPage_entityAnswer (listing : Listing idOf "")
    (fault : Nat → Option (PageFault "allocations")) (page : Nat) (last : String) :
    allocationsPage (entityAnswer listing gatewayPageSize fault page last) =
      listing.answer gatewayPageSize (fun page => (fault page).map PageFault.allocationsStop) page
        last := by
  rw [entityAnswer, Listing.answer]
  cases fault page with
  | none =>
    have sound : (entityBody "allocations" (listing.page gatewayPageSize last)).get "errors" = none :=
      rfl
    simp [allocationsPage, sound]
  | some faulty =>
    cases faulty with
    | unreachable => rfl
    | body v unlisted =>
      cases errors : (v.get "errors").isSome <;>
        simp [allocationsPage, PageFault.allocationsStop, errors, unlisted]

private theorem foldl_allocationRow (items : List Json) (rows : List AllocationRow) :
    items.foldl (fun rows a => rows ++ (allocationRow crates a).toList) rows =
      rows ++ items.filterMap (allocationRow crates) := by
  induction items generalizing rows with
  | nil => simp
  | cons item rest ih =>
    rw [List.foldl_cons, ih, List.append_assoc]
    cases kept : allocationRow crates item <;> simp [kept]

private theorem id_of_allocationRow {a : Json} {row : AllocationRow}
    (kept : allocationRow crates a = some row) : row.id = crates.lowercase (idOf a) := by
  simp only [allocationRow, Option.bind_eq_bind, Option.bind_eq_some_iff, Option.some.injEq] at kept
  obtain ⟨id, named, _, _, _, _, rfl⟩ := kept
  rw [idOf, named, Option.getD_some]

/-- The gateway's rows have distinct allocation ids. -/
theorem distinct_allocationRows {listing : GatewayListing crates} {items : List Json}
    (part : items.Sublist listing.rows) :
    ((items.filterMap (allocationRow crates)).map AllocationRow.id).Nodup :=
  nodup_map_filterMap (fun _ _ => id_of_allocationRow) (listing.distinct.sublist (part.map _))

/-- Only a listing that goes on with nothing is stored like its beginning. -/
theorem insertAll_append_iff {rows rest : List AllocationRow}
    (distinct : ((rows ++ rest).map AllocationRow.id).Nodup)
    (casts : ∀ row ∈ rows, castNullable numeric row.tokens ≠ none) :
    insertAll numeric now (rows ++ rest) = insertAll numeric now rows ↔ rest = [] := by
  have beginning : (rows.map AllocationRow.id).Nodup := by
    rw [List.map_append] at distinct
    exact distinct.of_append_left
  refine ⟨fun same => ?_, fun nothing => by rw [nothing, List.append_nil]⟩
  cases stored : insertAll numeric now rows with
  | none =>
    obtain ⟨row, member, fails⟩ := (insertAll_eq_none_iff beginning).mp stored
    exact absurd fails (casts row member)
  | some table =>
    have whole := ((insertAll_eq_some_iff distinct).mp (same.trans stored)).length_eq
    have part := ((insertAll_eq_some_iff beginning).mp stored).length_eq
    rw [List.length_append] at whole
    exact List.length_eq_zero_iff.mp (by omega)

/-- What a pass makes of what it has read. -/
theorem syncOnce_eq {listing : GatewayListing crates}
    {fault : Nat → Option (PageFault "allocations")} {committed : Bool} {before : ActiveAllocations} :
    syncOnce crates numeric now (entityAnswer listing.toListing gatewayPageSize fault) committed before =
      match readListing idOf "" (fun length => length ≠ gatewayPageSize)
        (listing.toListing.answer gatewayPageSize
          fun page => (fault page).map PageFault.allocationsStop)
        (fun rows a => rows ++ (allocationRow crates a).toList) allocationPages [] with
      | none => (before, none)
      | some rows =>
        if rows = [] then (before, none) else replaceAll numeric now committed rows before := by
  rw [syncOnce]
  congr 2
  funext page last
  exact allocationsPage_entityAnswer listing.toListing fault page last

private theorem short_gatewayPage (length : Nat) (bound : length ≤ gatewayPageSize) :
    decide (length ≠ gatewayPageSize) = true ↔ length < gatewayPageSize := by
  rw [decide_eq_true_iff]
  omega

/-- Whatever the table was, the pass is all or nothing. -/
def GatewayPassSound (crates : Crates) (numeric : String → Option ℚ) (now : Int)
    (listing : GatewayListing crates) (fault : Nat → Option (PageFault "allocations"))
    (committed : Bool) : Prop :=
  ∀ before, AllOrNothing (insertAll numeric now (listing.rows.filterMap (allocationRow crates)))
    before (syncOnce crates numeric now (entityAnswer listing.toListing gatewayPageSize fault)
      committed before).1

/-- A transaction that goes through with what was read before a break either has no row, so that
it is not made, or the listing has none after the break. -/
def GatewayPassClean (crates : Crates) (numeric : String → Option ℚ)
    (listing : GatewayListing crates) (fault : Nat → Option (PageFault "allocations"))
    (committed : Bool) : Prop :=
  committed = true → ∀ pages,
    CutShort (fun page => (fault page).map PageFault.allocationsStop) gatewayPageSize allocationPages
        listing.rows.length pages →
      (∀ row ∈ (listing.rows.take (pages * gatewayPageSize)).filterMap (allocationRow crates),
        castNullable numeric row.tokens ≠ none) →
      (listing.rows.take (pages * gatewayPageSize)).filterMap (allocationRow crates) = [] ∨
        (listing.rows.drop (pages * gatewayPageSize)).filterMap (allocationRow crates) = []

/-- A pass from the gateway is all or nothing exactly when it does not write the beginning of
a listing that goes on. -/
theorem gatewayPassSound_iff {listing : GatewayListing crates}
    {fault : Nat → Option (PageFault "allocations")} {committed : Bool} :
    GatewayPassSound crates numeric now listing fault committed ↔
      GatewayPassClean crates numeric listing fault committed := by
  unfold GatewayPassSound GatewayPassClean
  simp only [syncOnce_eq]
  by_cases cut : ∃ pages, CutShort (fun page => (fault page).map PageFault.allocationsStop)
      gatewayPageSize allocationPages listing.rows.length pages
  · obtain ⟨pages, cut⟩ := cut
    rw [readListing_cut short_gatewayPage (by decide) cut, foldl_allocationRow, List.nil_append]
    have split := congrArg (List.filterMap (allocationRow crates))
      (List.take_append_drop (pages * gatewayPageSize) listing.rows).symm
    rw [List.filterMap_append] at split
    have distinct := distinct_allocationRows (List.Sublist.refl listing.rows)
    have part := distinct_allocationRows (List.take_sublist (pages * gatewayPageSize) listing.rows)
    rw [split] at distinct ⊢
    by_cases nothing : (listing.rows.take (pages * gatewayPageSize)).filterMap (allocationRow crates) = []
    · refine iff_of_true (fun before => .inl (by simp [nothing])) fun _ others again _ => .inl ?_
      rw [again.unique cut, nothing]
    · simp only [if_neg nothing]
      rw [replaceAll_allOrNothing_iff part nothing]
      constructor
      · intro same commits others again casts
        cases again.unique cut
        exact .inr ((insertAll_append_iff distinct casts).mp (same commits casts))
      · intro complete commits casts
        exact (insertAll_append_iff distinct casts).mpr
          ((complete commits pages cut casts).resolve_left nothing)
  · have uncut := not_exists.mp cut
    refine iff_of_true (fun before => ?_) fun _ pages again => absurd again (uncut pages)
    rcases readListing_uncut short_gatewayPage (by decide) uncut with read | read
    · exact .inl (by rw [read])
    · rw [read, foldl_allocationRow, List.nil_append]
      dsimp only
      split
      · exact .inl rfl
      · next occupied =>
        exact (replaceAll_allOrNothing_iff (distinct_allocationRows (List.Sublist.refl _))
          occupied).mpr (fun _ _ => rfl) before

end Gateway

end Foghorn.Probe
