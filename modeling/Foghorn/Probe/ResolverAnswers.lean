import Foghorn.Probe.Reroll
import Foghorn.Probe.Resolver
import Foghorn.Std.Program

/-!
# What the network subgraph answers

The resolver asks for its unresolved keys a hundred at a time. What comes back names the
indexers of the keys it has, and the other keys of the question are marked, so that they are
not asked for again for a day. A failed request marks nothing; a body without data, which
says nothing about any key either, is taken for one that has none of them.
-/

namespace Foghorn.Probe

open Foghorn.Core Foghorn.Std

structure AllocationNode where
  id : String
  indexerId : String
  indexerUrl : Option String

/-- What comes of a question. -/
inductive SubgraphAnswer where
  /-- The request failed, or the body is not of the expected shape. -/
  | failed
  /-- `GraphQLResponse`. The body of a GraphQL error has no data. -/
  | response (data : Option (List AllocationNode))

/-- A statement on `allocation_map`. -/
inductive MapWrite where
  | attribution (key indexer : String) (url : Option String)
  | missing (key : String)
deriving DecidableEq

/-- A question for some keys and its answer, with the clock of its statements. -/
structure KeyBatch where
  ids : List String
  answer : SubgraphAnswer
  clock : Nat → Int

/-- The keys that are asked for: those without a row of the last 24 hours, in no order. -/
def unresolvedKeys (order : IterOrder String) (now : Int) (db : Db) : List String :=
  (order.arrange ((db.observation.rows.map ObservationRow.indexerAddress).dedup.filter fun key =>
    ¬ (db.allocationMap.lookup key).any fun row => now - dayMicros < row.resolvedAt)).take 200

/-- The questions for some keys, a hundred a time and in lower case. -/
def keyBatches (crates : Crates) (answers : Nat → SubgraphAnswer) (clock : Nat → Nat → Int)
    (unresolved : List String) : List KeyBatch :=
  (chunksOf 100 unresolved.length unresolved).mapIdx fun index chunk =>
    ⟨chunk.map crates.lowercase, answers index, clock index⟩

def AllocationNode.write (crates : Crates) (alloc : AllocationNode) : MapWrite :=
  .attribution (crates.lowercase alloc.id) (crates.lowercase alloc.indexerId) alloc.indexerUrl

/-- What one turn of the loop stores. Without data nothing is found. -/
def KeyBatch.writes (crates : Crates) (batch : KeyBatch) : List MapWrite :=
  match batch.answer with
  | .failed => []
  | .response data =>
    let allocations := data.getD []
    let found := allocations.map fun alloc => crates.lowercase alloc.id
    allocations.map (AllocationNode.write crates) ++
      (batch.ids.filter fun key => key ∉ found).map .missing

/-- The statements of a turn, each at its time. -/
def KeyBatch.statements (crates : Crates) (batch : KeyBatch) : List (Int × MapWrite) :=
  (batch.writes crates).mapIdx fun index write => (batch.clock index, write)

def MapWrite.exec (groupOrder : IterOrder (String × List ProbeRow)) (statement : Int × MapWrite)
    (db : Db) : Db :=
  match statement.2 with
  | .attribution key indexer url => recordAttribution groupOrder statement.1 key indexer url db
  | .missing key => recordMissing statement.1 key db

/-- The statements of `resolve_allocation_keys` for the keys that its query returned. -/
def resolverStatements (crates : Crates) (asked : List KeyBatch) : List (Int × MapWrite) :=
  asked.flatMap (KeyBatch.statements crates)

/-- `resolve_allocation_keys`. -/
def resolveAllocationKeys (crates : Crates) (order : IterOrder String)
    (groupOrder : IterOrder (String × List ProbeRow)) (now : Int) (answers : Nat → SubgraphAnswer)
    (clock : Nat → Nat → Int) (db : Db) : Db :=
  runAll (MapWrite.exec groupOrder)
    (resolverStatements crates (keyBatches crates answers clock (unresolvedKeys order now db))) db

/-- The answer has the allocation of a key. -/
def KeyBatch.Contains (crates : Crates) (batch : KeyBatch) (key : String) : Prop :=
  ∃ allocations, batch.answer = .response (some allocations) ∧
    ∃ alloc ∈ allocations, crates.lowercase alloc.id = key

/-- The question was answered for a key, and the answer does not have it. -/
def KeyBatch.AnsweredWithout (crates : Crates) (batch : KeyBatch) (key : String) : Prop :=
  key ∈ batch.ids ∧ (∃ allocations, batch.answer = .response (some allocations)) ∧
    ¬ batch.Contains crates key

def MapWrite.Attributes (write : MapWrite) (key : String) : Prop :=
  ∃ indexer url, write = .attribution key indexer url

/-- A row that changes without an attribution is that of a key answered for and not found,
whatever was stored before. -/
def KeyBatch.MarksOnlyAnswered (crates : Crates) (groupOrder : IterOrder (String × List ProbeRow))
    (batch : KeyBatch) : Prop :=
  ∀ statement ∈ batch.statements crates, ∀ (db : Db) (key : String),
    (MapWrite.exec groupOrder statement db).allocationMap.lookup key ≠ db.allocationMap.lookup key →
      statement.2.Attributes key ∨ batch.AnsweredWithout crates key

section Writes

variable {crates : Crates} {groupOrder : IterOrder (String × List ProbeRow)} {batch : KeyBatch}
  {key : String} {db : Db} {statement : Int × MapWrite}

private theorem mem_statements (member : statement ∈ batch.statements crates) :
    statement.2 ∈ batch.writes crates := by
  obtain ⟨index, bound, rfl⟩ := List.mem_mapIdx.mp member
  exact List.getElem_mem bound

private theorem exists_statement {write : MapWrite} (member : write ∈ batch.writes crates) :
    ∃ now, (now, write) ∈ batch.statements crates := by
  obtain ⟨index, bound, rfl⟩ := List.getElem_of_mem member
  exact ⟨batch.clock index, List.mem_mapIdx.mpr ⟨index, bound, rfl⟩⟩

private theorem lookup_recordAttribution {now : Int} {named indexer : String}
    {url : Option String} :
    (recordAttribution groupOrder now named indexer url db).allocationMap.lookup key =
      if key = named then some ⟨named, some indexer, url, now⟩ else db.allocationMap.lookup key := by
  unfold recordAttribution
  rw [Table.lookup_upsert]
  cases db.allocationMap.lookup key <;> rfl

/-- A row that is there keeps its indexer. -/
theorem lookup_recordMissing {now : Int} {named : String} :
    (recordMissing now named db).allocationMap.lookup key =
      if key = named then
        some (((db.allocationMap.lookup key).map fun old => { old with resolvedAt := now }).getD
          ⟨named, none, none, now⟩)
      else db.allocationMap.lookup key := by
  unfold recordMissing
  rw [Table.lookup_upsert]

/-- A statement changes the row of its own key only. -/
theorem lookup_exec_of_changed
    (changed : (MapWrite.exec groupOrder statement db).allocationMap.lookup key ≠
      db.allocationMap.lookup key) : statement.2.Attributes key ∨ statement.2 = .missing key := by
  obtain ⟨now, write⟩ := statement
  cases write with
  | attribution named indexer url =>
    by_cases same : key = named
    · subst same
      exact .inl ⟨indexer, url, rfl⟩
    · exact absurd (lookup_recordAttribution.trans (if_neg same)) changed
  | missing named =>
    by_cases same : key = named
    · subst same
      exact .inr rfl
    · exact absurd (lookup_recordMissing.trans (if_neg same)) changed

/-- A key is marked missing when a response was read that does not name it. -/
theorem mem_writes_missing : .missing key ∈ batch.writes crates ↔
    key ∈ batch.ids ∧ ∃ data, batch.answer = .response data ∧
      ∀ alloc ∈ data.getD [], crates.lowercase alloc.id ≠ key := by
  unfold KeyBatch.writes
  cases batch.answer with
  | failed => simp
  | response data => simp [AllocationNode.write]

/-- An attribution is written when a response lists an allocation that gives it. -/
theorem attribution_mem_writes {indexer : String} {url : Option String} :
    .attribution key indexer url ∈ batch.writes crates ↔
      ∃ allocations, batch.answer = .response (some allocations) ∧
        ∃ alloc ∈ allocations, alloc.write crates = .attribution key indexer url := by
  unfold KeyBatch.writes
  cases batch.answer with
  | failed => simp
  | response data =>
    cases data with
    | none => simp
    | some allocations => simp

/-- A turn of the loop marks only what was answered for, unless its body has no data. -/
theorem marksOnlyAnswered_iff (asks : batch.ids ≠ []) :
    batch.MarksOnlyAnswered crates groupOrder ↔ batch.answer ≠ .response none := by
  constructor
  · intro only empty
    obtain ⟨key, asked⟩ := List.exists_mem_of_ne_nil _ asks
    have marked : .missing key ∈ batch.writes crates := by
      rw [mem_writes_missing]
      exact ⟨asked, none, empty, by simp⟩
    obtain ⟨now, executed⟩ := exists_statement marked
    -- In an empty table the row is new.
    have changed : (MapWrite.exec groupOrder (now, .missing key) Db.empty).allocationMap.lookup key ≠
        Db.empty.allocationMap.lookup key := by
      have written : (MapWrite.exec groupOrder (now, .missing key) Db.empty).allocationMap.lookup key =
          some ⟨key, none, none, now⟩ := lookup_recordMissing.trans (if_pos rfl)
      rw [written]
      exact Option.some_ne_none _
    rcases only _ executed Db.empty key changed with ⟨indexer, url, attributes⟩ | ⟨_, answered, _⟩
    · cases attributes
    · obtain ⟨allocations, other⟩ := answered
      rw [empty] at other
      cases other
  · intro hasData statement executed db key changed
    rcases lookup_exec_of_changed changed with attributes | missing
    · exact .inl attributes
    · have marked := mem_statements executed
      rw [missing, mem_writes_missing] at marked
      obtain ⟨asked, data, answer, absent⟩ := marked
      cases data with
      | none => exact absurd answer hasData
      | some allocations =>
        refine .inr ⟨asked, ⟨allocations, answer⟩, ?_⟩
        rintro ⟨others, same, alloc, listed, named⟩
        rw [answer] at same
        obtain rfl := Option.some.inj (SubgraphAnswer.response.inj same)
        exact absent alloc listed named

end Writes

section Run

variable {crates : Crates} {groupOrder : IterOrder (String × List ProbeRow)} {key : String} {db : Db}
  {statements : List (Int × MapWrite)}

/-- After a run a key has an indexer that one of its attributions gave it, or has had none. -/
theorem resolved_resolver (key : String) :
    (∃ now indexer url, (now, MapWrite.attribution key indexer url) ∈ statements ∧
      (runAll (MapWrite.exec groupOrder) statements db).resolved key = some indexer) ∨
    (∀ statement ∈ statements, ¬ statement.2.Attributes key) ∧
      (runAll (MapWrite.exec groupOrder) statements db).resolved key = db.resolved key := by
  induction statements using List.reverseRecOn with
  | nil => exact .inr ⟨by simp, rfl⟩
  | append_singleton earlier last ih =>
    rw [runAll_concat]
    generalize runAll (MapWrite.exec groupOrder) earlier db = reached at ih
    obtain ⟨now, write⟩ := last
    by_cases attributes : write.Attributes key
    · obtain ⟨indexer, url, rfl⟩ := attributes
      exact .inl ⟨now, indexer, url, by simp, (resolved_recordAttribution key).trans (if_pos rfl)⟩
    · have kept : (MapWrite.exec groupOrder (now, write) reached).resolved key = reached.resolved key := by
        cases write with
        | attribution named indexer url =>
          refine (resolved_recordAttribution key).trans (if_neg ?_)
          rintro rfl
          exact attributes ⟨indexer, url, rfl⟩
        | missing named => exact resolved_recordMissing key
      rw [kept]
      rcases ih with ⟨time, indexer, url, member, named⟩ | ⟨absent, same⟩
      · exact .inl ⟨time, indexer, url, List.mem_append_left _ member, named⟩
      · refine .inr ⟨fun statement member => ?_, same⟩
        rcases List.mem_append.mp member with before | final
        · exact absent statement before
        · obtain rfl := List.mem_singleton.mp final
          exact attributes

private theorem grows_resolver :
    db.qosReroll.Grows (runAll (MapWrite.exec groupOrder) statements db).qosReroll := by
  induction statements generalizing db with
  | nil => exact Serial.Grows.refl _
  | cons statement rest ih =>
    obtain ⟨now, write⟩ := statement
    refine Serial.Grows.trans ?_ ih
    cases write with
    | attribution named indexer url => exact grows_recordAttribution
    | missing named => exact Serial.Grows.refl _

/-- A write to the map leaves the observations and the probes alone. -/
theorem answers_mapWrite (statement : Int × MapWrite) (db : Db) :
    (MapWrite.exec groupOrder statement db).observation = db.observation ∧
      (MapWrite.exec groupOrder statement db).probe = db.probe := by
  obtain ⟨now, write⟩ := statement
  cases write <;> exact ⟨rfl, rfl⟩

/-- A run of the resolver adds no answers. -/
theorem answers_resolver : (runAll (MapWrite.exec groupOrder) statements db).observation = db.observation ∧
    (runAll (MapWrite.exec groupOrder) statements db).probe = db.probe :=
  ⟨runAll_frame Db.observation fun statement _ state => (answers_mapWrite statement state).1,
    runAll_frame Db.probe fun statement _ state => (answers_mapWrite statement state).2⟩

private theorem ids_ne_nil {answers : Nat → SubgraphAnswer} {clock : Nat → Nat → Int}
    {unresolved : List String}
    {batch : KeyBatch} (asked : batch ∈ keyBatches crates answers clock unresolved) : batch.ids ≠ [] := by
  obtain ⟨index, bound, rfl⟩ := List.mem_mapIdx.mp asked
  have chunk := ne_nil_of_mem_chunksOf (by decide) (List.getElem_mem bound)
  simpa using chunk

/-- A key that an answer has is attributed to an indexer that an answer names for it. -/
theorem resolved_of_contains {asked : List KeyBatch} {batch : KeyBatch} (member : batch ∈ asked)
    (contains : batch.Contains crates key) : ∃ other ∈ asked, ∃ allocations,
      other.answer = .response (some allocations) ∧ ∃ alloc ∈ allocations,
        crates.lowercase alloc.id = key ∧
          (runAll (MapWrite.exec groupOrder) (resolverStatements crates asked) db).resolved key =
            some (crates.lowercase alloc.indexerId) := by
  obtain ⟨allocations, answer, alloc, listed, named⟩ := contains
  rcases @resolved_resolver groupOrder db (resolverStatements crates asked) key with
    ⟨now, indexer, url, executed, resolved⟩ | ⟨absent, _⟩
  · obtain ⟨other, otherAsked, inBatch⟩ := List.mem_flatMap.mp executed
    obtain ⟨allocations, answer, alloc, listed, write⟩ := attribution_mem_writes.mp (mem_statements inBatch)
    obtain ⟨named, indexes, _⟩ := MapWrite.attribution.inj write
    exact ⟨other, otherAsked, allocations, answer, alloc, listed, named, indexes ▸ resolved⟩
  · have written : alloc.write crates ∈ batch.writes crates := by
      rw [AllocationNode.write, attribution_mem_writes]
      exact ⟨allocations, answer, alloc, listed, rfl⟩
    obtain ⟨now, executed⟩ := exists_statement written
    refine absurd ?_ (absent (now, alloc.write crates) (List.mem_flatMap.mpr ⟨batch, member, executed⟩))
    exact ⟨crates.lowercase alloc.indexerId, alloc.indexerUrl, by rw [← named]; rfl⟩

/-- News in a run asks for every bucket the key answered in, until the end of the run. -/
theorem exists_request_resolver {earlier later : List (Int × MapWrite)} {now : Int} {indexer : String}
    {url : Option String} (run : statements = earlier ++ (now, .attribution key indexer url) :: later)
    (news : (runAll (MapWrite.exec groupOrder) earlier db).resolved key ≠ some indexer)
    {o : ObservationRow} (observed : o ∈ db.observation) (signed : o.indexerAddress = key)
    {p : ProbeRow} (found : db.probe.lookup o.probeId = some p) :
    ∃ request ∈ (runAll (MapWrite.exec groupOrder) statements db).qosReroll,
      (runAll (MapWrite.exec groupOrder) earlier db).qosReroll.next ≤ request.id ∧
        request.deploymentId = some p.deploymentId ∧
          request.fromTs ≤ p.dispatchedAt ∧ p.dispatchedAt ≤ request.toTs := by
  obtain ⟨observations, probes⟩ := @answers_resolver groupOrder db earlier
  rw [← observations] at observed
  rw [← probes] at found
  obtain ⟨request, asked, spans⟩ := @exists_request_recordAttribution groupOrder now key indexer url _
    news o observed signed p found
  refine ⟨request, ?_, spans⟩
  rw [run, runAll_append, runAll_cons]
  exact grows_resolver.kept request asked

/-- What the answers of a run do to the map: only an answer marks a key, exactly when no body
comes without data; what an answer has is attributed; and news asks for every bucket. -/
theorem only_an_answer_marks (crates : Crates) (groupOrder : IterOrder (String × List ProbeRow))
    (answers : Nat → SubgraphAnswer) (clock : Nat → Nat → Int) (unresolved : List String) (db : Db) :
    let asked := keyBatches crates answers clock unresolved
    let statements := resolverStatements crates asked
    let after := runAll (MapWrite.exec groupOrder) statements db
    ((∀ batch ∈ asked, batch.MarksOnlyAnswered crates groupOrder) ↔
      ∀ batch ∈ asked, batch.answer ≠ .response none) ∧
    (∀ batch ∈ asked, ∀ key, batch.Contains crates key → ∃ other ∈ asked, ∃ allocations,
      other.answer = .response (some allocations) ∧ ∃ alloc ∈ allocations,
        crates.lowercase alloc.id = key ∧
          after.resolved key = some (crates.lowercase alloc.indexerId)) ∧
    ∀ (earlier later : List (Int × MapWrite)) (now : Int) (key indexer : String) (url : Option String),
      statements = earlier ++ (now, .attribution key indexer url) :: later →
        (runAll (MapWrite.exec groupOrder) earlier db).resolved key ≠ some indexer →
          ∀ o ∈ db.observation, o.indexerAddress = key → ∀ p, db.probe.lookup o.probeId = some p →
            ∃ request ∈ after.qosReroll,
              (runAll (MapWrite.exec groupOrder) earlier db).qosReroll.next ≤ request.id ∧
                request.deploymentId = some p.deploymentId ∧
                  request.fromTs ≤ p.dispatchedAt ∧ p.dispatchedAt ≤ request.toTs := by
  intro asked statements after
  refine ⟨?_, fun batch member key contains => resolved_of_contains member contains, ?_⟩
  · constructor
    · intro marks batch member
      exact (marksOnlyAnswered_iff (ids_ne_nil member)).mp (marks batch member)
    · intro hasData batch member
      exact (marksOnlyAnswered_iff (ids_ne_nil member)).mpr (hasData batch member)
  · intro earlier later now key indexer url run news o observed signed p found
    exact exists_request_resolver run news observed signed found

end Run

section Suppressed

variable {order : IterOrder String} {now later : Int} {key : String} {db : Db}

/-- A key that was marked is not asked for again within a day. -/
theorem not_mem_unresolvedKeys (early : later < now + dayMicros) :
    key ∉ unresolvedKeys order later (recordMissing now key db) := by
  intro asked
  have listed := (order.mem_arrange _ _).mp (List.mem_of_mem_take asked)
  have stale := (List.mem_filter.mp listed).2
  have stamped : ∃ row, (recordMissing now key db).allocationMap.lookup key = some row ∧
      row.resolvedAt = now := by
    refine ⟨_, lookup_recordMissing.trans (if_pos rfl), ?_⟩
    cases db.allocationMap.lookup key <;> rfl
  obtain ⟨row, found, time⟩ := stamped
  simp only [found, Option.any_some, decide_eq_true_eq, time] at stale
  omega

end Suppressed

section Samples

def sampleCrates : Crates := .knowing [] []

def unresolvedProbe : ProbeRow := ⟨1, "Qm", "0x00", 7, "q", "Q_byid", "", 0⟩

def unresolvedAnswer : ObservationRow where
  probeId := 1
  indexerAddress := "0xkey"
  responseHash := some "0x01"
  latencyMs := none
  metaBlockNumber := none
  metaBlockHash := none
  httpStatus := some 200
  errorClass := none
  stakeWeight := .exact 0
  dispatchMode := .gateway
  requestCid := none
  responseCid := none
  attestation := none

/-- One probe and the answer of a key that nobody is known to own. -/
def unresolvedDb : Db :=
  { Db.empty with
    probe := Table.empty.insertNew unresolvedProbe
    observation := Table.empty.insertNew unresolvedAnswer }

/-- The network knows the key, and spells it in capital letters. -/
def knowingAnswer (_ : Nat) : SubgraphAnswer := .response (some [⟨"0xKEY", "0xINDEXER", none⟩])

def sampleClock (_ index : Nat) : Int := index

private theorem keyBatches_single (answers : Nat → SubgraphAnswer) :
    keyBatches sampleCrates answers sampleClock ["0xkey"] =
      [⟨[sampleCrates.lowercase "0xkey"], answers 0, sampleClock 0⟩] := rfl

/-- An answer that names the unresolved key attributes it and has its deployment re-rolled. -/
theorem only_an_answer_marks_unresolvedDb :
    let asked := keyBatches sampleCrates knowingAnswer sampleClock ["0xkey"]
    let after := runAll (MapWrite.exec .asInserted) (resolverStatements sampleCrates asked) unresolvedDb
    (∀ batch ∈ asked, batch.MarksOnlyAnswered sampleCrates .asInserted) ∧
      (∃ indexer, after.resolved "0xkey" = some indexer) ∧
        ∃ request ∈ after.qosReroll, request.deploymentId = some "Qm" := by
  intro asked after
  obtain ⟨marks, attributed, rerolled⟩ := only_an_answer_marks sampleCrates .asInserted knowingAnswer
    sampleClock ["0xkey"] unresolvedDb
  refine ⟨marks.mpr ?_, ?_, ?_⟩
  · intro batch member answer
    rw [keyBatches_single] at member
    rw [List.mem_singleton.mp member] at answer
    cases answer
  · obtain ⟨_, _, _, _, alloc, _, _, resolved⟩ := attributed _ (List.mem_singleton_self _) "0xkey"
      ⟨_, rfl, ⟨"0xKEY", "0xINDEXER", none⟩, List.mem_singleton_self _, by decide⟩
    exact ⟨_, resolved⟩
  · obtain ⟨request, queued, _, named, _⟩ := rerolled [] [] 0 "0xkey" "0xindexer" none
      (by decide) (by decide) unresolvedAnswer
      (Table.mem_insertNew.mpr (.inr ⟨by decide, rfl⟩)) rfl unresolvedProbe rfl
    exact ⟨request, queued, named⟩

/-- A GraphQL error: its body has no data. -/
def errorAnswer (_ : Nat) : SubgraphAnswer := .response none

/-- A body with errors and no data marks every key that was asked for. -/
theorem error_body_marks : ¬ ∀ (crates : Crates) (groupOrder : IterOrder (String × List ProbeRow))
    (answers : Nat → SubgraphAnswer) (clock : Nat → Nat → Int) (unresolved : List String),
    ∀ batch ∈ keyBatches crates answers clock unresolved, batch.MarksOnlyAnswered crates groupOrder := by
  intro only
  have batch : (⟨[sampleCrates.lowercase "0xkey"], errorAnswer 0, sampleClock 0⟩ : KeyBatch) ∈
      keyBatches sampleCrates errorAnswer sampleClock ["0xkey"] := List.mem_singleton_self _
  have marks := only sampleCrates .asInserted errorAnswer sampleClock ["0xkey"] _ batch
  exact (marksOnlyAnswered_iff (List.cons_ne_nil _ _)).mp marks rfl

end Samples

end Foghorn.Probe
