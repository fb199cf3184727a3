import Foghorn.Core.DeploymentId
import Foghorn.Probe.Round
import Foghorn.Std.GraphqlTypes

/-!
# Discovered test sets

The most staked deployments are probed with queries that are generated from their schemas: the
first field of the root that takes a block and returns a list of objects, with some leaves of
these. A curated set of the same deployment takes the place of a discovered one, under whatever
spelling of its id it was written.
-/

namespace Foghorn.Probe

open Foghorn.Std Foghorn.Core

def maxFields : Nat := 8

/-- Block lag of the validation of a generated query. -/
def validateLag : Nat := 3000

section Introspection

/-- Walk the wrappers, for at most `fuel` of them, to the object of a list. -/
def walkWrappers : Nat → Bool → Json → Option String
  | 0, _, _ => none
  | fuel + 1, sawList, cur =>
    let kind := (cur.index "kind").asStr.getD ""
    let sawList := sawList || kind = "LIST"
    if kind = "OBJECT" then
      if sawList then (cur.index "name").asStr else none
    else
      match cur.index "ofType" with
      | .null => none
      | inner => walkWrappers fuel sawList inner

def listElementObject (t : Json) : Option String := walkWrappers 4 false t

def isScalarOrEnum (t : Json) : Bool :=
  let kind := (t.index "kind").asStr.getD ""
  if kind = "SCALAR" ∨ kind = "ENUM" then true
  else if kind = "NON_NULL" then
    let inner := ((t.index "ofType").index "kind").asStr.getD ""
    inner = "SCALAR" ∨ inner = "ENUM"
  else false

/-- The name of a plural entity field, and the type of its entities. -/
def entityField (f : Json) : Option (String × String) := do
  let name ← (f.index "name").asStr
  if startsWithText name "_" then none
  else
    let listed ← (f.index "args").asArray
    let args := listed.filterMap fun a => (a.index "name").asStr
    if "first" ∉ args ∨ "block" ∉ args then none
    else
      let entity ← listElementObject (f.index "type")
      some (name, entity)

/-- The names of the leaves, up to the last that there is room for. -/
def selectFields : List Json → List String → List String
  | [], selected => selected
  | tf :: rest, selected =>
    match (tf.index "name").asStr with
    | none => selectFields rest selected
    | some name =>
      let selected := if isScalarOrEnum (tf.index "type") then selected ++ [name] else selected
      if maxFields ≤ selected.length then selected else selectFields rest selected

def schemaQuery : String :=
  "\x7b __schema \x7b queryType \x7b fields \x7b name args \x7b name \x7d type \x7b kind name ofType " ++
    "\x7b kind name ofType \x7b kind name ofType \x7b kind name \x7d \x7d \x7d \x7d \x7d \x7d \x7d \x7d"

def typeQuery (entity : String) : String :=
  "\x7b __type(name: \"" ++ entity ++
    "\") \x7b fields \x7b name type \x7b kind name ofType \x7b kind name \x7d \x7d \x7d \x7d \x7d"

/-- `build_query_fields`, from what the deployment answers to a query. -/
def buildQueryFields (ask : String → Option Json) : Option (String × List String) := do
  let v ← ask schemaQuery
  let fields ← (v.pointer ["data", "__schema", "queryType", "fields"]).bind Json.asArray
  let (fieldName, entity) ← fields.findSome? entityField
  let tv ← ask (typeQuery entity)
  let tfields ← (tv.pointer ["data", "__type", "fields"]).bind Json.asArray
  let leaves := selectFields tfields []
  let selected := if "id" ∈ leaves then leaves else ("id" :: leaves).take maxFields
  if selected = [] then none else some (fieldName, selected)

def renderTemplate (field : String) (fields : List String) : String :=
  "\x7b " ++ field ++
    "(first: 4, orderBy: id, orderDirection: asc, block: \x7b hash: \"$block_hash\" \x7d) \x7b " ++
    " ".intercalate fields ++ " \x7d \x7d"

/-- A response with an object of data. -/
def validateQuery (ask : String → Option Json) (template blockHash : String) : Bool :=
  match (ask (template.replace "$block_hash" blockHash)).bind fun v => v.get "data" with
  | some (.object _) => true
  | _ => false

end Introspection

section Discovery

/-- `Candidate`: a deployment with its chain. -/
structure DeploymentCandidate where
  ipfsHash : String
  network : String

/-- What discovery meets, with the candidates counted from zero. -/
structure DiscoveryWorld where
  clientBuilds : Bool
  /-- The answer of the network subgraph to a query for so many deployments. -/
  staked : Nat → Option Json
  deployment : Nat → String → Option Json
  safeBlock : Nat → (rpcUrl : String) → (lag : Nat) → Option (Nat × String)

def candidateOfJson (d : Json) : Option DeploymentCandidate :=
  let ipfs := (d.index "ipfsHash").asStr.getD ""
  let net := ((d.pointer ["manifest", "network"]).bind Json.asStr).getD ""
  if startsWithText ipfs "Qm" ∧ net ≠ "" then some ⟨ipfs, net⟩ else none

variable (world : DiscoveryWorld) (config : RoundConfig)

def discoverCandidates (first : Nat) : Option (List DeploymentCandidate) :=
  (world.staked first).map fun v =>
    (((v.pointer ["data", "subgraphDeployments"]).bind Json.asArray).getD []).filterMap
      candidateOfJson

def generatedSet (candidate : DeploymentCandidate) (field : String) (fields : List String) :
    TestSet where
  deployment :=
    { id := normaliseDeploymentId candidate.ipfsHash
      ipfsHash := normaliseDeploymentId candidate.ipfsHash
      network := candidate.network
      gatewaySubgraphId := none }
  queries := [⟨"Q_auto", renderTemplate field fields, []⟩]

/-- The test set of a candidate, unless it is skipped. Without a block there is no validation. -/
def testSetOf (number : Nat) (candidate : DeploymentCandidate) : Option TestSet := do
  let rpc ← config.rpcUrls candidate.network
  let (field, fields) ← buildQueryFields (world.deployment number)
  match world.safeBlock number rpc validateLag with
  | some (_, blockHash) =>
    if validateQuery (world.deployment number) (renderTemplate field fields) blockHash then
      some (generatedSet candidate field fields)
    else none
  | none => some (generatedSet candidate field fields)

/-- The loop over the candidates, until there are enough. -/
def collectSets (limit : Nat) : Nat → List DeploymentCandidate → List TestSet → List TestSet
  | _, [], out => out
  | number, candidate :: rest, out =>
    if limit ≤ out.length then out
    else collectSets limit (number + 1) rest
      (out ++ (testSetOf world config number candidate).toList)

def discoverTestSets (limit : Nat) : List TestSet :=
  if config.gateway.isNone ∨ world.clientBuilds = false then []
  else
    match discoverCandidates world (limit * 3) with
    | none => []
    | some candidates => collectSets world config limit 0 candidates []

/-- `load_test_sets`, of the files that parse. -/
def loadTestSets (files : List (Option TestSet)) : List TestSet :=
  files.filterMap fun file => file.map fun ts =>
    { ts with deployment := { ts.deployment with id := normaliseDeploymentId ts.deployment.id } }

/-- The test sets that the scheduler probes. -/
def schedulerTestSets (files : List (Option TestSet)) (autoDiscoverLimit : Nat) : List TestSet :=
  let curated := loadTestSets files
  if 0 < autoDiscoverLimit then
    curated ++ (discoverTestSets world config autoDiscoverLimit).filter fun ts =>
      ts.deployment.id ∉ curated.map fun ts => ts.deployment.id
  else curated

end Discovery

section Assembly

variable {world : DiscoveryWorld} {config : RoundConfig} {files : List (Option TestSet)}
    {limit : Nat}

/-- What the candidates give, in their order. -/
def discoverable (world : DiscoveryWorld) (config : RoundConfig) (number : Nat)
    (candidates : List DeploymentCandidate) : List TestSet :=
  (candidates.zipIdx number).filterMap fun entry => testSetOf world config entry.2 entry.1

/-- The loop takes the first of what the candidates give. -/
theorem collectSets_eq {number : Nat} {candidates : List DeploymentCandidate} {out : List TestSet}
    (room : out.length ≤ limit) : collectSets world config limit number candidates out =
      (out ++ discoverable world config number candidates).take limit := by
  induction candidates generalizing number out with
  | nil =>
    rw [discoverable, List.zipIdx_nil, List.filterMap_nil, List.append_nil,
      List.take_of_length_le room]
    rfl
  | cons candidate rest ih =>
    rw [collectSets]
    split
    · next full => rw [List.take_append_of_le_length full, List.take_of_length_le room]
    · next space =>
      have given : discoverable world config number (candidate :: rest) =
          (testSetOf world config number candidate).toList ++
            discoverable world config (number + 1) rest := by
        rw [discoverable, List.zipIdx_cons, List.filterMap_cons]
        cases testSetOf world config number candidate <;> rfl
      have fits : (out ++ (testSetOf world config number candidate).toList).length ≤ limit := by
        have one := Option.length_toList_le (o := testSetOf world config number candidate)
        rw [List.length_append]
        omega
      rw [ih fits, given, List.append_assoc]

/-- A discovered set: its network can be pinned, its query is generated from what its deployment
answers, and that answered it unless there was no block to ask for. -/
structure Discovered (world : DiscoveryWorld) (config : RoundConfig) (ts : TestSet) (number : Nat)
    (candidate : DeploymentCandidate) : Prop where
  pinned : ∃ rpc, config.rpcUrls candidate.network = some rpc ∧
    ∀ block ∈ world.safeBlock number rpc validateLag, ∀ query ∈ ts.queries,
      validateQuery (world.deployment number) query.template block.2 = true
  generated : ∃ field fields, buildQueryFields (world.deployment number) = some (field, fields) ∧
    ts = generatedSet candidate field fields

/-- A test set given for a candidate is one discovered from it. -/
theorem discovered_of_testSetOf {number : Nat} {candidate : DeploymentCandidate} {ts : TestSet}
    (given : testSetOf world config number candidate = some ts) :
    Discovered world config ts number candidate := by
  obtain ⟨rpc, known, given⟩ := Option.bind_eq_some_iff.mp given
  obtain ⟨⟨field, fields⟩, built, given⟩ := Option.bind_eq_some_iff.mp given
  dsimp only at given
  cases found : world.safeBlock number rpc validateLag with
  | none =>
    rw [found] at given
    obtain rfl := Option.some.inj given
    exact ⟨⟨rpc, known, fun block here => by rw [found] at here; cases here⟩, field, fields, built, rfl⟩
  | some block =>
    rw [found] at given
    dsimp only at given
    split at given
    · next valid =>
      obtain rfl := Option.some.inj given
      refine ⟨⟨rpc, known, fun other here query asked => ?_⟩, field, fields, built, rfl⟩
      rw [found] at here
      obtain rfl := Option.some.inj here
      obtain rfl := List.mem_singleton.mp asked
      exact valid
    · cases given

/-- Every test set discovered comes from one of the listed candidates. -/
theorem mem_discoverTestSets {ts : TestSet} (member : ts ∈ discoverTestSets world config limit) :
    ∃ candidates number candidate, discoverCandidates world (limit * 3) = some candidates ∧
      candidates[number]? = some candidate ∧ Discovered world config ts number candidate := by
  unfold discoverTestSets at member
  split at member
  · cases member
  · split at member
    · cases member
    · next candidates listed =>
      rw [collectSets_eq (Nat.zero_le _)] at member
      obtain ⟨⟨candidate, number⟩, among, given⟩ :=
        List.mem_filterMap.mp (List.mem_of_mem_take member)
      exact ⟨candidates, number, candidate, listed, List.mem_zipIdx_iff_getElem?.mp among,
        discovered_of_testSetOf given⟩

/-- No more test sets are discovered than asked for. -/
theorem length_discoverTestSets_le : (discoverTestSets world config limit).length ≤ limit := by
  unfold discoverTestSets
  split
  · exact Nat.zero_le _
  · split
    · exact Nat.zero_le _
    · rw [collectSets_eq (Nat.zero_le _)]
      exact List.length_take_le _ _

/-- Without a limit the discovery would give nothing either. -/
theorem mem_schedulerTestSets {ts : TestSet} : ts ∈ schedulerTestSets world config files limit ↔
    ts ∈ loadTestSets files ∨ ts ∈ discoverTestSets world config limit ∧
      ∀ curated ∈ loadTestSets files, curated.deployment.id ≠ ts.deployment.id := by
  unfold schedulerTestSets
  dsimp only
  split
  · rw [List.mem_append, List.mem_filter, decide_eq_true_iff, List.mem_map, not_exists]
    exact or_congr_right (and_congr_right fun _ => forall_congr' fun _ => not_and)
  · next off =>
    obtain rfl : limit = 0 := Nat.eq_zero_of_not_pos off
    have nothing : discoverTestSets world config 0 = [] :=
      List.eq_nil_of_length_eq_zero (Nat.le_zero.mp length_discoverTestSets_le)
    rw [nothing]
    exact ⟨.inl, fun either => either.elim id fun found => absurd found.1 List.not_mem_nil⟩

/-- The loaded test sets are those of the files that parse, with their ids normalised. -/
theorem mem_loadTestSets {ts : TestSet} : ts ∈ loadTestSets files ↔
    ∃ file, some file ∈ files ∧
      ts = { file with deployment :=
        { file.deployment with id := normaliseDeploymentId file.deployment.id } } := by
  rw [loadTestSets, List.mem_filterMap]
  constructor
  · rintro ⟨file, among, read⟩
    obtain ⟨parsed, rfl, rfl⟩ := Option.map_eq_some_iff.mp read
    exact ⟨parsed, among, rfl⟩
  · rintro ⟨file, among, rfl⟩
    exact ⟨some file, among, rfl⟩

/-- The set of a file that parses is loaded under the file's id in its normal form. -/
theorem exists_loaded {file : TestSet} (among : some file ∈ files) :
    ∃ ts ∈ loadTestSets files, ts.deployment.id = normaliseDeploymentId file.deployment.id :=
  ⟨_, mem_loadTestSets.mpr ⟨file, among, rfl⟩, by simp only⟩

private theorem Discovered.id_eq {ts : TestSet} {number : Nat} {candidate : DeploymentCandidate}
    (discovered : Discovered world config ts number candidate) :
    ts.deployment.id = normaliseDeploymentId candidate.ipfsHash := by
  obtain ⟨field, fields, -, rfl⟩ := discovered.generated
  simp only [generatedSet]

/-- The scheduler probes all curated sets first, and at most so many discovered ones after them. All
ids are normal, so a deployment that a file spells in any way is probed by its files only, and
one that no file spells by what its own answers generate. -/
theorem scheduler_test_sets (world : DiscoveryWorld) (config : RoundConfig)
    (files : List (Option TestSet)) (limit : Nat) :
    loadTestSets files <+: schedulerTestSets world config files limit ∧
    (schedulerTestSets world config files limit).length ≤ (loadTestSets files).length + limit ∧
    (∀ ts ∈ schedulerTestSets world config files limit,
      normaliseDeploymentId ts.deployment.id = ts.deployment.id) ∧
    (∀ file digest, some file ∈ files → Spells digest file.deployment.id →
      ∀ ts ∈ schedulerTestSets world config files limit,
        normaliseDeploymentId ts.deployment.id = cidv0 digest → ∃ other, some other ∈ files ∧
          normaliseDeploymentId other.deployment.id = cidv0 digest ∧ ts.queries = other.queries) ∧
    ∀ ts, ts ∈ schedulerTestSets world config files limit ↔ ts ∈ loadTestSets files ∨
      ts ∈ discoverTestSets world config limit ∧
      (∃ candidates number candidate, discoverCandidates world (limit * 3) = some candidates ∧
        candidates[number]? = some candidate ∧ Discovered world config ts number candidate) ∧
      ∀ file, some file ∈ files →
        normaliseDeploymentId file.deployment.id ≠ ts.deployment.id := by
  have normal : ∀ ts ∈ schedulerTestSets world config files limit,
      normaliseDeploymentId ts.deployment.id = ts.deployment.id := by
    intro ts member
    rcases mem_schedulerTestSets.mp member with curated | ⟨found, -⟩
    · obtain ⟨file, -, rfl⟩ := mem_loadTestSets.mp curated
      simp only [normaliseDeploymentId_idem]
    · obtain ⟨_, _, _, -, -, discovered⟩ := mem_discoverTestSets found
      rw [discovered.id_eq, normaliseDeploymentId_idem]
  refine ⟨?_, ?_, normal, ?_, ?_⟩
  · unfold schedulerTestSets
    dsimp only
    split
    · exact List.prefix_append _ _
    · exact List.prefix_refl _
  · unfold schedulerTestSets
    dsimp only
    split
    · rw [List.length_append]
      exact Nat.add_le_add_left ((List.length_filter_le _ _).trans length_discoverTestSets_le) _
    · exact Nat.le_add_right _ _
  · intro file digest among spells ts member same
    rcases mem_schedulerTestSets.mp member with curated | ⟨-, apart⟩
    · obtain ⟨other, there, rfl⟩ := mem_loadTestSets.mp curated
      simp only [normaliseDeploymentId_idem] at same
      exact ⟨other, there, same, rfl⟩
    · -- The file itself holds the id, so the discovered set was dropped.
      obtain ⟨loaded, there, called⟩ := exists_loaded among
      exact absurd (called.trans ((normaliseDeploymentId_of_spells spells).trans
        (same.symm.trans (normal ts member)))) (apart loaded there)
  · intro ts
    rw [mem_schedulerTestSets]
    refine or_congr_right ⟨?_, ?_⟩
    · rintro ⟨found, apart⟩
      refine ⟨found, mem_discoverTestSets found, fun file among => ?_⟩
      obtain ⟨loaded, there, called⟩ := exists_loaded among
      exact called ▸ apart loaded there
    · rintro ⟨found, -, apart⟩
      refine ⟨found, fun curated held => ?_⟩
      obtain ⟨file, among, rfl⟩ := mem_loadTestSets.mp held
      simpa only using apart file among

end Assembly

end Foghorn.Probe
