import Foghorn.Probe.Dedup

/-!
# One probe round

A round walks test sets, queries and parameters. A probe pays some indexers first and then asks
the gateway or, without one, the indexers that opted in; only then are the answers deduplicated,
clustered and stored. Between payment and storage two things can end the round: nobody left to
ask, and weights that cannot be compared.
-/

namespace Foghorn.Probe

open Foghorn.Std Foghorn.Core

structure TestQuery where
  category : String
  template : String
  entityIds : List String

structure TestSetDeployment where
  id : String
  ipfsHash : String
  network : String
  gatewaySubgraphId : Option String

structure TestSet where
  deployment : TestSetDeployment
  queries : List TestQuery

structure GatewayConfig where
  apiKey : String
  url : String
  probeCount : Nat

structure IndexerConfig where
  address : String
  url : String
  authToken : Option String
  stakeGrt : Option String

structure TapConfig where
  enabled : Bool
  signerKey : Option String
  verifier : String
  dataService : String
  payer : String
  excludedIndexers : List String

/-- What a round reads of `FoghornConfig`. -/
structure RoundConfig where
  rpcUrls : String → Option String
  reorgThreshold : Nat
  gateway : Option GatewayConfig
  optedInIndexers : List IndexerConfig
  tap : TapConfig

structure PayableTarget where
  allocationId : String
  indexerAddress : String
  deploymentId : String
  indexerUrl : Option String

/-- Everything a round meets. Test sets, probes and requests are counted from zero, so that each
call may have an outcome of its own. -/
structure RoundWorld where
  crates : Crates
  /-- Whether a text is a private key. -/
  parsesAsKey : String → Bool
  /-- Whether `PaidQueryClient::new` succeeds. -/
  clientBuilds : Bool
  /-- `ln(1 + grt / 100000)` of a text that is a float. -/
  lnStake : String → Option StakeWeight
  getSafeBlock : (testSet : Nat) → (rpcUrl : String) → (reorgThreshold : Nat) →
    Option (Nat × String)
  payableTargets : (probe : Nat) → (deploymentId : String) → (excluded : List String) →
    Option (List PayableTarget)
  paid : (probe target : Nat) → PaidRequest → PaidExchange
  gateway : (probe request : Nat) → HttpRequest → Exchange
  direct : (probe indexer : Nat) → HttpRequest → Exchange
  probeId : Nat → Uuid
  now : Nat → Int
  order : Nat → ClusterOrder
  /-- Whether a statement of `store_results` fails. -/
  storeFails : Nat → Bool

/-- One turn of the innermost loop: a query of a test set under one parameter. -/
structure ProbeInput where
  deployment : TestSetDeployment
  blockNumber : Nat
  blockHash : String
  query : TestQuery
  entityId : Option String

/-- The arguments of `dedup_by_address` and of `store_results` for one probe. -/
structure StoreCall where
  raw : List RawObservation
  probe : ProbeRow
  observations : List RawObservation
  clusters : ClusterResult

/-- What was paid for in one probe, and what reached the store. -/
structure ProbeTrace where
  probeId : Uuid
  paid : List RawObservation
  stored : Option StoreCall

inductive RoundEnd where
  | completed
  | nobodyToAsk
  | storeFailed
  | panicked
deriving DecidableEq

section Client

/-- The cap on targets of a client, where one can be built. -/
def buildPaidClient (world : RoundWorld) (config : RoundConfig) : Option Nat :=
  match config.tap.signerKey.filter fun key => key ≠ "" with
  | none => none
  | some key =>
    if world.parsesAsKey key && world.crates.parsesAsAddress config.tap.verifier &&
        world.crates.parsesAsAddress config.tap.dataService &&
        world.crates.parsesAsAddress config.tap.payer && world.clientBuilds then
      some ((config.gateway.map GatewayConfig.probeCount).getD 8)
    else none

/-- What `run` hands to its rounds. -/
def paidClientOf (world : RoundWorld) (config : RoundConfig) : Option Nat :=
  if config.tap.enabled then buildPaidClient world config else none

end Client

variable (world : RoundWorld) (config : RoundConfig) (paidClient : Option Nat)

section Inputs

def parameterisations (query : TestQuery) : List (Option String) :=
  if query.entityIds.isEmpty then [none] else query.entityIds.map some

/-- A test set without an RPC or a safe block is skipped, and so is its freshness query. -/
def inputsOfTestSet (number : Nat) (testSet : TestSet) : List ProbeInput :=
  match (config.rpcUrls testSet.deployment.network).bind fun rpcUrl =>
      world.getSafeBlock number rpcUrl config.reorgThreshold with
  | none => []
  | some (blockNumber, blockHash) =>
    (testSet.queries.filter fun query => query.category ≠ "Q_freshness").flatMap fun query =>
      (parameterisations query).map fun entityId =>
        ⟨testSet.deployment, blockNumber, blockHash, query, entityId⟩

def probeInputs (testSets : List TestSet) : List ProbeInput :=
  testSets.zipIdx.flatMap fun entry => inputsOfTestSet world config entry.2 entry.1

end Inputs

def ProbeInput.finalQuery (input : ProbeInput) : String :=
  match input.entityId with
  | some id => (input.query.template.replace "$id" id).replace "$block_hash" input.blockHash
  | none => input.query.template.replace "$block_hash" input.blockHash

def parseStakeWeight (stakeGrt : Option String) : StakeWeight :=
  (stakeGrt.bind world.lnStake).getD (.exact 1)

def paidTargets (number : Nat) (input : ProbeInput) : List PayableTarget :=
  match paidClient with
  | some maxTargets =>
    ((world.payableTargets number input.deployment.ipfsHash config.tap.excludedIndexers).getD
      []).take maxTargets
  | none => []

def paidObservations (number : Nat) (input : ProbeInput) : List RawObservation :=
  (paidTargets world config paidClient number input).zipIdx.map fun entry =>
    executePaidProbe world.crates (world.paid number entry.2)
      { indexerAddress := entry.1.indexerAddress
        indexerUrl := entry.1.indexerUrl.getD ""
        allocationId := entry.1.allocationId
        deploymentIpfsHash := input.deployment.ipfsHash
        query := input.finalQuery
        blockHash := input.blockHash
        stakeWeight := .exact 1 }

def gatewayObservations (gateway : GatewayConfig) (number : Nat) (input : ProbeInput) :
    List RawObservation :=
  (List.range gateway.probeCount).map fun request =>
    executeGatewayProbe world.crates (world.gateway number request)
      { gatewayUrl := gateway.url
        apiKey := gateway.apiKey
        subgraphId := input.deployment.gatewaySubgraphId.getD input.deployment.ipfsHash
        query := input.finalQuery
        blockHash := input.blockHash }

def directObservations (number : Nat) (input : ProbeInput) : List RawObservation :=
  config.optedInIndexers.zipIdx.map fun entry =>
    executeProbe world.crates (world.direct number entry.2)
      { indexerAddress := entry.1.address
        indexerUrl := entry.1.url
        deploymentIpfsHash := input.deployment.ipfsHash
        query := input.finalQuery
        blockHash := input.blockHash
        authToken := entry.1.authToken
        stakeWeight := parseStakeWeight world entry.1.stakeGrt }

/-- `none` is the early return: no gateway, and no indexer opted in. -/
def fallbackObservations (number : Nat) (input : ProbeInput) : Option (List RawObservation) :=
  match config.gateway with
  | some gateway => some (gatewayObservations world gateway number input)
  | none =>
    if config.optedInIndexers.isEmpty then none
    else some (directObservations world config number input)

def probeRow (number : Nat) (input : ProbeInput) : ProbeRow where
  id := world.probeId number
  deploymentId := input.deployment.id
  blockHash := input.blockHash
  blockNumber := input.blockNumber
  queryHash := world.crates.sha256Hex input.finalQuery
  queryCategory := input.query.category
  queryText := input.finalQuery
  dispatchedAt := world.now number

/-- One probe, and what ended the round in it. -/
def runProbe (number : Nat) (input : ProbeInput) : ProbeTrace × Option RoundEnd :=
  let paid := paidObservations world config paidClient number input
  match fallbackObservations world config number input with
  | none => (⟨world.probeId number, paid, none⟩, some .nobodyToAsk)
  | some fallback =>
    let raw := paid ++ fallback
    let observations := (dedupByAddress raw).rows
    match computeClusters world.crates (world.order number) (clusterInputs observations) with
    | none => (⟨world.probeId number, paid, none⟩, some .panicked)
    | some clusters =>
      (⟨world.probeId number, paid,
        some ⟨raw, probeRow world number input, observations, clusters⟩⟩,
        if world.storeFails number then some .storeFailed else none)

/-- The probes in order, up to the first that ends the round. -/
def runProbes (number : Nat) : List ProbeInput → List ProbeTrace × RoundEnd
  | [] => ([], .completed)
  | input :: rest =>
    match runProbe world config paidClient number input with
    | (trace, some ended) => ([trace], ended)
    | (trace, none) =>
      let (traces, ended) := runProbes (number + 1) rest
      (trace :: traces, ended)

def runProbeRound (testSets : List TestSet) : List ProbeTrace × RoundEnd :=
  runProbes world config paidClient 0 (probeInputs world config testSets)

/-- What the round returns: the number of probes, zero from the early return, or no number. -/
def roundResult (round : List ProbeTrace × RoundEnd) : Option Nat :=
  match round.2 with
  | .completed => some round.1.length
  | .nobodyToAsk => some 0
  | .storeFailed => none
  | .panicked => none

section FirstAnswers

/-- Every address's first answer. -/
def firstAnswers (raw : List RawObservation) : List RawObservation :=
  raw.filter fun obs => answerOf raw obs.indexerAddress = some obs

/-- The first answers agree, or those that agree have a total weight that can be compared. -/
def Comparable (raw : List RawObservation) : Prop :=
  ¬ (Differ (clusterInputs (firstAnswers raw)) ∧
    ∃ hash, NoTotal (clusterInputs (firstAnswers raw)) hash)

variable {raw : List RawObservation}

private theorem weighs_clusterInputs {observations : List RawObservation} {hash : String}
    {weight : StakeWeight} : Weighs (clusterInputs observations) hash weight ↔
      ∃ obs ∈ observations, obs.responseHash = some hash ∧ obs.stakeWeight = weight := by
  simp [Weighs, clusterInputs]

private theorem votesFor_pos_iff {inputs : List ClusterInput} {hash : String} :
    0 < votesFor inputs hash ↔ ∃ weight, Weighs inputs hash weight := by
  simp [votesFor, List.countP_pos_iff, Weighs]

private theorem mem_firstAnswers {obs : RawObservation} :
    obs ∈ firstAnswers raw ↔ obs ∈ dedupByAddress raw ∧ obs.responseHash.isSome := by
  rw [firstAnswers, List.mem_filter, decide_eq_true_eq, mem_dedupByAddress_hashed]
  exact and_iff_right_of_imp fun first => List.mem_of_find?_eq_some first

/-- What is kept has the hashes and the weights of the first answers. -/
theorem weighs_dedupByAddress (hash : String) (weight : StakeWeight) :
    Weighs (clusterInputs (dedupByAddress raw).rows) hash weight ↔
      Weighs (clusterInputs (firstAnswers raw)) hash weight := by
  rw [weighs_clusterInputs, weighs_clusterInputs]
  constructor
  · rintro ⟨obs, kept, hashed, weighs⟩
    exact ⟨obs, mem_firstAnswers.mpr ⟨kept, by rw [hashed]; rfl⟩, hashed, weighs⟩
  · rintro ⟨obs, first, hashed, weighs⟩
    exact ⟨obs, (mem_firstAnswers.mp first).1, hashed, weighs⟩

/-- There are clusters exactly when the answers can be compared. -/
theorem computeClusters_isSome_iff {crates : Crates} {order : ClusterOrder} :
    (computeClusters crates order (clusterInputs (dedupByAddress raw).rows)).isSome ↔
      Comparable raw := by
  rw [← Option.ne_none_iff_isSome, Ne, computeClusters_eq_none_iff, Comparable]
  simp only [Differ, NoTotal, votesFor_pos_iff, weighs_dedupByAddress]

/-- Finite weights can be compared. -/
theorem comparable_of_exact (exact_ : ∀ obs ∈ raw, ∃ value, obs.stakeWeight = .exact value) :
    Comparable raw := by
  have finite {hash : String} {weight : StakeWeight}
      (weighs : Weighs (clusterInputs (firstAnswers raw)) hash weight) :
      ∃ value, weight = .exact value := by
    obtain ⟨obs, first, -, rfl⟩ := weighs_clusterInputs.mp weighs
    exact exact_ obs (List.mem_of_mem_filter first)
  rintro ⟨-, hash, nan | ⟨infinite, -⟩⟩
  · obtain ⟨value, impossible⟩ := finite nan
    cases impossible
  · obtain ⟨value, impossible⟩ := finite infinite
    cases impossible

end FirstAnswers

section Weights

variable {crates : Crates}

private theorem stakeWeight_executeGatewayProbe (network : HttpRequest → Exchange)
    (req : GatewayProbeRequest) :
    (executeGatewayProbe crates network req).stakeWeight = .exact 1 := by
  unfold executeGatewayProbe
  split
  · rfl
  · rfl
  · split
    · rfl
    · split <;> rfl

private theorem stakeWeight_executePaidProbe (client : PaidRequest → PaidExchange)
    (req : PaidProbeRequest) :
    (executePaidProbe crates client req).stakeWeight = req.stakeWeight := by
  unfold executePaidProbe
  split
  · rfl
  · split
    · rfl
    · split
      · rfl
      · split
        · rfl
        · split <;> rfl

end Weights

section Recorded

/-- All that was paid for in the probe is in the list that is deduplicated and stored for it. -/
def ProbeTrace.Recorded (trace : ProbeTrace) : Prop :=
  ∀ obs ∈ trace.paid, ∃ call ∈ trace.stored, call.probe.id = trace.probeId ∧ obs ∈ call.raw ∧
    call.observations = (dedupByAddress call.raw).rows

/-- The answers to a probe without a gateway. -/
def directRaw (number : Nat) (input : ProbeInput) : List RawObservation :=
  paidObservations world config paidClient number input ++
    directObservations world config number input

/-- Every way from payment to the store is open: there is a gateway; or nobody opted in and the
first probe, which ends the round, pays nobody; or somebody opted in, and a probe that the round
gets to has comparable answers if it pays anyone. -/
def RecordsPaid (testSets : List TestSet) : Prop :=
  let inputs := probeInputs world config testSets
  config.gateway.isSome ∨
    config.optedInIndexers = [] ∧
      (∀ input ∈ inputs.head?, paidTargets world config paidClient 0 input = []) ∨
    config.optedInIndexers ≠ [] ∧ ∀ number input, inputs[number]? = some input →
      (∀ earlier < number, ∀ other, inputs[earlier]? = some other →
        Comparable (directRaw world config paidClient earlier other) ∧
          world.storeFails earlier = false) →
      paidTargets world config paidClient number input ≠ [] →
      Comparable (directRaw world config paidClient number input)

variable {world config paidClient} {number : Nat} {input : ProbeInput}

private theorem paidObservations_eq_nil_iff :
    paidObservations world config paidClient number input = [] ↔
    paidTargets world config paidClient number input = [] := by
  simp [paidObservations]

/-- Whether the round gets from the payments of a probe to its store. -/
def Stores (world : RoundWorld) (config : RoundConfig) (paidClient : Option Nat) (number : Nat)
    (input : ProbeInput) : Prop :=
  config.gateway.isSome ∨
    config.optedInIndexers ≠ [] ∧ Comparable (directRaw world config paidClient number input)

/-- With a gateway every weight is one. -/
theorem comparable_gateway (gateway : GatewayConfig) : Comparable
    (paidObservations world config paidClient number input ++
      gatewayObservations world gateway number input) := by
  apply comparable_of_exact
  intro obs member
  rcases List.mem_append.mp member with ofPaid | ofGateway
  · obtain ⟨entry, -, rfl⟩ := List.mem_map.mp ofPaid
    exact ⟨1, stakeWeight_executePaidProbe _ _⟩
  · obtain ⟨request, -, rfl⟩ := List.mem_map.mp ofGateway
    exact ⟨1, stakeWeight_executeGatewayProbe _ _⟩

/-- A probe that finds someone to ask stores what it paid for exactly when the answers can be
compared. -/
theorem runProbe_of_fallback {fallback : List RawObservation}
    (asked : fallbackObservations world config number input = some fallback) :
    ((runProbe world config paidClient number input).1.stored.isSome ↔
        Comparable (paidObservations world config paidClient number input ++ fallback)) ∧
      ∀ call ∈ (runProbe world config paidClient number input).1.stored,
        call.probe.id = world.probeId number ∧
        call.raw = paidObservations world config paidClient number input ++ fallback ∧
        call.observations = (dedupByAddress call.raw).rows := by
  have clusterable := @computeClusters_isSome_iff
    (paidObservations world config paidClient number input ++ fallback) world.crates
    (world.order number)
  unfold runProbe
  simp only [asked]
  cases computed : computeClusters world.crates (world.order number) (clusterInputs
      (dedupByAddress
        (paidObservations world config paidClient number input ++ fallback)).rows) with
  | none =>
    rw [computed] at clusterable
    exact ⟨clusterable, fun call stored => absurd stored (Option.not_mem_none call)⟩
  | some clusters =>
    rw [computed] at clusterable
    refine ⟨clusterable, ?_⟩
    rintro call stored
    obtain rfl := Option.some.inj stored
    exact ⟨rfl, rfl, rfl⟩

/-- Nobody is asked for free exactly without a gateway and opted-in indexers. -/
theorem fallbackObservations_eq_none_iff : fallbackObservations world config number input = none ↔
    config.gateway = none ∧ config.optedInIndexers = [] := by
  unfold fallbackObservations
  cases config.gateway <;> simp

/-- With nobody to ask for free, the paid answers are not stored. -/
theorem runProbe_of_nobody (nobody : fallbackObservations world config number input = none) :
    runProbe world config paidClient number input =
      (⟨world.probeId number, paidObservations world config paidClient number input, none⟩,
        some .nobodyToAsk) := by
  unfold runProbe
  simp only [nobody]

/-- A probe is stored exactly when the round stores it. -/
theorem stored_runProbe : (runProbe world config paidClient number input).1.stored.isSome ↔
    Stores world config paidClient number input := by
  cases asked : fallbackObservations world config number input with
  | none =>
    obtain ⟨noGateway, nobody⟩ := fallbackObservations_eq_none_iff.mp asked
    rw [runProbe_of_nobody asked]
    simp [Stores, noGateway, nobody]
  | some fallback =>
    rw [(runProbe_of_fallback asked).1]
    cases configured : config.gateway with
    | some gateway =>
      have answers : gatewayObservations world gateway number input = fallback := by
        simpa [fallbackObservations, configured] using asked
      exact iff_of_true (answers ▸ comparable_gateway gateway) (.inl (by rw [configured]; rfl))
    | none =>
      have somebody : config.optedInIndexers ≠ [] := by
        intro nobody
        rw [fallbackObservations_eq_none_iff.mpr ⟨configured, nobody⟩] at asked
        cases asked
      have answers : directObservations world config number input = fallback := by
        simpa [fallbackObservations, configured, somebody] using asked
      simp [Stores, configured, somebody, directRaw, answers]

private theorem paid_runProbe : (runProbe world config paidClient number input).1.paid =
    paidObservations world config paidClient number input := by
  unfold runProbe
  dsimp only
  split
  · rfl
  · split <;> rfl

private theorem probeId_runProbe :
    (runProbe world config paidClient number input).1.probeId = world.probeId number := by
  unfold runProbe
  dsimp only
  split
  · rfl
  · split <;> rfl

/-- A probe records what it paid for when it pays nobody or gets to its store. -/
theorem recorded_runProbe : (runProbe world config paidClient number input).1.Recorded ↔
    (paidTargets world config paidClient number input ≠ [] →
      Stores world config paidClient number input) := by
  rw [← stored_runProbe, ProbeTrace.Recorded, paid_runProbe, Ne, ← paidObservations_eq_nil_iff]
  constructor
  · intro recorded pays
    obtain ⟨obs, paid⟩ := List.exists_mem_of_ne_nil _ pays
    obtain ⟨call, stored, -⟩ := recorded obs paid
    exact Option.isSome_of_mem stored
  · intro stores obs paid
    obtain ⟨call, stored⟩ := Option.isSome_iff_exists.mp (stores (List.ne_nil_of_mem paid))
    cases asked : fallbackObservations world config number input with
    | none =>
      rw [runProbe_of_nobody asked] at stored
      cases stored
    | some fallback =>
      obtain ⟨ofProbe, raw, kept⟩ := (runProbe_of_fallback asked).2 call stored
      exact ⟨call, stored, ofProbe.trans probeId_runProbe.symm,
        raw ▸ List.mem_append_left _ paid, kept⟩

private theorem ended_runProbe : (runProbe world config paidClient number input).2 = none ↔
    Stores world config paidClient number input ∧ world.storeFails number = false := by
  rw [← stored_runProbe]
  unfold runProbe
  dsimp only
  split
  · simp
  · split
    · simp
    · simp

/-- A round gets to its first probe, and to the others if that does not end it. -/
theorem mem_runProbes_cons {rest : List ProbeInput} {trace : ProbeTrace} :
    trace ∈ (runProbes world config paidClient number (input :: rest)).1 ↔
      (runProbe world config paidClient number input).1 = trace ∨
        (runProbe world config paidClient number input).2 = none ∧
          trace ∈ (runProbes world config paidClient (number + 1) rest).1 := by
  rw [runProbes]
  split
  · rename_i first ended step
    rw [step, List.mem_singleton, eq_comm]
    exact (or_iff_left fun through => Option.some_ne_none ended through.1).symm
  · rename_i first step
    rw [step, List.mem_cons, eq_comm, and_iff_right rfl]

/-- The probes of a round are those that all earlier ones left it to get to. -/
theorem mem_runProbes {inputs : List ProbeInput} {trace : ProbeTrace} :
    trace ∈ (runProbes world config paidClient number inputs).1 ↔
      ∃ (position : Nat) (input : ProbeInput), inputs[position]? = some input ∧
        (runProbe world config paidClient (number + position) input).1 = trace ∧
        ∀ earlier < position, ∀ other, inputs[earlier]? = some other →
          (runProbe world config paidClient (number + earlier) other).2 = none := by
  induction inputs generalizing number with
  | nil => simp [runProbes]
  | cons first rest ih =>
    have shift (position : Nat) : number + (position + 1) = number + 1 + position := by omega
    rw [mem_runProbes_cons, ih]
    constructor
    · rintro (here | ⟨open_, position, input, found, traced, through⟩)
      · exact ⟨0, first, rfl, here, fun _ none_ => absurd none_ (Nat.not_lt_zero _)⟩
      · refine ⟨position + 1, input, found, shift position ▸ traced, ?_⟩
        intro earlier before other listed
        cases earlier with
        | zero => exact Option.some.inj listed ▸ open_
        | succ earlier =>
          rw [shift]
          exact through earlier (Nat.lt_of_succ_lt_succ before) other listed
    · rintro ⟨position, input, found, traced, through⟩
      cases position with
      | zero => exact .inl (Option.some.inj found ▸ traced)
      | succ position =>
        refine .inr ⟨through 0 (Nat.succ_pos _) first rfl, position, input, found,
          shift position ▸ traced, ?_⟩
        intro earlier before other listed
        rw [← shift]
        exact through (earlier + 1) (Nat.succ_lt_succ before) other listed

/-- A round records what it paid for when each probe it gets to does. -/
theorem recorded_iff_reached {testSets : List TestSet} :
    (∀ trace ∈ (runProbeRound world config paidClient testSets).1, trace.Recorded) ↔
      ∀ (number : Nat) (input : ProbeInput),
        (probeInputs world config testSets)[number]? = some input →
        (∀ earlier < number, ∀ other, (probeInputs world config testSets)[earlier]? = some other →
          Stores world config paidClient earlier other ∧ world.storeFails earlier = false) →
        paidTargets world config paidClient number input ≠ [] →
        Stores world config paidClient number input := by
  simp only [runProbeRound, mem_runProbes, Nat.zero_add, ended_runProbe]
  constructor
  · intro recorded number input found through
    exact recorded_runProbe.mp (recorded _ ⟨number, input, found, rfl, through⟩)
  · rintro open_ _ ⟨number, input, found, rfl, through⟩
    exact recorded_runProbe.mpr (open_ number input found through)

/-- In a round everything that was paid for is recorded exactly when every way from payment to the
store is open. -/
theorem recorded_runProbeRound_iff (world : RoundWorld) (config : RoundConfig)
    (paidClient : Option Nat) (testSets : List TestSet) :
    (∀ trace ∈ (runProbeRound world config paidClient testSets).1, trace.Recorded) ↔
      RecordsPaid world config paidClient testSets := by
  rw [recorded_iff_reached, RecordsPaid]
  by_cases gateway : config.gateway.isSome
  · exact iff_of_true (fun _ _ _ _ _ => .inl gateway) (.inl gateway)
  · by_cases nobody : config.optedInIndexers = []
    · -- The first probe ends the round, so only its payments matter.
      have never (number : Nat) (input : ProbeInput) :
          ¬ Stores world config paidClient number input := by
        simp [Stores, gateway, nobody]
      simp only [gateway, nobody, never, Bool.false_eq_true, false_or, ne_eq, not_true_eq_false,
        false_and, or_false, true_and, imp_false, Classical.not_not]
      constructor
      · intro free input first
        exact free 0 input (by rw [← List.head?_eq_getElem?]; exact first)
          fun _ none_ => absurd none_ (Nat.not_lt_zero _)
      · intro free number input found through
        cases number with
        | zero => exact free input (by rw [List.head?_eq_getElem?]; exact found)
        | succ number =>
          obtain ⟨short, -⟩ := List.getElem?_eq_some_iff.mp found
          exact absurd (List.getElem?_eq_getElem (Nat.lt_trans (Nat.succ_pos _) short))
            (through 0 (Nat.succ_pos _) _)
    · simp only [Stores, gateway, nobody, Bool.false_eq_true, false_or, ne_eq, not_false_eq_true,
        true_and, false_and]

/-- One payable indexer that answers, and a signer whose key parses. -/
def payableWorld : RoundWorld where
  crates := Crates.knowing [("body", .object [("data", .object [])])] []
  parsesAsKey _ := true
  clientBuilds := true
  lnStake _ := none
  getSafeBlock _ _ _ := some (100, "0xb")
  payableTargets _ deploymentId _ := some [⟨"0x00000000000000000000000000000000000000a1",
    "0x00000000000000000000000000000000000000b1", deploymentId, some "https://indexer"⟩]
  paid _ _ _ := .response 200 10 "body"
  gateway _ _ _ := .clientBuild
  direct _ _ _ := .clientBuild
  probeId _ := 1
  now _ := 0
  order _ := .asInserted
  storeFails _ := false

/-- Payments are configured, a gateway and opted-in indexers are not. -/
def payingConfig : RoundConfig where
  rpcUrls _ := some "https://rpc"
  reorgThreshold := 50
  gateway := none
  optedInIndexers := []
  tap :=
    { enabled := true
      signerKey := some "key"
      verifier := "0x00000000000000000000000000000000000000c1"
      dataService := "0x00000000000000000000000000000000000000d1"
      payer := "0x00000000000000000000000000000000000000e1"
      excludedIndexers := [] }

def oneQuerySet : TestSet where
  deployment := ⟨"Qm", "Qm", "mainnet", none⟩
  queries := [⟨"Q_entity", "query", []⟩]

/-- The indexer is paid and answers, and the round returns before storing the answer. -/
theorem paid_answer_discarded : paidClientOf payableWorld payingConfig = some 8 ∧
    roundResult (runProbeRound payableWorld payingConfig (some 8) [oneQuerySet]) = some 0 ∧
    ¬ ∀ trace ∈ (runProbeRound payableWorld payingConfig (some 8) [oneQuerySet]).1,
      trace.Recorded := by
  have client : paidClientOf payableWorld payingConfig = some 8 := rfl
  have inputs : probeInputs payableWorld payingConfig [oneQuerySet] =
      [⟨oneQuerySet.deployment, 100, "0xb", ⟨"Q_entity", "query", []⟩, none⟩] := rfl
  refine ⟨client, ?_, ?_⟩
  · rw [runProbeRound, inputs]
    rfl
  · rw [recorded_iff_reached, inputs]
    intro recorded
    have stores := recorded 0 _ rfl (fun _ none_ => absurd none_ (Nat.not_lt_zero _))
      (List.cons_ne_nil _ _)
    rcases stores with gateway | ⟨somebody, -⟩
    · cases gateway
    · exact somebody rfl

end Recorded

end Foghorn.Probe
