import Foghorn.Probe.Escrow
import Foghorn.Probe.Round
import Foghorn.Std.Reorg

/-!
# The safe block

Two requests to a node find the block that probes are pinned to: its number is the head of the
first less a threshold, and its hash is what the node has under that number at the second. The
node moves on in between, and its last blocks may give way before, between and after.
-/

namespace Foghorn.Probe

open Foghorn.Std Foghorn.Core

/-- `format!("0x{:x}", number)`. -/
def quantity (number : Nat) : String := "0x" ++ String.ofList (Nat.toDigits 16 number)

/-- `u64::from_str_radix(digits, 16)`, which allows for a sign. -/
def parseHexU64 (digits : List Char) : Option Nat :=
  if dropSign digits = [] then none
  else (hexNumber (dropSign digits)).filter fun number => number < 2 ^ 64

def rpcBody (method : String) (params : List Json) (id : Nat) : Json :=
  .object [("jsonrpc", .string "2.0"), ("method", .string method), ("params", .array params),
    ("id", .number (.posInt id))]

def blockNumberBody : Json := rpcBody "eth_blockNumber" [] 1

def blockByNumberBody (number : Nat) : Json :=
  rpcBody "eth_getBlockByNumber" [.string (quantity number), .bool false] 2

/-- `get_safe_block`, from what the node answers to each of its calls. -/
def getSafeBlock (ask : Nat → Json → Option Json) (reorgThreshold : Nat) :
    Option (Nat × String) := do
  let resp ← ask 0 blockNumberBody
  let hexNum ← (resp.index "result").asStr
  let currentBlock ← parseHexU64 (trimHexMarker hexNum.toList)
  let safeBlock := currentBlock - reorgThreshold
  let resp ← ask 1 (blockByNumberBody safeBlock)
  let hash ← ((resp.index "result").index "hash").asStr
  some (safeBlock, hash)

/-- What `get_safe_block` relies on of a node that has a chain of hashes: it knows the number of
its head, and the hash that it has under a number. -/
structure ServesChain (ask : Json → Option Json) (chain : List String) : Prop where
  head : ∀ body : Json, (body.index "method").asStr = some "eth_blockNumber" →
    ∃ resp, ask body = some resp ∧
      (resp.index "result").asStr = some (quantity (chain.length - 1))
  block : ∀ (body : Json) (number : Nat),
    (body.index "method").asStr = some "eth_getBlockByNumber" →
    body.index "params" = .array [.string (quantity number), .bool false] →
    ∃ resp, ask body = some resp ∧ ((resp.index "result").index "hash").asStr = chain[number]?

/-- A node that answers nothing but these two calls. -/
def serve (chain : List String) (body : Json) : Json :=
  if (body.index "method").asStr = some "eth_blockNumber" then
    .object [("result", .string (quantity (chain.length - 1)))]
  else if (body.index "method").asStr = some "eth_getBlockByNumber" then
    let wanted := ((body.index "params").asArray.bind List.head?).bind Json.asStr
    match chain.zipIdx.find? fun entry => wanted = some (quantity entry.2) with
    | some entry => .object [("result", .object [("hash", .string entry.1)])]
    | none => .object [("result", .null)]
  else .object []

section Quantity

private theorem hexDigit_digitChar {digit : Nat} (small : digit < 16) :
    hexDigit (Nat.digitChar digit) = some digit.toUInt8 := by
  have table : ∀ digit < 16, hexDigit (Nat.digitChar digit) = some digit.toUInt8 := by decide
  exact table digit small

private theorem toNat_toUInt8_of_lt {digit : Nat} (small : digit < 16) :
    digit.toUInt8.toNat = digit := by
  rw [Nat.toUInt8, UInt8.toNat_ofNat']
  exact Nat.mod_eq_of_lt (small.trans (by decide))

private theorem hexNumber_concat {digits : List Char} {digit : Char} {number : Nat} {nibble : UInt8}
    (read : hexNumber digits = some number) (last : hexDigit digit = some nibble) :
    hexNumber (digits ++ [digit]) = some (number * 16 + nibble.toNat) := by
  obtain ⟨nibbles, each, rfl⟩ := Option.map_eq_some_iff.mp read
  rw [hexNumber, List.mapM_append, each]
  simp [last]

/-- What is formatted is read back. -/
theorem hexNumber_toDigits (number : Nat) : hexNumber (Nat.toDigits 16 number) = some number := by
  induction number using Nat.strongRecOn with
  | ind number ih =>
    by_cases small : number < 16
    · rw [Nat.toDigits_of_lt_base small]
      have none_read : hexNumber [] = some 0 := rfl
      have read := hexNumber_concat none_read (hexDigit_digitChar small)
      rwa [toNat_toUInt8_of_lt small, Nat.zero_mul, Nat.zero_add] at read
    · have last := Nat.mod_lt number (by decide : 16 > 0)
      have shorter : number / 16 < number := Nat.div_lt_self (by omega) (by decide)
      have read := hexNumber_concat (ih (number / 16) shorter) (hexDigit_digitChar last)
      rw [Nat.toDigits_of_base_le (by decide) (not_lt.mp small), read, toNat_toUInt8_of_lt last,
        Nat.mul_comm, Nat.div_add_mod]

private theorem exists_hexDigit_of_hexNumber {digits : List Char} {number : Nat}
    (read : hexNumber digits = some number) {c : Char} (member : c ∈ digits) :
    ∃ nibble, hexDigit c = some nibble := by
  obtain ⟨nibbles, each, -⟩ := Option.map_eq_some_iff.mp read
  obtain ⟨nibble, held, -⟩ := exists_of_forall₂_forall₂ (mapM_eq_some_iff.mp each)
    (mapM_eq_some_iff.mp each) member
  exact ⟨nibble, held⟩

/-- A formatted number is read back, if it fits. -/
theorem parseHexU64_quantity {number : Nat} (fits : number < 2 ^ 64) :
    parseHexU64 (trimHexMarker (quantity number).toList) = some number := by
  have read := hexNumber_toDigits number
  have digit {c : Char} (member : c ∈ Nat.toDigits 16 number) : ∃ nibble, hexDigit c = some nibble :=
    exists_hexDigit_of_hexNumber read member
  have text : (quantity number).toList = '0' :: 'x' :: Nat.toDigits 16 number := by
    simp [quantity, String.toList_append]
  have trimmed : trimHexMarker (Nat.toDigits 16 number) = Nat.toDigits 16 number := by
    unfold trimHexMarker
    split
    · next rest shape =>
      obtain ⟨nibble, read⟩ := digit (c := 'x') (by rw [shape]; simp)
      have unread : hexDigit 'x' = none := by decide
      rw [unread] at read
      cases read
    · rfl
  have unsigned : dropSign (Nat.toDigits 16 number) = Nat.toDigits 16 number := by
    unfold dropSign
    split
    · next rest shape =>
      obtain ⟨nibble, read⟩ := digit (c := '+') (by rw [shape]; simp)
      have unread : hexDigit '+' = none := by decide
      rw [unread] at read
      cases read
    · rfl
  rw [text, trimHexMarker, trimmed, parseHexU64, unsigned, if_neg Nat.toDigits_ne_nil, read,
    Option.filter_some, if_pos (by simpa using fits)]

private theorem quantity_injective {left right : Nat} (same : quantity left = quantity right) :
    left = right := by
  have texts := congrArg String.toList same
  simp only [quantity, String.toList_append, String.toList_ofList, List.append_cancel_left_eq] at texts
  have read := hexNumber_toDigits left
  rw [texts, hexNumber_toDigits] at read
  exact (Option.some.inj read).symm

end Quantity

section Served

variable {chain : List String} {number : Nat}

/-- An index is found under its own number. -/
theorem find?_zipIdx (chain : List String) (start number : Nat) :
    ((chain.zipIdx start).find? fun entry => entry.2 = start + number).map Prod.fst =
      chain[number]? := by
  induction chain generalizing start number with
  | nil => rfl
  | cons first rest ih =>
    rw [List.zipIdx_cons, List.find?_cons]
    cases number with
    | zero => simp
    | succ number =>
      have apart : ¬ start = start + (number + 1) := by omega
      have shift : start + (number + 1) = start + 1 + number := by omega
      rw [decide_eq_false apart, shift, List.getElem?_cons_succ]
      exact ih (start + 1) number

private theorem serve_block {body : Json}
    (called : (body.index "method").asStr = some "eth_getBlockByNumber")
    (params : body.index "params" = .array [.string (quantity number), .bool false]) :
    (((serve chain body).index "result").index "hash").asStr = chain[number]? := by
  have wanted : (fun entry : String × Nat =>
    decide (some (quantity number) = some (quantity entry.2))) =
      fun entry => decide (entry.2 = 0 + number) := by
    funext entry
    rw [decide_eq_decide, Option.some.injEq, Nat.zero_add]
    exact ⟨fun same => (quantity_injective same).symm, fun same => by rw [same]⟩
  have found := find?_zipIdx chain 0 number
  rw [← wanted] at found
  have served : serve chain body =
      match chain.zipIdx.find? fun entry => some (quantity number) = some (quantity entry.2) with
      | some entry => .object [("result", .object [("hash", .string entry.1)])]
      | none => .object [("result", .null)] := by
    unfold serve
    rw [called, params]
    rfl
  rw [← found, served]
  cases chain.zipIdx.find? fun entry => decide (some (quantity number) = some (quantity entry.2)) with
  | some entry => rfl
  | none => rfl

/-- Such a node serves its chain. -/
theorem servesChain_serve (chain : List String) :
    ServesChain (fun body => some (serve chain body)) chain where
  head body called := ⟨_, rfl, by rw [serve, if_pos called]; rfl⟩
  block _ _ called params := ⟨_, rfl, serve_block called params⟩

/-- What a node is asked for is a number below its head, and the hash is of a later moment. -/
theorem getSafeBlock_eq {ask : Nat → Json → Option Json} {first second : List String}
    {threshold : Nat} (asked : ServesChain (ask 0) first) (again : ServesChain (ask 1) second)
    (fits : first.length ≤ 2 ^ 64) :
    getSafeBlock ask threshold = second[first.length - 1 - threshold]?.map fun hash =>
      (first.length - 1 - threshold, hash) := by
  have small : first.length - 1 < 2 ^ 64 := by omega
  obtain ⟨resp, answered, head⟩ := asked.head blockNumberBody rfl
  obtain ⟨resp', answered', block⟩ :=
    again.block (blockByNumberBody (first.length - 1 - threshold)) _ rfl rfl
  simp only [getSafeBlock, Option.bind_eq_bind, answered, Option.bind_some, head,
    parseHexU64_quantity small, answered', block]
  rw [Option.map_eq_bind]
  rfl

end Served

section Settled

variable {depth : Nat} {ask : Nat → List String → Json → Option Json}

/-- What `get_safe_block` finds at a node, by what the node answers to each of the calls while it
has a chain, if it is called at two moments of its history. -/
def safeBlockAt (ask : Nat → List String → Json → Option Json) (history : ChainHistory String depth)
    (first second threshold : Nat) : Option (Nat × String) :=
  getSafeBlock (fun call => ask call (history.at_ (if call = 0 then first else second))) threshold

/-- The safe block is the one the threshold below the first answer's head, as the second has it. -/
theorem safeBlockAt_eq (serves : ∀ call chain, ServesChain (ask call chain) chain)
    {history : ChainHistory String depth} {first second threshold : Nat}
    (fits : (history.at_ first).length ≤ 2 ^ 64) : safeBlockAt ask history first second threshold =
      (history.at_ second)[(history.at_ first).length - 1 - threshold]?.map fun hash =>
        ((history.at_ first).length - 1 - threshold, hash) :=
  getSafeBlock_eq (serves 0 (history.at_ first)) (serves 1 (history.at_ second)) fits

/-- Below a threshold that no step reaches, the block is settled when its number is read. -/
theorem safe_number_settled {chain : List String} {threshold : Nat} (occupied : chain ≠ [])
    (deep : depth ≤ threshold ∨ chain.length ≤ threshold + 1) :
    chain.length - 1 - threshold < chain.length ∧
      chain.length - 1 - threshold < settledLength depth chain := by
  have some_blocks := List.length_pos_iff.mpr occupied
  unfold settledLength
  omega

/-- What is found then stays. -/
theorem safeBlockAt_settled (serves : ∀ call chain, ServesChain (ask call chain) chain)
    {history : ChainHistory String depth} {first second threshold : Nat}
    (fits : (history.at_ first).length ≤ 2 ^ 64) (order : first ≤ second)
    (deep : depth ≤ threshold ∨ (history.at_ first).length ≤ threshold + 1) :
    ∃ hash, safeBlockAt ask history first second threshold =
        some ((history.at_ first).length - 1 - threshold, hash) ∧
      ∀ later, second ≤ later →
        (history.at_ later)[(history.at_ first).length - 1 - threshold]? = some hash := by
  obtain ⟨inside, settled⟩ := safe_number_settled (history.occupied first) deep
  have stays {later : Nat} (after : first ≤ later) := history.getElem?_eq after inside settled
  have listed := List.getElem?_eq_getElem inside
  refine ⟨_, ?_, fun later after => (stays (order.trans after)).trans listed⟩
  rw [safeBlockAt_eq serves fits, stays order, listed, Option.map_some]

/-- The block that probes are pinned to is on the chain ever after, whatever the node's chain
does, exactly when no step is deeper than the threshold, or there is only the first block to
take. -/
theorem safe_block_stays_iff (ask : Nat → List String → Json → Option Json)
    (serves : ∀ call chain, ServesChain (ask call chain) chain) (depth threshold : Nat)
    (chain : List String) (occupied : chain ≠ []) (fits : chain.length ≤ 2 ^ 64) :
    (∀ (history : ChainHistory String depth) (first second : Nat), history.at_ first = chain →
      first ≤ second → ∃ number hash, safeBlockAt ask history first second threshold =
        some (number, hash) ∧
        ∀ later, second ≤ later → (history.at_ later)[number]? = some hash) ↔
      depth ≤ threshold ∨ chain.length ≤ threshold + 1 := by
  constructor
  · intro stays
    by_contra shallow
    have inside : chain.length - 1 - threshold < chain.length := by omega
    have unsettled : settledLength depth chain ≤ chain.length - 1 - threshold := by
      unfold settledLength
      omega
    -- A step that puts another block there, after both calls.
    have step := exists_reorg inside unsettled (chain[chain.length - 1 - threshold] ++ "'")
    obtain ⟨number, hash, found, ever⟩ :=
      stays (.once occupied step) 0 0 rfl le_rfl
    rw [safeBlockAt_eq serves (by exact fits)] at found
    obtain ⟨listed, there, same⟩ := Option.map_eq_some_iff.mp found
    cases same
    have was : chain[chain.length - 1 - threshold]? = some hash := there
    have is_now : (chain.set (chain.length - 1 - threshold) (chain[chain.length - 1 - threshold] ++ "'"))[
        chain.length - 1 - threshold]? = some hash := ever 1 (Nat.zero_le 1)
    rw [List.getElem?_eq_getElem inside, Option.some.injEq] at was
    rw [List.getElem?_set_self inside, Option.some.injEq, was] at is_now
    have longer := congrArg String.length is_now
    rw [String.length_append] at longer
    exact absurd longer (by simp)
  · rintro deep history first second rfl order
    obtain ⟨hash, found, ever⟩ := safeBlockAt_settled serves fits order deep
    exact ⟨_, hash, found, ever⟩

/-- The same node at every moment. -/
def plainNode (_ : Nat) (chain : List String) (body : Json) : Option Json := some (serve chain body)

/-- The plain node serves the chain it is given. -/
theorem servesChain_plainNode (call : Nat) (chain : List String) :
    ServesChain (plainNode call chain) chain := servesChain_serve chain

/-- A step of two blocks reaches past a threshold of one. -/
theorem two_blocks_unsettle : ¬ ∀ (history : ChainHistory String 2) (first second : Nat),
    history.at_ first = ["0xg", "0xa", "0xb"] → first ≤ second →
      ∃ number hash, safeBlockAt plainNode history first second 1 = some (number, hash) ∧
        ∀ later, second ≤ later → (history.at_ later)[number]? = some hash := by
  rw [safe_block_stays_iff plainNode servesChain_plainNode 2 1 _ (List.cons_ne_nil _ _) (by decide)]
  decide

/-- The nodes of a round answer from chains that move on, or not at all. -/
structure AsksNodes (world : RoundWorld) (history : String → ChainHistory String depth)
    (moment : Nat → Nat → Nat) : Prop where
  asks : ∀ testSet url threshold, world.getSafeBlock testSet url threshold = none ∨
    ∃ ask, (∀ call chain, ServesChain (ask call chain) chain) ∧
      world.getSafeBlock testSet url threshold =
        safeBlockAt ask (history url) (moment testSet 0) (moment testSet 1) threshold
  ordered : ∀ testSet, moment testSet 0 ≤ moment testSet 1
  fits : ∀ url moment, ((history url).at_ moment).length ≤ 2 ^ 64

variable {world : RoundWorld} {config : RoundConfig} {paidClient : Option Nat} {number : Nat}
  {input : ProbeInput}

private theorem probe_of_stored {call : StoreCall}
    (stored : call ∈ (runProbe world config paidClient number input).1.stored) :
    call.probe = probeRow world number input := by
  unfold runProbe at stored
  dsimp only at stored
  split at stored
  · cases stored
  · split at stored
    · cases stored
    · cases stored
      rfl

/-- A round probes each test set at the safe block of its network. -/
theorem mem_probeInputs {testSets : List TestSet}
    (member : input ∈ probeInputs world config testSets) :
    ∃ number testSet url, testSets[number]? = some testSet ∧
      config.rpcUrls testSet.deployment.network = some url ∧
      world.getSafeBlock number url config.reorgThreshold =
        some (input.blockNumber, input.blockHash) ∧
      input.deployment = testSet.deployment := by
  obtain ⟨⟨testSet, number⟩, listed, among⟩ := List.mem_flatMap.mp member
  unfold inputsOfTestSet at among
  split at among
  · cases among
  · next blockNumber blockHash found =>
    obtain ⟨url, known, safe⟩ := Option.bind_eq_some_iff.mp found
    obtain ⟨query, -, of_query⟩ := List.mem_flatMap.mp among
    obtain ⟨entityId, -, rfl⟩ := List.mem_map.mp of_query
    exact ⟨number, testSet, url, List.mem_zipIdx_iff_getElem?.mp listed, known, safe, rfl⟩

/-- Whatever a round pays, asks and fails at: every probe that it stores is of a block that the
chain of its network has under that number ever after, if no step is deeper than the threshold. -/
theorem stored_probes_settled (world : RoundWorld) (config : RoundConfig) (paidClient : Option Nat)
    (testSets : List TestSet) (history : String → ChainHistory String depth) (moment : Nat → Nat → Nat)
    (nodes : AsksNodes world history moment) (deep : depth ≤ config.reorgThreshold) :
    ∀ trace ∈ (runProbeRound world config paidClient testSets).1, ∀ call ∈ trace.stored,
      ∃ (number : Nat) (testSet : TestSet) (url : String) (height : Nat),
        testSets[number]? = some testSet ∧ config.rpcUrls testSet.deployment.network = some url ∧
        call.probe.deploymentId = testSet.deployment.id ∧ call.probe.blockNumber = height ∧
        ∀ later, moment number 1 ≤ later →
          ((history url).at_ later)[height]? = some call.probe.blockHash := by
  intro trace traced call stored
  obtain ⟨position, input, listed, rfl, -⟩ := mem_runProbes.mp traced
  obtain ⟨number, testSet, url, among, known, safe, deployment⟩ :=
    mem_probeInputs (List.mem_of_getElem? listed)
  have row := probe_of_stored stored
  refine ⟨number, testSet, url, input.blockNumber, among, known, by rw [row, probeRow, deployment],
    by rw [row, probeRow], ?_⟩
  rcases nodes.asks number url config.reorgThreshold with unanswered | ⟨ask, serves, answered⟩
  · rw [unanswered] at safe
    cases safe
  · obtain ⟨hash, found, ever⟩ := safeBlockAt_settled serves (nodes.fits url _)
      (nodes.ordered number) (.inl deep)
    rw [answered, found, Option.some.injEq, Prod.mk.injEq] at safe
    intro later after
    rw [row, probeRow, ← safe.1]
    dsimp only
    rw [← safe.2]
    exact ever later after

/-- The newest of three blocks gives way to two others. -/
def replacedHead : ChainHistory String 1 :=
  have replaced : Reorg 1 ["0xg", "0xa", "0xb"] ["0xg", "0xa", "0xc", "0xd"] :=
    ⟨by decide, by decide⟩
  .once (List.cons_ne_nil _ _) replaced

/-- A node that is asked before and after that. -/
def replacingWorld : RoundWorld :=
  { payableWorld with
    getSafeBlock := fun _ _ threshold => safeBlockAt plainNode replacedHead 0 1 threshold }

private theorem asksNodes_replacingWorld :
    AsksNodes replacingWorld (fun _ => replacedHead) fun _ call => call where
  asks _ _ _ := .inr ⟨plainNode, servesChain_plainNode, rfl⟩
  ordered _ := Nat.zero_le 1
  fits _ moment := by
    cases moment with
    | zero => decide
    | succ moment => exact (by decide : 4 ≤ 2 ^ 64)

def gatewayConfig : RoundConfig :=
  { payingConfig with
    reorgThreshold := 1
    gateway := some ⟨"key", "https://gateway", 1⟩ }

/-- The probe is of the block below the one that gave way. -/
theorem replacingWorld_settled :
    ((runProbeRound replacingWorld gatewayConfig none [oneQuerySet]).1.filterMap
        ProbeTrace.stored).map (fun call => call.probe.blockHash) = ["0xa"] ∧
      ∀ trace ∈ (runProbeRound replacingWorld gatewayConfig none [oneQuerySet]).1,
        ∀ call ∈ trace.stored, ∃ height : Nat, call.probe.blockNumber = height ∧
          (replacedHead.at_ 7)[height]? = some call.probe.blockHash := by
  refine ⟨by decide, fun trace traced call stored => ?_⟩
  obtain ⟨number, testSet, url, height, -, -, -, numbered, ever⟩ :=
    stored_probes_settled replacingWorld gatewayConfig none [oneQuerySet] (fun _ => replacedHead)
      (fun _ call => call) asksNodes_replacingWorld le_rfl trace traced call stored
  exact ⟨height, numbered, ever 7 (by decide)⟩

end Settled

end Foghorn.Probe
