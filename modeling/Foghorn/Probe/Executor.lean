import Foghorn.Core.Normalize
import Foghorn.Core.Tables
import Foghorn.Probe.Attestation

/-!
# The three dispatch paths

Each path turns one exchange with an indexer or the gateway into a `RawObservation`.
The network is a parameter: a request is answered by some `Exchange`, whatever it may
be. The three classifications of a body are written out three times in the source and
are kept apart here.
-/

namespace Foghorn.Probe

open Foghorn.Core

structure ProbeRequest where
  indexerAddress : String
  indexerUrl : String
  deploymentIpfsHash : String
  query : String
  blockHash : String
  authToken : Option String
  stakeWeight : StakeWeight

structure GatewayProbeRequest where
  gatewayUrl : String
  apiKey : String
  subgraphId : String
  query : String
  blockHash : String

structure PaidProbeRequest where
  indexerAddress : String
  indexerUrl : String
  allocationId : String
  deploymentIpfsHash : String
  query : String
  blockHash : String
  stakeWeight : StakeWeight

structure RawObservation where
  indexerAddress : String
  responseHash : Option String
  rawResponse : Option String
  latencyMs : Int
  metaBlockNumber : Option Int
  metaBlockHash : Option String
  httpStatus : Option Int
  errorClass : Option String
  stakeWeight : StakeWeight
  requestCid : Option String
  responseCid : Option String
  attestation : Option String
  dispatchMode : DispatchMode
deriving DecidableEq

/-- A POST to an indexer or the gateway. -/
structure HttpRequest where
  url : String
  bearerAuth : Option String
  body : Json

/-- What becomes of a request: no client, no response, or a status with the attestation
header and the body, where no body is a read error. -/
inductive Exchange where
  | clientBuild
  | network (elapsedMs : Int)
  | response (status : Nat) (latencyMs : Int) (attestationHeader : Option String)
      (body : Option String)

/-- What a paid query comes back with. -/
inductive PaidExchange where
  | transport
  | response (status : Nat) (latencyMs : Int) (body : String)

/-- The POST of a paid query, as the paying client is called. -/
structure PaidRequest where
  indexerUrl : String
  indexer : String
  allocation : String
  deploymentIpfsHash : String
  body : String

/-- `trim_end_matches('/')`. -/
def trimEndSlashes (text : String) : String :=
  String.ofList (text.toList.reverse.dropWhile fun c => c = '/').reverse

/-- The body of every probe: the query and the pinned block. -/
def probeBody (query blockHash : String) : Json :=
  .object [("query", .string query),
    ("variables", .object [("block", .object [("hash", .string blockHash)])])]

/-- An IPFS hash is a deployment; anything else is a subgraph id. -/
def gatewayRequest (req : GatewayProbeRequest) : HttpRequest where
  url :=
    let path := if startsWithText req.subgraphId "Qm" then "deployments/id" else "subgraphs/id"
    trimEndSlashes req.gatewayUrl ++ "/" ++ req.apiKey ++ "/" ++ path ++ "/" ++ req.subgraphId
  bearerAuth := none
  body := probeBody req.query req.blockHash

def directRequest (req : ProbeRequest) : HttpRequest where
  url := trimEndSlashes req.indexerUrl ++ "/subgraphs/id/" ++ req.deploymentIpfsHash
  bearerAuth := req.authToken
  body := probeBody req.query req.blockHash

/-- `StatusCode::is_success`. -/
def isSuccess (status : Nat) : Bool := 200 ≤ status ∧ status < 300

def gatewayErrorObservation (class_ : String) : RawObservation where
  indexerAddress := "gateway-error"
  responseHash := none
  rawResponse := none
  latencyMs := 0
  metaBlockNumber := none
  metaBlockHash := none
  httpStatus := none
  errorClass := some class_
  stakeWeight := .exact 1
  dispatchMode := .gateway
  requestCid := none
  responseCid := none
  attestation := none

def errorObservation (addr : String) (stakeWeight : StakeWeight) (latencyMs : Option Int)
    (class_ : String) : RawObservation where
  indexerAddress := addr
  responseHash := none
  rawResponse := none
  latencyMs := latencyMs.getD 0
  metaBlockNumber := none
  metaBlockHash := none
  httpStatus := none
  errorClass := some class_
  stakeWeight := stakeWeight
  dispatchMode := .paid
  requestCid := none
  responseCid := none
  attestation := none

/-- `data._meta.block` of a parsed body. -/
def extractMeta (value : Json) : Option Int × Option String :=
  match ((value.get "data").bind fun data => data.get "_meta").bind fun m => m.get "block" with
  | some block => ((block.index "number").asI64, (block.index "hash").asStr)
  | none => (none, none)

/-- `parsed.as_ref().map(extract_meta).unwrap_or((None, None))`. -/
def metaOf (parsed : Option Json) : Option Int × Option String :=
  (parsed.map extractMeta).getD (none, none)

/-- The gateway path: any `errors` member is an error, a body that is not JSON is none. -/
def gatewayErrorClass (parsed : Option Json) : Option String :=
  parsed.bind fun value => if (value.get "errors").isSome then some "graphql_error" else none

/-- The direct path: any `errors` member, or a body that is not JSON. -/
def directErrorClass (parsed : Option Json) : Option String :=
  (parsed.bind fun value =>
    if (value.get "errors").isSome then some "graphql_error" else none).or
    (if parsed.isNone then some "invalid_json" else none)

/-- The paid path: a nonempty `errors` array, or a payload that is not JSON. -/
def paidErrorClass (parsed : Option Json) : Option String :=
  (parsed.bind fun value =>
    (((value.get "errors").bind Json.asArray).filter fun items => !items.isEmpty).map
      fun _ => "graphql_error").or
    (if parsed.isNone then some "invalid_json" else none)

/-- An answer is hashed only when nothing was wrong with it. -/
def answerHash (crates : Crates) (errorClass : Option String) (body : String) : Option String :=
  if errorClass.isNone then normalizeAndHash crates body else none

def executeGatewayProbe (crates : Crates) (network : HttpRequest → Exchange)
    (req : GatewayProbeRequest) : RawObservation :=
  match network (gatewayRequest req) with
  | .clientBuild => gatewayErrorObservation "client_build"
  | .network _ => gatewayErrorObservation "network_error"
  | .response status latencyMs attestationHeader body =>
    if !isSuccess status then
      { gatewayErrorObservation "http_error" with
        latencyMs := latencyMs
        httpStatus := some status }
    else match body with
      | none => gatewayErrorObservation "body_error"
      | some bodyText =>
        let parsed := crates.parse bodyText
        let errorClass := gatewayErrorClass parsed
        let cids := attestationHeader.bind (attestationCids crates)
        { indexerAddress :=
            match attestationHeader with
            | some header => parseAttestationAddress crates header
            | none => "gateway-no-attestation"
          responseHash := answerHash crates errorClass bodyText
          rawResponse := some bodyText
          latencyMs := latencyMs
          metaBlockNumber := (metaOf parsed).1
          metaBlockHash := (metaOf parsed).2
          httpStatus := some status
          errorClass := errorClass
          stakeWeight := .exact 1
          dispatchMode := .gateway
          requestCid := cids.map Prod.fst
          responseCid := cids.map Prod.snd
          attestation := attestationHeader }

def executeProbe (crates : Crates) (network : HttpRequest → Exchange) (req : ProbeRequest) :
    RawObservation :=
  match network (directRequest req) with
  | .clientBuild => errorObservation req.indexerAddress req.stakeWeight none "client_build"
  | .network elapsedMs =>
    errorObservation req.indexerAddress req.stakeWeight (some elapsedMs) "network_error"
  | .response status latencyMs _ body =>
    if !isSuccess status then
      { errorObservation req.indexerAddress req.stakeWeight (some latencyMs) "http_error" with
        httpStatus := some status }
    else match body with
      | none =>
        { errorObservation req.indexerAddress req.stakeWeight (some latencyMs) "body_error" with
          httpStatus := some status }
      | some bodyText =>
        let parsed := crates.parse bodyText
        let errorClass := directErrorClass parsed
        { indexerAddress := req.indexerAddress
          responseHash := answerHash crates errorClass bodyText
          rawResponse := some bodyText
          latencyMs := latencyMs
          metaBlockNumber := (metaOf parsed).1
          metaBlockHash := (metaOf parsed).2
          httpStatus := some status
          errorClass := errorClass
          stakeWeight := req.stakeWeight
          dispatchMode := .paid
          requestCid := none
          responseCid := none
          attestation := none }

/-- What a refused payment is recorded as, when the response is one. -/
def paymentRefusal (crates : Crates) (status : Nat) (body : String) : Option String :=
  if status = 402 then some "payment_refused"
  else if status = 400 then
    let body := crates.lowercase body
    if containsText body "denylist" then some "payment_denylisted"
    else if containsText body "issues with provided receipt" || containsText body "receipt error" then
      some "payment_refused"
    else none
  else none

/-- The GraphQL text inside a paid envelope, and the attestation beside it. A body
without a `graphQLResponse` string is its own payload. -/
def openEnvelope (crates : Crates) (body : String) : String × Option String :=
  match crates.parse body with
  | some value =>
    ((((value.get "graphQLResponse").bind Json.asStr).getD body),
      (value.get "attestation").map fun attestation => attestation.render crates)
  | none => (body, none)

def executePaidProbe (crates : Crates) (client : PaidRequest → PaidExchange)
    (req : PaidProbeRequest) : RawObservation :=
  if !crates.parsesAsAddress req.indexerAddress then
    errorObservation req.indexerAddress req.stakeWeight none "bad_indexer_address"
  else if !crates.parsesAsAddress req.allocationId then
    errorObservation req.indexerAddress req.stakeWeight none "bad_allocation_id"
  else match client ⟨req.indexerUrl, req.indexerAddress, req.allocationId, req.deploymentIpfsHash,
      (probeBody req.query req.blockHash).render crates⟩ with
    | .transport => errorObservation req.indexerAddress req.stakeWeight none "network_error"
    | .response status latencyMs body =>
      match paymentRefusal crates status body with
      | some class_ =>
        errorObservation req.indexerAddress req.stakeWeight (some latencyMs) class_
      | none =>
        if status ≠ 200 then
          { errorObservation req.indexerAddress req.stakeWeight (some latencyMs) "http_error" with
            httpStatus := some status }
        else
          let (payload, attestation) := openEnvelope crates body
          let cids := attestation.bind (attestationCids crates)
          let parsed := crates.parse payload
          let errorClass := paidErrorClass parsed
          { indexerAddress := req.indexerAddress
            responseHash := answerHash crates errorClass payload
            rawResponse := some payload
            latencyMs := latencyMs
            metaBlockNumber := (metaOf parsed).1
            metaBlockHash := (metaOf parsed).2
            httpStatus := some 200
            errorClass := errorClass
            stakeWeight := req.stakeWeight
            dispatchMode := .paid
            requestCid := cids.map Prod.fst
            responseCid := cids.map Prod.snd
            attestation := attestation }

end Foghorn.Probe
