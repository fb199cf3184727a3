import Foghorn.Probe.Executor

/-!
# What the three dispatch paths agree on

An observation is read twice: the rollup counts a success where nothing was wrong and
the status was 200, the grades count an error where something was wrong or nothing was
hashed. `Coherent` says the two readings are complementary. The paid path always
delivers it; `Dispatch.Misread` is exactly where the other two do not. `judgedAlike_iff_plainAnswer`
says for which payloads all three paths judge the same answer alike.
-/

namespace Foghorn.Probe

open Foghorn.Core

/-- One observation being made: the path, its request and the network around it. -/
inductive Dispatch where
  | gateway (network : HttpRequest → Exchange) (req : GatewayProbeRequest)
  | direct (network : HttpRequest → Exchange) (req : ProbeRequest)
  | paid (client : PaidRequest → PaidExchange) (req : PaidProbeRequest)

def Dispatch.execute (crates : Crates) : Dispatch → RawObservation
  | .gateway network req => executeGatewayProbe crates network req
  | .direct network req => executeProbe crates network req
  | .paid client req => executePaidProbe crates client req

namespace RawObservation

/-- `error_class IS NULL AND http_status = 200`, a success in the rollup. -/
def RolledUpAsSuccess (obs : RawObservation) : Prop :=
  obs.errorClass = none ∧ obs.httpStatus = some 200

/-- `error_class IS NOT NULL OR response_hash IS NULL`, an error in the grades. -/
def GradedAsError (obs : RawObservation) : Prop :=
  obs.errorClass ≠ none ∨ obs.responseHash = none

/-- The hash is there exactly for a clean 200, and the two readings are complementary. -/
structure Coherent (obs : RawObservation) : Prop where
  hashed : obs.responseHash.isSome ↔ obs.errorClass = none ∧ obs.httpStatus = some 200
  agrees : obs.RolledUpAsSuccess ↔ ¬ obs.GradedAsError

/-- An answer with an error and no hash is coherent. -/
theorem coherent_of_error {obs : RawObservation} (wrong : obs.errorClass.isSome)
    (unhashed : obs.responseHash = none) : obs.Coherent := by
  obtain ⟨class_, classEq⟩ := Option.isSome_iff_exists.mp wrong
  exact ⟨by simp [unhashed, classEq], by simp [RolledUpAsSuccess, GradedAsError, classEq]⟩

/-- Where nothing was wrong, coherence is that the hash and the status come together. -/
theorem coherent_iff_of_clean {obs : RawObservation} (clean : obs.errorClass = none) :
    obs.Coherent ↔ (obs.responseHash.isSome ↔ obs.httpStatus = some 200) := by
  constructor
  · intro coherent
    simpa [clean] using coherent.hashed
  · intro together
    refine ⟨by simpa [clean] using together, ?_⟩
    simp only [RolledUpAsSuccess, GradedAsError, clean, ne_eq, not_true_eq_false, false_or,
      true_and, ← together, Option.isSome_iff_ne_none]

end RawObservation

/-- A clean success whose status and hash disagree: a 200 without JSON on the gateway
path, and on both HTTP paths a JSON answer without errors under another 2xx status. -/
def Dispatch.Misread (crates : Crates) : Dispatch → Prop
  | .gateway network req => ∃ status latencyMs header body,
      network (gatewayRequest req) = .response status latencyMs header (some body) ∧
      isSuccess status ∧
      (status = 200 ∧ crates.parse body = none ∨
        status ≠ 200 ∧ ∃ value, crates.parse body = some value ∧ value.get "errors" = none)
  | .direct network req => ∃ status latencyMs header body,
      network (directRequest req) = .response status latencyMs header (some body) ∧
      isSuccess status ∧
      status ≠ 200 ∧ ∃ value, crates.parse body = some value ∧ value.get "errors" = none
  | .paid _ _ => False

/-- A gateway probe's observation is coherent unless its exchange is misread. -/
theorem gateway_coherent_iff (crates : Crates) (network : HttpRequest → Exchange)
    (req : GatewayProbeRequest) :
    (executeGatewayProbe crates network req).Coherent ↔
      ¬ (Dispatch.gateway network req).Misread crates := by
  simp only [Dispatch.Misread]
  cases exchange : network (gatewayRequest req) with
  | clientBuild =>
    simp [executeGatewayProbe, exchange, RawObservation.coherent_of_error, gatewayErrorObservation]
  | network elapsedMs =>
    simp [executeGatewayProbe, exchange, RawObservation.coherent_of_error, gatewayErrorObservation]
  | response status latencyMs header body =>
    by_cases success : isSuccess status
    · cases body with
      | none =>
        simp [executeGatewayProbe, exchange, success, RawObservation.coherent_of_error,
          gatewayErrorObservation]
      | some bodyText =>
        cases parsed : crates.parse bodyText with
        | none =>
          -- No error class for a body that is not JSON, and no hash either.
          rw [RawObservation.coherent_iff_of_clean (by
            simp [executeGatewayProbe, exchange, success, parsed, gatewayErrorClass])]
          simp [executeGatewayProbe, exchange, success, parsed, gatewayErrorClass, answerHash,
            normalizeAndHash]
          omega
        | some value =>
          cases errors : value.get "errors" with
          | none =>
            rw [RawObservation.coherent_iff_of_clean (by
              simp [executeGatewayProbe, exchange, success, parsed, gatewayErrorClass, errors])]
            simp [executeGatewayProbe, exchange, success, parsed, gatewayErrorClass, errors,
              answerHash]
            omega
          | some list =>
            simp [executeGatewayProbe, exchange, success, parsed, gatewayErrorClass, errors,
              answerHash, RawObservation.coherent_of_error]
    · simp [executeGatewayProbe, exchange, success, RawObservation.coherent_of_error,
        gatewayErrorObservation]

/-- A direct probe's observation is coherent unless its exchange is misread. -/
theorem direct_coherent_iff (crates : Crates) (network : HttpRequest → Exchange)
    (req : ProbeRequest) :
    (executeProbe crates network req).Coherent ↔ ¬ (Dispatch.direct network req).Misread crates := by
  simp only [Dispatch.Misread]
  cases exchange : network (directRequest req) with
  | clientBuild =>
    simp [executeProbe, exchange, RawObservation.coherent_of_error, errorObservation]
  | network elapsedMs =>
    simp [executeProbe, exchange, RawObservation.coherent_of_error, errorObservation]
  | response status latencyMs header body =>
    by_cases success : isSuccess status
    · cases body with
      | none =>
        simp [executeProbe, exchange, success, RawObservation.coherent_of_error, errorObservation]
      | some bodyText =>
        cases parsed : crates.parse bodyText with
        | none =>
          simp [executeProbe, exchange, success, parsed, directErrorClass, answerHash,
            RawObservation.coherent_of_error]
        | some value =>
          cases errors : value.get "errors" with
          | none =>
            rw [RawObservation.coherent_iff_of_clean (by
              simp [executeProbe, exchange, success, parsed, directErrorClass, errors])]
            simp [executeProbe, exchange, success, parsed, directErrorClass, errors, answerHash]
            omega
          | some list =>
            simp [executeProbe, exchange, success, parsed, directErrorClass, errors, answerHash,
              RawObservation.coherent_of_error]
    · simp [executeProbe, exchange, success, RawObservation.coherent_of_error, errorObservation]

/-- A paid probe's observation is coherent whatever the exchange. -/
theorem paid_coherent (crates : Crates) (client : PaidRequest → PaidExchange)
    (req : PaidProbeRequest) : (executePaidProbe crates client req).Coherent := by
  unfold executePaidProbe
  split
  · exact RawObservation.coherent_of_error rfl rfl
  split
  · exact RawObservation.coherent_of_error rfl rfl
  split
  · exact RawObservation.coherent_of_error rfl rfl
  rename_i status latencyMs body _
  split
  · exact RawObservation.coherent_of_error rfl rfl
  split
  · exact RawObservation.coherent_of_error rfl rfl
  · -- Status 200: a class exactly when there is no hash.
    obtain ⟨payload, attestation⟩ := openEnvelope crates body
    dsimp only
    cases class_ : paidErrorClass (crates.parse payload) with
    | some text => exact RawObservation.coherent_of_error rfl (by simp [answerHash])
    | none =>
      have isJson : (crates.parse payload).isSome := by
        cases parsed : crates.parse payload with
        | none => simp [parsed, paidErrorClass] at class_
        | some value => rfl
      rw [RawObservation.coherent_iff_of_clean rfl]
      simp [answerHash, isJson]

/-- An observation is coherent exactly when its dispatch was not misread. -/
theorem execute_coherent_iff (crates : Crates) (dispatch : Dispatch) :
    (dispatch.execute crates).Coherent ↔ ¬ dispatch.Misread crates := by
  cases dispatch with
  | gateway network req => exact gateway_coherent_iff crates network req
  | direct network req => exact direct_coherent_iff crates network req
  | paid client req => simp [Dispatch.execute, Dispatch.Misread, paid_coherent]

/-- A gateway that answers 200 with a page instead of JSON. -/
def pageFromGateway : Dispatch :=
  .gateway (fun _ => .response 200 12 none (some "<html>"))
    ⟨"https://gateway.example", "key", "Qm", "\x7b _meta \x7b block \x7b number \x7d \x7d \x7d", "0x00"⟩

/-- A page that a gateway answers with status 200 is stored incoherently. -/
theorem page_from_gateway_incoherent :
    ¬ ∀ (crates : Crates) (dispatch : Dispatch), (dispatch.execute crates).Coherent := by
  intro always
  have agrees := (always (Crates.knowing [] []) pageFromGateway).agrees
  revert agrees
  unfold RawObservation.RolledUpAsSuccess RawObservation.GradedAsError
  decide

namespace RawObservation

/-- How an answer was judged: class, hash and the block it says it is at. -/
structure Judgement where
  errorClass : Option String
  responseHash : Option String
  metaBlockNumber : Option Int
  metaBlockHash : Option String
deriving DecidableEq

def judgement (obs : RawObservation) : Judgement :=
  ⟨obs.errorClass, obs.responseHash, obs.metaBlockNumber, obs.metaBlockHash⟩

end RawObservation

/-- The judgement of a payload under an error class. -/
def judgedAs (crates : Crates) (errorClass : Option String) (payload : String) :
    RawObservation.Judgement :=
  ⟨errorClass, answerHash crates errorClass payload, (metaOf (crates.parse payload)).1,
    (metaOf (crates.parse payload)).2⟩

/-- One payload under status 200 on each of the three paths. -/
structure Delivery (crates : Crates) (payload : String) where
  gatewayNetwork : HttpRequest → Exchange
  gatewayReq : GatewayProbeRequest
  directNetwork : HttpRequest → Exchange
  directReq : ProbeRequest
  paidClient : PaidRequest → PaidExchange
  paidReq : PaidProbeRequest
  gatewayBody : ∃ latencyMs header,
    gatewayNetwork (gatewayRequest gatewayReq) = .response 200 latencyMs header (some payload)
  directBody : ∃ latencyMs header,
    directNetwork (directRequest directReq) = .response 200 latencyMs header (some payload)
  addressed : crates.parsesAsAddress paidReq.indexerAddress ∧
    crates.parsesAsAddress paidReq.allocationId
  paidBody : ∀ request, ∃ latencyMs envelope value,
    paidClient request = .response 200 latencyMs envelope ∧
      crates.parse envelope = some value ∧
      value.get "graphQLResponse" = some (.string payload)

namespace Delivery

variable {crates : Crates} {payload : String}

def gateway (delivery : Delivery crates payload) : RawObservation :=
  executeGatewayProbe crates delivery.gatewayNetwork delivery.gatewayReq

def direct (delivery : Delivery crates payload) : RawObservation :=
  executeProbe crates delivery.directNetwork delivery.directReq

def paid (delivery : Delivery crates payload) : RawObservation :=
  executePaidProbe crates delivery.paidClient delivery.paidReq

/-- The gateway path judges a delivery by its own error class. -/
theorem gateway_judgement (delivery : Delivery crates payload) :
    delivery.gateway.judgement =
      judgedAs crates (gatewayErrorClass (crates.parse payload)) payload := by
  obtain ⟨latencyMs, header, body⟩ := delivery.gatewayBody
  simp [gateway, executeGatewayProbe, body, isSuccess, RawObservation.judgement, judgedAs]

/-- The direct path judges a delivery by its own error class. -/
theorem direct_judgement (delivery : Delivery crates payload) :
    delivery.direct.judgement =
      judgedAs crates (directErrorClass (crates.parse payload)) payload := by
  obtain ⟨latencyMs, header, body⟩ := delivery.directBody
  simp [direct, executeProbe, body, isSuccess, RawObservation.judgement, judgedAs]

/-- The paid path judges a delivery by its own error class. -/
theorem paid_judgement (delivery : Delivery crates payload) :
    delivery.paid.judgement =
      judgedAs crates (paidErrorClass (crates.parse payload)) payload := by
  obtain ⟨indexerParses, allocationParses⟩ := delivery.addressed
  obtain ⟨latencyMs, envelope, value, exchange, isJson, inner⟩ := delivery.paidBody
    ⟨delivery.paidReq.indexerUrl, delivery.paidReq.indexerAddress, delivery.paidReq.allocationId,
      delivery.paidReq.deploymentIpfsHash,
      (probeBody delivery.paidReq.query delivery.paidReq.blockHash).render crates⟩
  have opened : (openEnvelope crates envelope).1 = payload := by
    simp [openEnvelope, isJson, inner, Json.asStr]
  simp [paid, executePaidProbe, indexerParses, allocationParses, exchange, paymentRefusal, opened,
    RawObservation.judgement, judgedAs]

/-- The three paths judge the delivered payload alike. -/
def JudgedAlike (delivery : Delivery crates payload) : Prop :=
  delivery.gateway.judgement = delivery.direct.judgement ∧
    delivery.direct.judgement = delivery.paid.judgement

end Delivery

/-- JSON without an `errors` member, or with a nonempty array of them. -/
def PlainAnswer (crates : Crates) (payload : String) : Prop :=
  ∃ value, crates.parse payload = some value ∧
    (value.get "errors" = none ∨ ∃ head tail, value.get "errors" = some (.array (head :: tail)))

private theorem judgedAs_inj {crates : Crates} {payload : String} {left right : Option String} :
    judgedAs crates left payload = judgedAs crates right payload ↔ left = right := by
  constructor
  · intro same
    exact congrArg RawObservation.Judgement.errorClass same
  · rintro rfl
    rfl

/-- A payload is judged alike on all paths exactly when it is a plain answer. -/
theorem judgedAlike_iff_plainAnswer (crates : Crates) (payload : String)
    (delivery : Delivery crates payload) :
    delivery.JudgedAlike ↔ PlainAnswer crates payload := by
  unfold Delivery.JudgedAlike
  rw [delivery.gateway_judgement, delivery.direct_judgement, delivery.paid_judgement,
    judgedAs_inj, judgedAs_inj]
  cases parsed : crates.parse payload with
  | none => simp [PlainAnswer, parsed, gatewayErrorClass, directErrorClass]
  | some value =>
    cases errors : value.get "errors" with
    | none =>
      simp [PlainAnswer, parsed, gatewayErrorClass, directErrorClass, paidErrorClass, errors]
    | some list =>
      cases list with
      | array items =>
        cases items <;> simp [PlainAnswer, parsed, gatewayErrorClass, directErrorClass,
          paidErrorClass, errors, Json.asArray]
      | _ =>
        simp [PlainAnswer, parsed, gatewayErrorClass, directErrorClass, paidErrorClass, errors,
          Json.asArray]

/-- The crates on an empty object, an object with an empty error list, and the envelopes
that carry them. -/
def envelopeCrates : Crates :=
  Crates.knowing
    [("\x7b\x7d", .object []),
     ("\x7b\"graphQLResponse\":\"\x7b\x7d\"\x7d",
       .object [("graphQLResponse", .string "\x7b\x7d")]),
     ("\x7b\"errors\":[]\x7d", .object [("errors", .array [])]),
     ("\x7b\"graphQLResponse\":\"\x7b\\\"errors\\\":[]\x7d\"\x7d",
       .object [("graphQLResponse", .string "\x7b\"errors\":[]\x7d")])]
    [("\x7b\x7d", "44136fa355b3678a1146ad16f7e8649e94fb4fc21fe77e8310c060f61caaff8a"),
     ("\x7b\"errors\":[]\x7d", "debf84af8d66827e1cbc6791aa686504e3116d8cb20f4697fef23108333061f8")]

/-- A payload as a body and in the envelope that quotes it. -/
def deliver (payload envelope : String)
    (quoted : ∃ value, envelopeCrates.parse envelope = some value ∧
      value.get "graphQLResponse" = some (.string payload)) : Delivery envelopeCrates payload where
  gatewayNetwork _ := .response 200 12 none (some payload)
  gatewayReq := ⟨"https://gateway.example", "key", "Qm", "", "0x00"⟩
  directNetwork _ := .response 200 12 none (some payload)
  directReq := ⟨"0x00000000000000000000000000000000000000aa", "https://indexer.example", "Qm", "",
    "0x00", none, .exact 1⟩
  paidClient _ := .response 200 12 envelope
  paidReq := ⟨"0x00000000000000000000000000000000000000aa", "https://indexer.example",
    "0x00000000000000000000000000000000000000bb", "Qm", "", "0x00", .exact 1⟩
  gatewayBody := ⟨12, none, rfl⟩
  directBody := ⟨12, none, rfl⟩
  addressed := by decide
  paidBody _ := by
    obtain ⟨value, isJson, inner⟩ := quoted
    exact ⟨12, envelope, value, rfl, isJson, inner⟩

/-- All three paths judge an empty object alike. -/
theorem empty_object_judged_alike :
    (deliver "\x7b\x7d" "\x7b\"graphQLResponse\":\"\x7b\x7d\"\x7d"
      ⟨.object [("graphQLResponse", .string "\x7b\x7d")], rfl, rfl⟩).JudgedAlike :=
  (judgedAlike_iff_plainAnswer _ _ _).mpr ⟨.object [], rfl, Or.inl rfl⟩

/-- An answer with an empty list of errors is judged differently by the paid path. -/
theorem empty_error_list_judged_apart :
    ¬ ∀ (crates : Crates) (payload : String) (delivery : Delivery crates payload),
      delivery.JudgedAlike := by
  intro always
  have alike := always envelopeCrates "\x7b\"errors\":[]\x7d"
    (deliver _ "\x7b\"graphQLResponse\":\"\x7b\\\"errors\\\":[]\x7d\"\x7d"
      ⟨.object [("graphQLResponse", .string "\x7b\"errors\":[]\x7d")], rfl, rfl⟩)
  revert alike
  unfold Delivery.JudgedAlike
  decide

end Foghorn.Probe
