import Foghorn.Probe.Executor
import Foghorn.Probe.HexText

/-!
# The evidence an observation carries

An observation keeps the attestation it came with, and the signed hashes when the signature
recovers to somebody. On the gateway path that key is the identity. On the paid path the
identity was chosen before the query, and nobody compares the two: the hashes are kept
whoever signed.
-/

namespace Foghorn.Probe

open Foghorn.Core

section Attestations

variable {crates : Crates} {header : String} {value : Json} {key : String}

/-- Whom the signature of an attestation recovers to. -/
def attestationSigner (crates : Crates) (header : String) : Option String :=
  (crates.parse header).bind (tryRecoverSigner crates)

/-- A field is read as 32 bytes when it spells 64 hex digits behind an optional marker. -/
theorem parseHex32_eq_some_iff {bytes : List UInt8} :
    parseHex32 value key = some bytes ↔ ∃ text, (value.index key).asStr = some text ∧
      byteLength (trimHexMarker text.toList) = 64 ∧
        hexDecode (trimHexMarker text.toList) = some bytes := by
  unfold parseHex32
  cases (value.index key).asStr with
  | none => simp
  | some text => by_cases long : byteLength (trimHexMarker text.toList) = 64 <;> simp [long]

/-- A field that decodes is kept as the text it was written as. -/
theorem cidText_of_parseHex32 {bytes : List UInt8} (decoded : parseHex32 value key = some bytes) :
    ∃ text, cidText value key = some text ∧ hexDecode (trimHexMarker text.toList) = some bytes := by
  obtain ⟨text, written, long, digits⟩ := parseHex32_eq_some_iff.mp decoded
  refine ⟨text, ?_, digits⟩
  simp [cidText, written, long]

/-- A signature that recovers is over three fields that decode. -/
theorem decoded_of_tryRecoverSigner {signer : String}
    (recovers : tryRecoverSigner crates value = some signer) :
    ∃ request response deployment, parseHex32 value "requestCID" = some request ∧
      parseHex32 value "responseCID" = some response ∧
        parseHex32 value "subgraphDeploymentID" = some deployment := by
  simp only [tryRecoverSigner, Option.bind_eq_bind, Option.bind_eq_some_iff] at recovers
  obtain ⟨request, requested, response, responded, deployment, deployed, _⟩ := recovers
  exact ⟨request, response, deployment, requested, responded, deployed⟩

/-- The hashes are kept exactly when the signature recovers. -/
theorem isSome_attestationCids :
    (attestationCids crates header).isSome = (attestationSigner crates header).isSome := by
  unfold attestationCids attestationSigner
  cases crates.parse header with
  | none => rfl
  | some value =>
    cases recovers : tryRecoverSigner crates value with
    | none => simp [recovers]
    | some signer =>
      obtain ⟨_, _, _, requested, responded, _⟩ := decoded_of_tryRecoverSigner recovers
      obtain ⟨_, request, _⟩ := cidText_of_parseHex32 requested
      obtain ⟨_, response, _⟩ := cidText_of_parseHex32 responded
      simp [recovers, request, response]

end Attestations

/-- The hashes of an observation are those of the attestation beside them. -/
structure RawObservation.Evidenced (crates : Crates) (obs : RawObservation) : Prop where
  requestCid : obs.requestCid =
    (obs.attestation.bind (attestationCids crates)).map Prod.fst
  responseCid : obs.responseCid =
    (obs.attestation.bind (attestationCids crates)).map Prod.snd

/-- A gateway observation carries what its own attestation yields. -/
theorem evidenced_gateway (crates : Crates) (network : HttpRequest → Exchange)
    (req : GatewayProbeRequest) : (executeGatewayProbe crates network req).Evidenced crates := by
  unfold executeGatewayProbe
  split
  · exact ⟨rfl, rfl⟩
  · exact ⟨rfl, rfl⟩
  · split
    · exact ⟨rfl, rfl⟩
    · split <;> exact ⟨rfl, rfl⟩

section Paid

variable (crates : Crates) (client : PaidRequest → PaidExchange) (req : PaidProbeRequest)

/-- The payment and the query of a paid probe. -/
def paidRequest : PaidRequest :=
  ⟨req.indexerUrl, req.indexerAddress, req.allocationId, req.deploymentIpfsHash,
    (probeBody req.query req.blockHash).render crates⟩

/-- The attestation in the envelope of an answer that was paid for. -/
def paidAttestation : Option String :=
  if crates.parsesAsAddress req.indexerAddress ∧ crates.parsesAsAddress req.allocationId then
    match client (paidRequest crates req) with
    | .response 200 _ body => (openEnvelope crates body).2
    | _ => none
  else none

private theorem attestation_executePaidProbe :
    (executePaidProbe crates client req).attestation = paidAttestation crates client req := by
  unfold executePaidProbe paidAttestation paidRequest
  cases indexer : crates.parsesAsAddress req.indexerAddress with
  | false => simp [errorObservation]
  | true =>
    cases allocation : crates.parsesAsAddress req.allocationId with
    | false => simp [errorObservation]
    | true =>
      simp only [Bool.not_true, Bool.false_eq_true, if_false, and_self, if_true]
      cases client _ with
      | transport => rfl
      | response status latencyMs body =>
        by_cases answered : status = 200
        · subst answered
          rfl
        · cases refused : paymentRefusal crates status body with
          | some _ => simp [refused, errorObservation, answered]
          | none => simp [refused, errorObservation, answered]

/-- A paid observation carries what its own attestation yields. -/
theorem evidenced_paid : (executePaidProbe crates client req).Evidenced crates := by
  unfold executePaidProbe
  split
  · exact ⟨rfl, rfl⟩
  · split
    · exact ⟨rfl, rfl⟩
    · split
      · exact ⟨rfl, rfl⟩
      · split
        · exact ⟨rfl, rfl⟩
        · split <;> exact ⟨rfl, rfl⟩

/-- A paid observation is about the indexer that was asked. -/
theorem indexerAddress_executePaidProbe :
    (executePaidProbe crates client req).indexerAddress = req.indexerAddress := by
  unfold executePaidProbe
  split
  · rfl
  · split
    · rfl
    · split
      · rfl
      · split
        · rfl
        · split <;> rfl

/-- The hashes of an observation, if it has any, were signed by the allocation that was
billed; what somebody else signed is not kept as hashes. -/
structure SignedByBilled (allocationId : String) (obs : RawObservation) : Prop where
  named : obs.requestCid.isSome → obs.responseCid.isSome → ∃ header ∈ obs.attestation,
    ∃ signer ∈ attestationSigner crates header,
      crates.lowercase signer = crates.lowercase allocationId
  foreign : ∀ header ∈ obs.attestation, ∀ signer ∈ attestationSigner crates header,
    crates.lowercase signer ≠ crates.lowercase allocationId →
      obs.requestCid = none ∧ obs.responseCid = none

/-- A paid probe keeps only what the billed allocation signed exactly when no answer to it
is signed by anybody else. -/
theorem signedByBilled_iff :
    SignedByBilled crates req.allocationId (executePaidProbe crates client req) ↔
      ∀ header ∈ paidAttestation crates client req, ∀ signer ∈ attestationSigner crates header,
        crates.lowercase signer = crates.lowercase req.allocationId := by
  have kept := evidenced_paid crates client req
  have carried := attestation_executePaidProbe crates client req
  constructor
  · intro signed header attested signer recovers
    rw [← carried] at attested
    by_contra other
    obtain ⟨empty, _⟩ := signed.foreign header attested signer recovers other
    rw [kept.requestCid, attested, Option.bind_some, Option.map_eq_none_iff,
      ← Option.isNone_iff_eq_none, ← Option.not_isSome, isSome_attestationCids, recovers] at empty
    cases empty
  · intro same
    refine ⟨fun requested _ => ?_, fun header attested signer recovers other => ?_⟩
    · rw [kept.requestCid, Option.isSome_map] at requested
      obtain ⟨cids, found⟩ := Option.isSome_iff_exists.mp requested
      obtain ⟨header, attested, hashes⟩ := Option.bind_eq_some_iff.mp found
      have recovers : (attestationSigner crates header).isSome := by
        rw [← isSome_attestationCids, hashes]
        rfl
      obtain ⟨signer, recovered⟩ := Option.isSome_iff_exists.mp recovers
      exact ⟨header, attested, signer, recovered, same header (carried ▸ attested) signer recovered⟩
    · exact absurd (same header (carried ▸ attested) signer recovers) other

end Paid

/-- An attestation over the given fields. -/
def attestationOf (requestCid responseCid deploymentId : String) : Json :=
  .object [("requestCID", .string requestCid), ("responseCID", .string responseCid),
    ("subgraphDeploymentID", .string deploymentId), ("r", .string (hex64 '2')),
    ("s", .string (hex64 '3')), ("v", .number (.posInt 0))]

section Attestation

variable {crates : Crates} {value : Json} {key : String} {digit : Char} {nibble : UInt8}

/-- A field of 64 equal hex digits is read as 32 equal bytes. -/
theorem parseHex32_hex64 (plain : PlainDigit digit nibble)
    (written : value.index key = .string (hex64 digit)) :
    parseHex32 value key = some (List.replicate 32 (nibble <<< 4 ||| nibble)) :=
  parseHex32_eq_some_iff.mpr ⟨hex64 digit, by rw [written]; rfl, plain.byteLength_hex64,
    plain.cidBytes_hex64⟩

private theorem cidText_hex64 (plain : PlainDigit digit nibble)
    (written : value.index key = .string (hex64 digit)) : cidText value key = some (hex64 digit) := by
  rw [cidText, written]
  simp only [Json.asStr, Option.bind_eq_bind, Option.bind_some]
  exact if_pos plain.byteLength_hex64

variable {a b c : Char} {x y z : UInt8} {publicKey : List UInt8}

/-- The sample attestation recovers the signer of its key. -/
theorem tryRecoverSigner_attestationOf (request : PlainDigit a x) (response : PlainDigit b y)
    (deployment : PlainDigit c z)
    (recovers : ∀ digest r s v, crates.recoverKey digest r s v = some publicKey) :
    tryRecoverSigner crates (attestationOf (hex64 a) (hex64 b) (hex64 c)) =
      some ("0x" ++ hexEncode ((crates.keccak256 publicKey).drop 12)) := by
  have two : PlainDigit '2' 2 := ⟨by decide, by decide⟩
  have three : PlainDigit '3' 3 := ⟨by decide, by decide⟩
  rw [tryRecoverSigner, parseHex32_hex64 request rfl, parseHex32_hex64 response rfl,
    parseHex32_hex64 deployment rfl, parseHex32_hex64 two rfl, parseHex32_hex64 three rfl]
  simp only [Option.bind_eq_bind, Option.bind_some, recovers]
  rfl

/-- The sample attestation keeps its two CIDs as they are spelled. -/
theorem attestationCids_attestationOf {header : String} (request : PlainDigit a x)
    (response : PlainDigit b y) (deployment : PlainDigit c z)
    (recovers : ∀ digest r s v, crates.recoverKey digest r s v = some publicKey)
    (parsed : crates.parse header = some (attestationOf (hex64 a) (hex64 b) (hex64 c))) :
    attestationCids crates header = some (hex64 a, hex64 b) := by
  rw [attestationCids, parsed]
  simp only [Option.bind_eq_bind, Option.bind_some,
    tryRecoverSigner_attestationOf request response deployment recovers]
  rw [cidText_hex64 request rfl, cidText_hex64 response rfl]
  rfl

end Attestation

/-- The paid answer `null` in its envelope. -/
def attestedAnswer (attestation : Json) : Json :=
  .object [("graphQLResponse", .string "null"), ("attestation", attestation)]

def printed (value : Json) : String := value.render (Crates.knowing [] [])

/-- The texts of some attestations and of the answers that carry them. -/
def attestedTexts (attestations : List Json) : List (String × Json) :=
  (attestations ++ attestations.map attestedAnswer).map fun value => (printed value, value)

/-- Crates that recover every signature to one key. -/
def oneKeyCrates (attestations : List Json) : Crates :=
  { Crates.knowing (attestedTexts attestations) [] with
    keccak256 := fun _ => List.replicate 32 17
    recoverKey := fun _ _ _ _ => some [] }

/-- A probe of an indexer that bills one allocation. -/
def billedProbe (indexer : String) : PaidProbeRequest :=
  ⟨indexer, "https://indexer.example", "0x00000000000000000000000000000000000000bb", "Qm", "", "0x00",
    .exact 1⟩

/-- The billed probe, answered with an attestation. -/
def answered (crates : Crates) (indexer : String) (attestation : Json) : RawObservation :=
  executePaidProbe crates (fun _ => .response 200 12 (printed (attestedAnswer attestation)))
    (billedProbe indexer)

/-- An answered sample observation carries what its own attestation yields. -/
theorem evidenced_answered (crates : Crates) (indexer : String) (attestation : Json) :
    (answered crates indexer attestation).Evidenced crates :=
  evidenced_paid crates _ _

section Answered

variable {attestations : List Json} {attestation : Json}

/-- The sample parser reads back the attestations it was given. -/
theorem parse_attestation (distinct : ((attestedTexts attestations).map Prod.fst).Nodup)
    (member : attestation ∈ attestations) :
    (oneKeyCrates attestations).parse (printed attestation) = some attestation :=
  Crates.parse_knowing [] distinct
    (List.mem_map.mpr ⟨attestation, List.mem_append_left _ member, rfl⟩)

/-- The sample attestation is rendered as it is printed. -/
theorem render_attestationOf (requestCid responseCid deploymentId : String) :
    (attestationOf requestCid responseCid deploymentId).render (oneKeyCrates attestations) =
      printed (attestationOf requestCid responseCid deploymentId) := by
  simp only [printed, attestationOf, Json.render, Json.renderMembers, Number.render]
  rfl

/-- An answered sample observation carries its attestation as rendered. -/
theorem attestation_answered (distinct : ((attestedTexts attestations).map Prod.fst).Nodup)
    (member : attestation ∈ attestations) {indexer : String} (address : indexer.length = 42) :
    (answered (oneKeyCrates attestations) indexer attestation).attestation =
      some (attestation.render (oneKeyCrates attestations)) := by
  have parsed : (oneKeyCrates attestations).parse (printed (attestedAnswer attestation)) =
      some (attestedAnswer attestation) :=
    Crates.parse_knowing [] distinct
      (List.mem_map.mpr ⟨_, List.mem_append_right _ (List.mem_map_of_mem member), rfl⟩)
  have billed : "0x00000000000000000000000000000000000000bb".length = 42 := by decide
  have addresses : (oneKeyCrates attestations).parsesAsAddress (billedProbe indexer).indexerAddress ∧
      (oneKeyCrates attestations).parsesAsAddress (billedProbe indexer).allocationId :=
    ⟨decide_eq_true address, decide_eq_true billed⟩
  rw [answered, attestation_executePaidProbe, paidAttestation, if_pos addresses]
  simp only [openEnvelope, parsed]
  rfl

end Answered

def someAttestation : Json := attestationOf (hex64 'a') (hex64 'b') (hex64 'c')

def foreignCrates : Crates := oneKeyCrates [someAttestation]

/-- The billed probe, answered by a key that is not the allocation's. -/
def foreignAnswer : RawObservation :=
  answered foreignCrates "0x00000000000000000000000000000000000000aa" someAttestation

/-- An answer signed by another key than the allocation's is kept with its hashes. -/
theorem foreign_signature_refutes :
    foreignAnswer.requestCid = some (hex64 'a') ∧ foreignAnswer.responseCid = some (hex64 'b') ∧
      foreignAnswer.attestation.bind (attestationSigner foreignCrates) =
        some "0x1111111111111111111111111111111111111111" ∧
      ¬ SignedByBilled foreignCrates "0x00000000000000000000000000000000000000bb" foreignAnswer := by
  have texts : ((attestedTexts [someAttestation]).map Prod.fst).Nodup := by decide
  have member := List.mem_singleton_self someAttestation
  have parsed := parse_attestation texts member
  have carried : foreignAnswer.attestation = some (printed someAttestation) :=
    attestation_answered texts member (by decide)
  have request : PlainDigit 'a' 10 := ⟨by decide, by decide⟩
  have response : PlainDigit 'b' 11 := ⟨by decide, by decide⟩
  have deployment : PlainDigit 'c' 12 := ⟨by decide, by decide⟩
  have kept := attestationCids_attestationOf request response deployment (fun _ _ _ _ => rfl) parsed
  have evidence : foreignAnswer.Evidenced foreignCrates := evidenced_answered _ _ _
  have signer : attestationSigner foreignCrates (printed someAttestation) =
      some "0x1111111111111111111111111111111111111111" := by
    rw [attestationSigner, foreignCrates, parsed, Option.bind_some, someAttestation,
      tryRecoverSigner_attestationOf request response deployment fun _ _ _ _ => rfl]
    decide
  have requested : foreignAnswer.requestCid = some (hex64 'a') := by
    rw [evidence.requestCid, carried, Option.bind_some, foreignCrates, kept]
    rfl
  have responded : foreignAnswer.responseCid = some (hex64 'b') := by
    rw [evidence.responseCid, carried, Option.bind_some, foreignCrates, kept]
    rfl
  refine ⟨requested, responded, by rw [carried, Option.bind_some, signer], fun signed => ?_⟩
  obtain ⟨empty, _⟩ := signed.foreign _ carried _ signer (by decide)
  rw [requested] at empty
  cases empty

end Foghorn.Probe
