import Foghorn.Core.Tables
import Foghorn.Probe.Evidence
import Foghorn.Probe.HexText
import Foghorn.Probe.Scheduler

/-!
# Disputable conflicts

`qosConflicts` publishes the probes whose signers disagree. It groups and counts the hashes
as texts and leaves the deployment that was signed unread, while the DisputeManager compares
all three fields as 32-byte values. `publishesDisputable_iff` says for which attestations
the two agree.
-/

namespace Foghorn.Api

open Foghorn.Std Foghorn.Core Foghorn.Probe

/-- One signer of a conflict, as published. -/
structure ConflictSigner where
  indexer : Option String
  resolved : Bool
  signingKey : String
  responseCid : Option String
  attestation : Option String

/-- The columns that the rows of one conflict share. -/
structure ConflictKey where
  probeId : Uuid
  deploymentId : String
  blockNumber : Int
  dispatchedAt : Int
  requestCid : Option String
deriving DecidableEq

structure ConflictGroup where
  key : ConflictKey
  signers : List ConflictSigner
  distinctAnswers : Nat
  distinctPayloads : Nat

/-- Whether the data differs, and not only how it was serialised. -/
def ConflictGroup.dataDiffers (group : ConflictGroup) : Bool := 1 < group.distinctPayloads

/-- A routed observation is resolved through its signing key, a paid one is the indexer's. -/
def conflictSigner (db : Db) (row : ObservationRow) : ConflictSigner :=
  let mapped := (db.allocationMap.lookup row.indexerAddress).bind AllocationMapRow.indexerAddress
  { indexer := mapped.or (if row.dispatchMode = .paid then some row.indexerAddress else none)
    resolved := mapped.isSome || row.dispatchMode = .paid
    signingKey := row.indexerAddress
    responseCid := row.responseCid
    attestation := row.attestation }

def conflictKey (entry : ProbeRow × ObservationRow) : ConflictKey where
  probeId := entry.2.probeId
  deploymentId := entry.1.deploymentId
  blockNumber := entry.1.blockNumber
  dispatchedAt := entry.1.dispatchedAt
  requestCid := entry.2.requestCid

/-- The observations with a signed response, beside their probes. -/
def signedRows (db : Db) (within : ProbeRow → Bool) : List (ProbeRow × ObservationRow) :=
  db.observation.rows.flatMap fun row =>
    if row.responseCid.isSome then
      ((db.probe.lookup row.probeId).filter within).toList.map fun probe => (probe, row)
    else []

def conflictGroup (db : Db) (key : ConflictKey) (members : List (ProbeRow × ObservationRow)) :
    ConflictGroup where
  key := key
  signers := ((members.map Prod.snd).mergeSort fun left right =>
    left.indexerAddress ≤ right.indexerAddress).map (conflictSigner db)
  distinctAnswers :=
    countDistinct (fun entry => entry.2.responseCid) (fun entry => entry.2.responseCid.isSome) members
  distinctPayloads :=
    countDistinct (fun entry => entry.2.responseHash) (fun entry => entry.2.responseHash.isSome) members

/-- The groups of at least two signers with more than one answer, the newest first. -/
def conflictGroups (db : Db) (within : ProbeRow → Bool) : List ConflictGroup :=
  let groups := (groupBy conflictKey (signedRows db within)).map fun entry =>
    (entry.2.length, conflictGroup db entry.1 entry.2)
  ((groups.filter fun entry => 2 ≤ entry.1 && 1 < entry.2.distinctAnswers).map Prod.snd).mergeSort
    fun left right => right.key.dispatchedAt ≤ left.key.dispatchedAt

def qosConflicts (db : Db) (now : Int) (days limit : Option Int) : List ConflictGroup :=
  let days := min (max (days.getD 7) 1) 90
  let limit := min (max (limit.getD 100) 1) 500
  (conflictGroups db fun probe => now - days * 86400 * microsPerSecond ≤ probe.dispatchedAt).take limit.toNat

section Signed

/-- The three signed fields as values. -/
structure SignedFields where
  request : List UInt8
  response : List UInt8
  deployment : List UInt8
deriving DecidableEq

/-- What an attestation signs, when its signature recovers. -/
def signedFields (crates : Crates) (header : String) : Option SignedFields := do
  let value ← crates.parse header
  let _ ← tryRecoverSigner crates value
  let request ← parseHex32 value "requestCID"
  let response ← parseHex32 value "responseCID"
  let deployment ← parseHex32 value "subgraphDeploymentID"
  some ⟨request, response, deployment⟩

/-- The DisputeManager's test of two attestations. -/
def SignedFields.Conflict (left right : SignedFields) : Prop :=
  left.request = right.request ∧ left.deployment = right.deployment ∧ left.response ≠ right.response

/-- A stored observation of a probe, and what its attestation signs. -/
structure Attested (crates : Crates) (db : Db) (probe : Uuid) (row : ObservationRow)
    (fields : SignedFields) : Prop where
  stored : row ∈ db.observation
  probeId : row.probeId = probe
  signed : row.attestation.bind (signedFields crates) = some fields

/-- Observations of stored probes that the two attested paths recorded. -/
structure Recorded (crates : Crates) (db : Db) : Prop where
  executed : ∀ row ∈ db.observation, ∃ obs : RawObservation, row = obs.toRow row.probeId ∧
    ((∃ network req, obs = executeGatewayProbe crates network req) ∨
      ∃ client req, obs = executePaidProbe crates client req)
  probed : ∀ row ∈ db.observation, db.probe.holds row.probeId

variable {crates : Crates} {db : Db}

/-- A header whose signed fields parse stores two CIDs that spell those fields. -/
theorem attestationCids_of_signedFields {header : String} {fields : SignedFields}
    (signed : signedFields crates header = some fields) :
    ∃ request response, attestationCids crates header = some (request, response) ∧
      cidBytes request = some fields.request ∧ cidBytes response = some fields.response := by
  simp only [signedFields, Option.bind_eq_bind, Option.bind_eq_some_iff, Option.some.injEq] at signed
  obtain ⟨value, parsed, signer, recovers, request, requested, response, responded, _, _, rfl⟩ :=
    signed
  obtain ⟨requestText, writtenRequest, decodedRequest⟩ := cidText_of_parseHex32 requested
  obtain ⟨responseText, writtenResponse, decodedResponse⟩ := cidText_of_parseHex32 responded
  refine ⟨requestText, responseText, ?_, decodedRequest, decodedResponse⟩
  simp [attestationCids, parsed, recovers, writtenRequest, writtenResponse]

/-- Every header with stored CIDs has the fields its signer signed. -/
theorem exists_signedFields {header : String} (kept : (attestationCids crates header).isSome) :
    ∃ fields, signedFields crates header = some fields := by
  rw [isSome_attestationCids, Option.isSome_iff_exists] at kept
  obtain ⟨signer, found⟩ := kept
  obtain ⟨value, parsed, recovers⟩ := Option.bind_eq_some_iff.mp found
  obtain ⟨request, response, deployment, requested, responded, deployed⟩ :=
    decoded_of_tryRecoverSigner recovers
  refine ⟨⟨request, response, deployment⟩, ?_⟩
  simp [signedFields, parsed, recovers, requested, responded, deployed]

/-- A recorded row's CIDs are those its own attestation yields. -/
theorem evidence_of_recorded (recorded : Recorded crates db) {row : ObservationRow}
    (stored : row ∈ db.observation) :
    row.requestCid = (row.attestation.bind (attestationCids crates)).map Prod.fst ∧
      row.responseCid = (row.attestation.bind (attestationCids crates)).map Prod.snd := by
  obtain ⟨obs, same, ⟨network, req, rfl⟩ | ⟨client, req, rfl⟩⟩ := recorded.executed row stored
  · rw [same]
    exact ⟨(evidenced_gateway crates network req).requestCid,
      (evidenced_gateway crates network req).responseCid⟩
  · rw [same]
    exact ⟨(evidenced_paid crates client req).requestCid,
      (evidenced_paid crates client req).responseCid⟩

/-- The texts that an attested observation is stored with. -/
theorem texts_of_attested (recorded : Recorded crates db) {probe : Uuid} {row : ObservationRow}
    {fields : SignedFields} (attested : Attested crates db probe row fields) :
    ∃ request response, row.requestCid = some request ∧ row.responseCid = some response ∧
      cidBytes request = some fields.request ∧ cidBytes response = some fields.response := by
  obtain ⟨header, carried, signed⟩ := Option.bind_eq_some_iff.mp attested.signed
  obtain ⟨request, response, kept, decodedRequest, decodedResponse⟩ :=
    attestationCids_of_signedFields signed
  obtain ⟨requestCid, responseCid⟩ := evidence_of_recorded recorded attested.stored
  rw [carried, Option.bind_some, kept] at requestCid responseCid
  exact ⟨request, response, requestCid, responseCid, decodedRequest, decodedResponse⟩

/-- A recorded response CID comes from an attestation over that row's probe. -/
theorem attested_of_responseCid (recorded : Recorded crates db) {row : ObservationRow}
    (stored : row ∈ db.observation) (answered : row.responseCid.isSome) :
    ∃ fields, Attested crates db row.probeId row fields := by
  rw [(evidence_of_recorded recorded stored).2, Option.isSome_map, Option.isSome_iff_exists] at answered
  obtain ⟨cids, found⟩ := answered
  obtain ⟨header, carried, kept⟩ := Option.bind_eq_some_iff.mp found
  obtain ⟨fields, signed⟩ := exists_signedFields (Option.isSome_of_eq_some kept)
  exact ⟨fields, stored, rfl, by rw [carried, Option.bind_some, signed]⟩

end Signed

section Groups

variable {crates : Crates} {db : Db} {within : ProbeRow → Bool}

/-- The endpoint reads exactly the rows in the window that carry a response CID. -/
theorem mem_signedRows {probe : ProbeRow} {row : ObservationRow} :
    (probe, row) ∈ signedRows db within ↔ row ∈ db.observation ∧ row.responseCid.isSome ∧
      db.probe.lookup row.probeId = some probe ∧ within probe = true := by
  simp only [signedRows, List.mem_flatMap, Table.mem_rows]
  constructor
  · rintro ⟨other, stored, member⟩
    split at member
    · rename_i answered
      obtain ⟨found, listed, pair⟩ := List.mem_map.mp member
      obtain ⟨rfl, rfl⟩ := Prod.mk.inj pair
      obtain ⟨looked, kept⟩ := Option.filter_eq_some_iff.mp (Option.mem_toList.mp listed)
      exact ⟨stored, answered, looked, kept⟩
    · cases member
  · rintro ⟨stored, answered, looked, kept⟩
    refine ⟨row, stored, ?_⟩
    rw [if_pos answered]
    exact List.mem_map.mpr ⟨probe, Option.mem_toList.mpr
      (Option.filter_eq_some_iff.mpr ⟨looked, kept⟩), rfl⟩

/-- A published group: the members of one key, when more than one answer is among them. -/
theorem mem_conflictGroups {group : ConflictGroup} :
    group ∈ conflictGroups db within ↔
      ∃ key members, (key, members) ∈ groupBy conflictKey (signedRows db within) ∧
        group = conflictGroup db key members ∧ 1 < group.distinctAnswers := by
  simp only [conflictGroups, List.mem_mergeSort, List.mem_map, List.mem_filter, Bool.and_eq_true,
    decide_eq_true_eq]
  constructor
  · rintro ⟨_, ⟨⟨⟨key, members⟩, grouped, rfl⟩, _, several⟩, rfl⟩
    exact ⟨key, members, grouped, rfl, several⟩
  · rintro ⟨key, members, grouped, rfl, several⟩
    have two : 2 ≤ members.length := several.trans_le (countDistinct_le_length _ _ _)
    exact ⟨_, ⟨⟨(key, members), grouped, rfl⟩, two, several⟩, rfl⟩

/-- A group is published for a probe and a request text exactly when two observations of the
probe are stored under that text with different response texts. -/
theorem exists_conflictGroup_iff (recorded : Recorded crates db) {probe : Uuid}
    {request : Option String} :
    (∃ group ∈ conflictGroups db fun _ => true,
      group.key.probeId = probe ∧ group.key.requestCid = request) ↔
    ∃ left ∈ db.observation, ∃ right ∈ db.observation,
      (left.probeId = probe ∧ left.requestCid = request ∧ left.responseCid.isSome) ∧
      (right.probeId = probe ∧ right.requestCid = request ∧ right.responseCid.isSome) ∧
      left.responseCid ≠ right.responseCid := by
  constructor
  · rintro ⟨group, published, rfl, rfl⟩
    obtain ⟨key, members, grouped, rfl, several⟩ := mem_conflictGroups.mp published
    obtain ⟨left, memberLeft, right, memberRight, answeredLeft, answeredRight, apart⟩ :=
      one_lt_countDistinct_iff.mp several
    have keyed {entry : ProbeRow × ObservationRow} (member : entry ∈ members) :
        entry.2 ∈ db.observation ∧ entry.2.probeId = key.probeId ∧
          entry.2.requestCid = key.requestCid := by
      obtain ⟨_, rfl⟩ := mem_groupBy.mp grouped
      obtain ⟨listed, same⟩ := List.mem_filter.mp member
      obtain rfl := of_decide_eq_true same
      exact ⟨(mem_signedRows.mp listed).1, rfl, rfl⟩
    obtain ⟨storedLeft, probeLeft, requestLeft⟩ := keyed memberLeft
    obtain ⟨storedRight, probeRight, requestRight⟩ := keyed memberRight
    exact ⟨left.2, storedLeft, right.2, storedRight, ⟨probeLeft, requestLeft, answeredLeft⟩,
      ⟨probeRight, requestRight, answeredRight⟩, apart⟩
  · rintro ⟨left, storedLeft, right, storedRight, ⟨rfl, rfl, answeredLeft⟩,
      ⟨sameProbe, sameRequest, answeredRight⟩, apart⟩
    obtain ⟨entry, member, id⟩ := Table.holds_iff.mp (recorded.probed left storedLeft)
    have looked : db.probe.lookup left.probeId = some entry :=
      Table.lookup_eq_some_iff.mpr ⟨member, id⟩
    have listedLeft : (entry, left) ∈ signedRows db fun _ => true :=
      mem_signedRows.mpr ⟨storedLeft, answeredLeft, looked, rfl⟩
    have listedRight : (entry, right) ∈ signedRows db fun _ => true :=
      mem_signedRows.mpr ⟨storedRight, answeredRight, sameProbe ▸ looked, rfl⟩
    have sameKey : conflictKey (entry, right) = conflictKey (entry, left) := by
      simp [conflictKey, sameProbe, sameRequest]
    have grouped : (conflictKey (entry, left), (signedRows db fun _ => true).filter fun other =>
        conflictKey other = conflictKey (entry, left)) ∈
          groupBy conflictKey (signedRows db fun _ => true) :=
      mem_groupBy.mpr ⟨⟨(entry, left), listedLeft, rfl⟩, rfl⟩
    refine ⟨_, mem_conflictGroups.mpr ⟨_, _, grouped, rfl, ?_⟩, rfl, rfl⟩
    exact one_lt_countDistinct_iff.mpr ⟨(entry, left),
      List.mem_filter.mpr ⟨listedLeft, decide_eq_true rfl⟩, (entry, right),
      List.mem_filter.mpr ⟨listedRight, decide_eq_true sameKey⟩, answeredLeft, answeredRight, apart⟩

end Groups

section Disputable

variable (crates : Crates) (db : Db)

/-- A group is published for exactly the conflicts that the DisputeManager accepts, and the
query never tells apart what the attestations do not. -/
structure PublishesDisputable : Prop where
  conflicts : ∀ probe request,
    (∃ group ∈ conflictGroups db fun _ => true,
      group.key.probeId = probe ∧ group.key.requestCid.bind cidBytes = some request) ↔
    ∃ leftRow left rightRow right, Attested crates db probe leftRow left ∧
      Attested crates db probe rightRow right ∧ left.request = request ∧ left.Conflict right
  values : ∀ probe leftRow left rightRow right, Attested crates db probe leftRow left →
    Attested crates db probe rightRow right → left.request = right.request →
      (∀ entry, conflictKey (entry, leftRow) = conflictKey (entry, rightRow)) ∧
        (left.response = right.response → leftRow.responseCid = rightRow.responseCid)

/-- Under one probe, texts that differ in markers or letter case only do not differ at all. -/
def SpelledAlike : Prop :=
  ∀ left ∈ db.observation, ∀ right ∈ db.observation, left.probeId = right.probeId →
    ∀ leftRequest ∈ left.requestCid, ∀ rightRequest ∈ right.requestCid,
      plainDigits leftRequest = plainDigits rightRequest →
        leftRequest = rightRequest ∧
          ∀ leftResponse ∈ left.responseCid, ∀ rightResponse ∈ right.responseCid,
            plainDigits leftResponse = plainDigits rightResponse → leftResponse = rightResponse

/-- Where two attestations answer one request differently, two of them do so for one
deployment. -/
def SameDeployment : Prop :=
  ∀ probe leftRow left rightRow right, Attested crates db probe leftRow left →
    Attested crates db probe rightRow right → left.request = right.request →
      left.response ≠ right.response →
        ∃ oneRow one otherRow other, Attested crates db probe oneRow one ∧
          Attested crates db probe otherRow other ∧ one.request = left.request ∧ one.Conflict other

variable {crates db}

/-- A recorded request CID comes from an attestation over that row's probe. -/
theorem attested_of_requestCid (recorded : Recorded crates db) {row : ObservationRow}
    (stored : row ∈ db.observation) {request : String} (requested : row.requestCid = some request) :
    ∃ fields, Attested crates db row.probeId row fields := by
  refine attested_of_responseCid recorded stored ?_
  obtain ⟨requestCid, responseCid⟩ := evidence_of_recorded recorded stored
  rw [requestCid, Option.map_eq_some_iff] at requested
  obtain ⟨cids, found, _⟩ := requested
  rw [responseCid, found]
  rfl

/-- What the conditions say of two attestations over the same request. -/
theorem texts_eq_iff (recorded : Recorded crates db) (spelled : SpelledAlike db) {probe : Uuid}
    {leftRow rightRow : ObservationRow} {left right : SignedFields}
    (attestedLeft : Attested crates db probe leftRow left)
    (attestedRight : Attested crates db probe rightRow right) :
    (leftRow.requestCid = rightRow.requestCid ↔ left.request = right.request) ∧
      (left.request = right.request →
        (leftRow.responseCid = rightRow.responseCid ↔ left.response = right.response)) := by
  obtain ⟨requestLeft, responseLeft, keptRequest, keptResponse, decodedRequest, decodedResponse⟩ :=
    texts_of_attested recorded attestedLeft
  obtain ⟨requestRight, responseRight, keptRequest', keptResponse', decodedRequest',
    decodedResponse'⟩ := texts_of_attested recorded attestedRight
  have same := spelled leftRow attestedLeft.stored rightRow attestedRight.stored
    (attestedLeft.probeId.trans attestedRight.probeId.symm) requestLeft keptRequest requestRight
    keptRequest'
  rw [plainDigits_eq_iff decodedRequest decodedRequest'] at same
  rw [keptRequest, keptRequest', keptResponse, keptResponse', Option.some_inj, Option.some_inj]
  refine ⟨⟨?_, fun requests => (same requests).1⟩, fun requests => ⟨?_, fun responses => ?_⟩⟩
  · rintro rfl
    exact Option.some.inj (decodedRequest.symm.trans decodedRequest')
  · rintro rfl
    exact Option.some.inj (decodedResponse.symm.trans decodedResponse')
  · exact (same requests).2 responseLeft keptResponse responseRight keptResponse'
      ((plainDigits_eq_iff decodedResponse decodedResponse').mpr responses)

/-- If what is published is what the contract disputes, equal CIDs are spelled alike. -/
theorem spelledAlike_of_publishes (recorded : Recorded crates db)
    (publishes : PublishesDisputable crates db) : SpelledAlike db := by
  intro leftRow storedLeft rightRow storedRight sameProbe requestLeft keptLeft requestRight keptRight
    sameDigits
  obtain ⟨left, attestedLeft⟩ := attested_of_requestCid recorded storedLeft keptLeft
  obtain ⟨right, attestedRight⟩ := attested_of_requestCid recorded storedRight keptRight
  rw [← sameProbe] at attestedRight
  obtain ⟨_, responseLeft, requested, responded, decodedRequest, decodedResponse⟩ :=
    texts_of_attested recorded attestedLeft
  obtain ⟨_, responseRight, requested', responded', decodedRequest', decodedResponse'⟩ :=
    texts_of_attested recorded attestedRight
  obtain rfl := Option.some.inj (keptLeft.symm.trans requested)
  obtain rfl := Option.some.inj (keptRight.symm.trans requested')
  have requests := (plainDigits_eq_iff decodedRequest decodedRequest').mp sameDigits
  obtain ⟨keys, answers⟩ := publishes.values _ _ _ _ _ attestedLeft attestedRight requests
  have sameText : leftRow.requestCid = rightRow.requestCid :=
    congrArg ConflictKey.requestCid (keys ⟨0, "", "", 0, "", "", "", 0⟩)
  rw [requested, requested'] at sameText
  refine ⟨Option.some.inj sameText, fun leftText keptText rightText keptText' digits => ?_⟩
  obtain rfl := Option.some.inj (keptText.symm.trans responded)
  obtain rfl := Option.some.inj (keptText'.symm.trans responded')
  have sameAnswer := answers ((plainDigits_eq_iff decodedResponse decodedResponse').mp digits)
  rw [responded, responded'] at sameAnswer
  exact Option.some.inj sameAnswer

/-- Two attestations over one request with different responses are published, if they are
spelled alike. -/
theorem published_of_apart (recorded : Recorded crates db) (spelled : SpelledAlike db) {probe : Uuid}
    {leftRow rightRow : ObservationRow} {left right : SignedFields}
    (attestedLeft : Attested crates db probe leftRow left)
    (attestedRight : Attested crates db probe rightRow right)
    (requests : left.request = right.request) (apart : left.response ≠ right.response) :
    ∃ group ∈ conflictGroups db fun _ => true,
      group.key.probeId = probe ∧ group.key.requestCid.bind cidBytes = some left.request := by
  obtain ⟨sameText, sameAnswer⟩ := texts_eq_iff recorded spelled attestedLeft attestedRight
  obtain ⟨request, response, requested, responded, decoded, _⟩ :=
    texts_of_attested recorded attestedLeft
  obtain ⟨_, response', _, responded', _⟩ := texts_of_attested recorded attestedRight
  obtain ⟨group, published, ofProbe, ofRequest⟩ := (exists_conflictGroup_iff recorded).mpr
    ⟨leftRow, attestedLeft.stored, rightRow, attestedRight.stored,
      ⟨attestedLeft.probeId, rfl, by rw [responded]; rfl⟩,
      ⟨attestedRight.probeId, (sameText.mpr requests).symm, by rw [responded']; rfl⟩,
      fun same => apart ((sameAnswer requests).mp same)⟩
  refine ⟨group, published, ofProbe, ?_⟩
  rw [ofRequest, requested, Option.bind_some, decoded]

/-- The published conflicts are the disputable ones exactly when the signers spell one value
one way, and those who disagree signed for one deployment. -/
theorem publishesDisputable_iff (recorded : Recorded crates db) :
    PublishesDisputable crates db ↔ SpelledAlike db ∧ SameDeployment crates db := by
  constructor
  · intro publishes
    have spelled := spelledAlike_of_publishes recorded publishes
    refine ⟨spelled, fun probe leftRow left rightRow right attestedLeft attestedRight requests apart =>
      (publishes.conflicts probe left.request).mp ?_⟩
    exact published_of_apart recorded spelled attestedLeft attestedRight requests apart
  · rintro ⟨spelled, deployment⟩
    refine ⟨fun probe request => ⟨?_, ?_⟩, ?_⟩
    · rintro ⟨group, published, ofProbe, ofRequest⟩
      obtain ⟨leftRow, storedLeft, rightRow, storedRight, ⟨rfl, requestLeft, answeredLeft⟩,
        ⟨sameProbe, requestRight, answeredRight⟩, apart⟩ :=
          (exists_conflictGroup_iff recorded).mp ⟨group, published, ofProbe, rfl⟩
      obtain ⟨left, attestedLeft⟩ := attested_of_responseCid recorded storedLeft answeredLeft
      obtain ⟨right, attestedRight⟩ := attested_of_responseCid recorded storedRight answeredRight
      rw [sameProbe] at attestedRight
      obtain ⟨sameText, sameAnswer⟩ := texts_eq_iff recorded spelled attestedLeft attestedRight
      have requests := sameText.mp (requestLeft.trans requestRight.symm)
      obtain ⟨_, _, requested, _, decoded, _⟩ := texts_of_attested recorded attestedLeft
      rw [← requestLeft, requested, Option.bind_some, decoded] at ofRequest
      obtain rfl := Option.some.inj ofRequest
      exact deployment _ _ _ _ _ attestedLeft attestedRight requests
        fun same => apart ((sameAnswer requests).mpr same)
    · rintro ⟨leftRow, left, rightRow, right, attestedLeft, attestedRight, rfl, requests, _, apart⟩
      exact published_of_apart recorded spelled attestedLeft attestedRight requests apart
    · intro probe leftRow left rightRow right attestedLeft attestedRight requests
      obtain ⟨sameText, sameAnswer⟩ := texts_eq_iff recorded spelled attestedLeft attestedRight
      refine ⟨fun entry => ?_, (sameAnswer requests).mpr⟩
      rw [conflictKey, conflictKey, attestedLeft.probeId, attestedRight.probeId,
        sameText.mpr requests]

end Disputable

section Samples

variable {a b c : Char} {x y z : UInt8} {attestations : List Json}

/-- What an indexer's attested answer to the one probe is stored as. -/
def attestedRow (attestations : List Json) (indexer : String) (attestation : Json) :
    ObservationRow :=
  (answered (oneKeyCrates attestations) indexer attestation).toRow 1

/-- The three fields of an attestation that repeats one digit in each. -/
def fieldsOf (x y z : UInt8) : SignedFields :=
  ⟨List.replicate 32 (x <<< 4 ||| x), List.replicate 32 (y <<< 4 ||| y),
    List.replicate 32 (z <<< 4 ||| z)⟩

/-- The hashes and the signed fields of a stored observation. -/
structure Reads (crates : Crates) (row : ObservationRow) (request response : String)
    (fields : SignedFields) : Prop where
  requestCid : row.requestCid = some request
  responseCid : row.responseCid = some response
  signed : row.attestation.bind (signedFields crates) = some fields

private theorem signedFields_attestationOf {crates : Crates} {header : String}
    {publicKey : List UInt8}
    (request : PlainDigit a x) (response : PlainDigit b y) (deployment : PlainDigit c z)
    (recovers : ∀ digest r s v, crates.recoverKey digest r s v = some publicKey)
    (parsed : crates.parse header = some (attestationOf (hex64 a) (hex64 b) (hex64 c))) :
    signedFields crates header = some (fieldsOf x y z) := by
  rw [signedFields, parsed]
  simp only [Option.bind_eq_bind, Option.bind_some,
    tryRecoverSigner_attestationOf request response deployment recovers]
  rw [parseHex32_hex64 request rfl, parseHex32_hex64 response rfl, parseHex32_hex64 deployment rfl]
  rfl

private theorem attestedRow_spec (distinct : ((attestedTexts attestations).map Prod.fst).Nodup)
    (request : PlainDigit a x) (response : PlainDigit b y) (deployment : PlainDigit c z)
    (member : attestationOf (hex64 a) (hex64 b) (hex64 c) ∈ attestations) {indexer : String}
    (address : indexer.length = 42) :
    Reads (oneKeyCrates attestations)
      (attestedRow attestations indexer (attestationOf (hex64 a) (hex64 b) (hex64 c)))
      (hex64 a) (hex64 b) (fieldsOf x y z) := by
  have parsed := parse_attestation distinct member
  have carried := attestation_answered distinct member address
  rw [render_attestationOf] at carried
  have evidence := evidenced_answered (oneKeyCrates attestations) indexer
    (attestationOf (hex64 a) (hex64 b) (hex64 c))
  have kept := attestationCids_attestationOf request response deployment (fun _ _ _ _ => rfl) parsed
  have signed := signedFields_attestationOf request response deployment (fun _ _ _ _ => rfl) parsed
  refine ⟨evidence.requestCid.trans ?_, evidence.responseCid.trans ?_, ?_⟩
  · rw [carried, Option.bind_some, kept]
    rfl
  · rw [carried, Option.bind_some, kept]
    rfl
  · exact (congrArg (Option.bind · _) carried).trans signed

def leftIndexer : String := "0x00000000000000000000000000000000000000aa"

def rightIndexer : String := "0x00000000000000000000000000000000000000cc"

private theorem key_attestedRow (indexer : String) (attestation : Json) :
    (attestedRow attestations indexer attestation).key = (1, indexer) :=
  congrArg (Prod.mk (1 : Uuid)) (indexerAddress_executePaidProbe _ _ _)

/-- One probe, answered by two paid indexers with an attestation each. -/
def pairDb (left right : Json) : Db :=
  { Db.empty with
    probe := Table.empty.insertNew ⟨1, "Qm", "0x00", 100, "", "", "", 0⟩
    observation := ⟨[attestedRow [left, right] leftIndexer left,
      attestedRow [left, right] rightIndexer right], by
        simp only [List.map_cons, List.map_nil, key_attestedRow]
        decide⟩ }

private theorem mem_pairDb {left right : Json} {row : ObservationRow} :
    row ∈ (pairDb left right).observation ↔
      row = attestedRow [left, right] leftIndexer left ∨
        row = attestedRow [left, right] rightIndexer right := by
  rw [← Table.mem_rows]
  exact List.mem_pair

private theorem recorded_pairDb (left right : Json) :
    Recorded (oneKeyCrates [left, right]) (pairDb left right) where
  executed row stored := by
    rcases mem_pairDb.mp stored with rfl | rfl
    · exact ⟨_, rfl, .inr ⟨_, _, rfl⟩⟩
    · exact ⟨_, rfl, .inr ⟨_, _, rfl⟩⟩
  probed row stored := by
    have ofProbe : row.probeId = 1 := by
      rcases mem_pairDb.mp stored with rfl | rfl
      · rfl
      · rfl
    rw [ofProbe]
    exact Table.holds_of_mem (Table.mem_insertNew.mpr (.inr ⟨by decide, rfl⟩))

/-- Two answers under one request text are published when their response texts differ. -/
theorem published_pairDb {left right : Json} {request one other : String} {fields otherFields : SignedFields}
    (readsLeft : Reads (oneKeyCrates [left, right]) (attestedRow [left, right] leftIndexer left)
      request one fields)
    (readsRight : Reads (oneKeyCrates [left, right]) (attestedRow [left, right] rightIndexer right)
      request other otherFields) (apart : one ≠ other) :
    ∃ group ∈ conflictGroups (pairDb left right) fun _ => true,
      group.key.probeId = 1 ∧ group.key.requestCid = some request := by
  refine (exists_conflictGroup_iff (recorded_pairDb left right)).mpr
    ⟨_, mem_pairDb.mpr (.inl rfl), _, mem_pairDb.mpr (.inr rfl), ⟨rfl, readsLeft.requestCid, ?_⟩,
      ⟨rfl, readsRight.requestCid, ?_⟩, fun same => apart ?_⟩
  · exact Option.isSome_of_eq_some readsLeft.responseCid
  · exact Option.isSome_of_eq_some readsRight.responseCid
  · exact Option.some.inj (readsLeft.responseCid.symm.trans (same.trans readsRight.responseCid))

/-- What is published about one set of three values is refuted by the contract's test. -/
theorem not_publishes_pairDb {left right : Json} {request : String} {fields : SignedFields}
    (signed : ∀ row ∈ (pairDb left right).observation,
      row.attestation.bind (signedFields (oneKeyCrates [left, right])) = some fields)
    (published : ∃ group ∈ conflictGroups (pairDb left right) fun _ => true,
      group.key.probeId = 1 ∧ group.key.requestCid = some request)
    (value : cidBytes request = some fields.request) :
    ¬ PublishesDisputable (oneKeyCrates [left, right]) (pairDb left right) := by
  intro publishes
  obtain ⟨group, listed, ofProbe, ofRequest⟩ := published
  obtain ⟨leftRow, one, rightRow, other, attestedLeft, attestedRight, _, _, _, differs⟩ :=
    (publishes.conflicts 1 fields.request).mp
      ⟨group, listed, ofProbe, by rw [ofRequest, Option.bind_some, value]⟩
  have sameLeft := (signed leftRow attestedLeft.stored).symm.trans attestedLeft.signed
  have sameRight := (signed rightRow attestedRight.stored).symm.trans attestedRight.signed
  exact differs (congrArg SignedFields.response (Option.some.inj (sameLeft.symm.trans sameRight)))

/-- `someAttestation` with the response in capitals. -/
def respelled : Json := attestationOf (hex64 'a') (hex64 'B') (hex64 'c')

/-- Two attestations over the same three values are published as a conflict, because one
indexer writes its response in capitals. -/
theorem respelled_refutes :
    Recorded (oneKeyCrates [someAttestation, respelled]) (pairDb someAttestation respelled) ∧
      (∀ row ∈ (pairDb someAttestation respelled).observation,
        row.attestation.bind (signedFields (oneKeyCrates [someAttestation, respelled])) =
          some (fieldsOf 10 11 12)) ∧
      (∃ group ∈ conflictGroups (pairDb someAttestation respelled) fun _ => true,
        group.key.probeId = 1 ∧ group.key.requestCid = some (hex64 'a')) ∧
      ¬ PublishesDisputable (oneKeyCrates [someAttestation, respelled])
          (pairDb someAttestation respelled) := by
  have texts : ((attestedTexts [someAttestation, respelled]).map Prod.fst).Nodup := by decide +kernel
  have request : PlainDigit 'a' 10 := ⟨by decide, by decide⟩
  have lower : PlainDigit 'b' 11 := ⟨by decide, by decide⟩
  have upper : PlainDigit 'B' 11 := ⟨by decide, by decide⟩
  have deployment : PlainDigit 'c' 12 := ⟨by decide, by decide⟩
  have left := attestedRow_spec texts request lower deployment List.mem_cons_self
    (show leftIndexer.length = 42 by decide)
  have right := attestedRow_spec texts request upper deployment
    (List.mem_cons_of_mem _ List.mem_cons_self) (show rightIndexer.length = 42 by decide)
  have signed : ∀ row ∈ (pairDb someAttestation respelled).observation,
      row.attestation.bind (signedFields (oneKeyCrates [someAttestation, respelled])) =
        some (fieldsOf 10 11 12) := by
    intro row stored
    rcases mem_pairDb.mp stored with rfl | rfl
    · exact left.signed
    · exact right.signed
  have published := published_pairDb left right (by decide)
  exact ⟨recorded_pairDb _ _, signed, published,
    not_publishes_pairDb signed published request.cidBytes_hex64⟩

/-- Two answers over one request for one deployment, with responses of different values. -/
theorem publishes_pairDb {left right : Json} {request one other : String}
    {fields otherFields : SignedFields}
    (readsLeft : Reads (oneKeyCrates [left, right]) (attestedRow [left, right] leftIndexer left)
      request one fields)
    (readsRight : Reads (oneKeyCrates [left, right]) (attestedRow [left, right] rightIndexer right)
      request other otherFields)
    (apart : plainDigits one ≠ plainDigits other) (conflict : fields.Conflict otherFields) :
    SpelledAlike (pairDb left right) ∧
      SameDeployment (oneKeyCrates [left, right]) (pairDb left right) := by
  constructor
  · intro leftRow storedLeft rightRow storedRight _ leftRequest keptLeft rightRequest keptRight _
    have requested : ∀ row ∈ (pairDb left right).observation, row.requestCid = some request := by
      intro row stored
      rcases mem_pairDb.mp stored with rfl | rfl
      · exact readsLeft.requestCid
      · exact readsRight.requestCid
    have same : some leftRequest = some rightRequest :=
      keptLeft.symm.trans ((requested leftRow storedLeft).trans
        ((requested rightRow storedRight).symm.trans keptRight))
    refine ⟨Option.some.inj same, fun leftResponse answeredLeft rightResponse answeredRight digits => ?_⟩
    rcases mem_pairDb.mp storedLeft with rfl | rfl <;> rcases mem_pairDb.mp storedRight with rfl | rfl
    · exact Option.some.inj (answeredLeft.symm.trans answeredRight)
    · obtain rfl := Option.some.inj (readsLeft.responseCid.symm.trans answeredLeft)
      obtain rfl := Option.some.inj (readsRight.responseCid.symm.trans answeredRight)
      exact absurd digits apart
    · obtain rfl := Option.some.inj (readsRight.responseCid.symm.trans answeredLeft)
      obtain rfl := Option.some.inj (readsLeft.responseCid.symm.trans answeredRight)
      exact absurd digits.symm apart
    · exact Option.some.inj (answeredLeft.symm.trans answeredRight)
  · intro probe leftRow one rightRow other attestedLeft attestedRight _ _
    have ofProbe : probe = 1 := by
      rw [← attestedLeft.probeId]
      rcases mem_pairDb.mp attestedLeft.stored with rfl | rfl
      · rfl
      · rfl
    have requests : fields.request = one.request := by
      have signed := attestedLeft.signed
      rcases mem_pairDb.mp attestedLeft.stored with rfl | rfl
      · rw [readsLeft.signed] at signed
        exact congrArg SignedFields.request (Option.some.inj signed)
      · rw [readsRight.signed] at signed
        exact conflict.1.trans (congrArg SignedFields.request (Option.some.inj signed))
    obtain rfl := ofProbe
    exact ⟨_, fields, _, otherFields, ⟨mem_pairDb.mpr (.inl rfl), rfl, readsLeft.signed⟩,
      ⟨mem_pairDb.mpr (.inr rfl), rfl, readsRight.signed⟩, requests, conflict⟩

/-- `someAttestation` with another response. -/
def disagreeing : Json := attestationOf (hex64 'a') (hex64 'e') (hex64 'c')

/-- Two signers who spell alike and disagree are published. -/
theorem disagreement_published :
    PublishesDisputable (oneKeyCrates [someAttestation, disagreeing])
      (pairDb someAttestation disagreeing) := by
  have texts : ((attestedTexts [someAttestation, disagreeing]).map Prod.fst).Nodup := by
    decide +kernel
  have request : PlainDigit 'a' 10 := ⟨by decide, by decide⟩
  have response : PlainDigit 'b' 11 := ⟨by decide, by decide⟩
  have other : PlainDigit 'e' 14 := ⟨by decide, by decide⟩
  have deployment : PlainDigit 'c' 12 := ⟨by decide, by decide⟩
  have left := attestedRow_spec texts request response deployment List.mem_cons_self
    (show leftIndexer.length = 42 by decide)
  have right := attestedRow_spec texts request other deployment
    (List.mem_cons_of_mem _ List.mem_cons_self) (show rightIndexer.length = 42 by decide)
  have responses : plainDigits (hex64 'b') ≠ plainDigits (hex64 'e') :=
    mt (plainDigits_eq_iff response.cidBytes_hex64 other.cidBytes_hex64).mp (by decide)
  exact (publishesDisputable_iff (recorded_pairDb _ _)).mpr
    (publishes_pairDb left right responses ⟨rfl, rfl, by decide⟩)

end Samples

end Foghorn.Api
