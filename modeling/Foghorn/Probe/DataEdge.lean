import Foghorn.Core.Deployment
import Foghorn.Probe.HexText
import Foghorn.Std.AbiWords
import Foghorn.Std.JsonScan
import Foghorn.Std.Text

/-!
# What the publisher posts

The publisher calls its contract with one string, a JSON object. Foghorn does not decode the
call: it takes what stands from the first `{` to the last `}` of all its bytes. That is the
object unless the length of the string is spelled with the byte of `{`.
-/

namespace Foghorn.Probe

open Foghorn.Core Foghorn.Std

/-- The payload of the publisher, as carried in calldata. -/
structure OraclePayload where
  topic : String
  hash : String
  /-- Epoch seconds of the bucket that the payload describes. -/
  timestamp : Int
deriving DecidableEq

/-- `Iterator::rposition`. -/
def rposition (wanted : UInt8 → Bool) (bytes : List UInt8) : Option Nat :=
  (bytes.reverse.findIdx? wanted).map fun index => bytes.length - 1 - index

def openBrace : UInt8 := 0x7b

def closeBrace : UInt8 := 0x7d

/-- `decode_payload`; `parse` is `serde_json::from_str::<OraclePayload>`. -/
def decodePayload (parse : String → Option OraclePayload) (rawInput : String) :
    Option OraclePayload := do
  let bytes ← hexDecode (stripHexMarker rawInput.toList)
  let start ← bytes.findIdx? (· = openBrace)
  let stop ← rposition (· = closeBrace) bytes
  if stop ≤ start then none
  else
    let json ← fromUtf8 ((bytes.drop start).take (stop + 1 - start))
    parse json

/-- The selector of the call. -/
def publisherSelector : List UInt8 := [0x53, 0xb7, 0x34, 0x47]

/-- The call of the publisher with one string. -/
def publisherCalldata (text : List Char) : List UInt8 :=
  publisherSelector ++ abiEncode [abiString (utf8Bytes text)]

/-- White space of JSON. -/
def isJsonSpace (c : Char) : Bool := c ∈ [' ', '\t', '\n', '\r']

/-- An object with white space around it. -/
structure ObjectText (text lead body trail : List Char) : Prop where
  shape : text = lead ++ ('{' :: (body ++ '}' :: trail))
  lead : ∀ c ∈ lead, isJsonSpace c
  trail : ∀ c ∈ trail, isJsonSpace c

/-- What is known of the parser: white space around a value does not matter, and an object
that it reads closes with its last bracket. -/
structure ParsesJson (parse : String → Option OraclePayload) : Prop where
  spaces : ∀ lead body trail : List Char, (∀ c ∈ lead, isJsonSpace c) → (∀ c ∈ trail, isJsonSpace c) →
    parse (String.ofList (lead ++ body ++ trail)) = parse (String.ofList body)
  closes : ∀ (body : List Char) (payload : OraclePayload),
    parse (String.ofList ('{' :: (body ++ ['}']))) = some payload →
      ClosesAtEnd ('{' :: (body ++ ['}']))

section Positions

variable {bytes before after : List UInt8} {wanted : UInt8 → Bool} {byte : UInt8}

private theorem findIdx?_append_cons (absent : ∀ other ∈ before, wanted other = false)
    (found : wanted byte) :
    (before ++ byte :: after).findIdx? wanted = some before.length := by
  have missing : before.findIdx? wanted = none := List.findIdx?_eq_none_iff.mpr absent
  simp [List.findIdx?_append, List.findIdx?_cons, missing, found]

private theorem rposition_append_cons (absent : ∀ other ∈ after, wanted other = false)
    (found : wanted byte) :
    rposition wanted (before ++ byte :: after) = some before.length := by
  have reversed : (before ++ byte :: after).reverse = after.reverse ++ byte :: before.reverse := by
    simp
  have absentReversed : ∀ other ∈ after.reverse, wanted other = false := fun other member =>
    absent other (List.mem_reverse.mp member)
  rw [rposition, reversed, findIdx?_append_cons absentReversed found, Option.map_some]
  simp

/-- From the first opening to the last closing brace. -/
theorem decodePayload_of_braces {parse : String → Option OraclePayload} {rawInput : String}
    {middle : List UInt8} (decoded : hexDecode (stripHexMarker rawInput.toList) =
      some (before ++ openBrace :: (middle ++ closeBrace :: after)))
    (first : openBrace ∉ before) (last : closeBrace ∉ after) :
    decodePayload parse rawInput =
      (fromUtf8 (openBrace :: (middle ++ [closeBrace]))).bind parse := by
  have start : (before ++ openBrace :: (middle ++ closeBrace :: after)).findIdx? (· = openBrace) =
      some before.length := by
    refine findIdx?_append_cons (fun other member => ?_) (by simp)
    exact decide_eq_false fun same => first (same ▸ member)
  have stop : rposition (· = closeBrace) (before ++ openBrace :: (middle ++ closeBrace :: after)) =
      some (before ++ openBrace :: middle).length := by
    have shape : before ++ openBrace :: (middle ++ closeBrace :: after) =
        (before ++ openBrace :: middle) ++ closeBrace :: after := by simp
    rw [shape]
    refine rposition_append_cons (fun other member => ?_) (by simp)
    exact decide_eq_false fun same => last (same ▸ member)
  have length : (before ++ openBrace :: middle).length = before.length + (middle.length + 1) := by
    rw [List.length_append, List.length_cons]
  have inner : ((before ++ openBrace :: (middle ++ closeBrace :: after)).drop before.length).take
      (before.length + (middle.length + 1) + 1 - before.length) =
        openBrace :: (middle ++ [closeBrace]) := by
    have count : before.length + (middle.length + 1) + 1 - before.length = middle.length + 2 := by omega
    rw [List.drop_left, count, List.take_succ_cons, List.take_append]
    simp
  rw [decodePayload, decoded]
  simp only [Option.bind_eq_bind, Option.bind_some, start, stop, length, inner]
  rw [if_neg (by omega)]

end Positions

section Calldata

variable {parse : String → Option OraclePayload} {rawInput : String} {text lead body trail : List Char}
  {payload : OraclePayload}

/-- The bytes of the call before those of the string. -/
def publisherHead (length : Nat) : List UInt8 := publisherSelector ++ (abiWord 32 ++ abiWord length)

/-- The calldata is the head with the text's length, then the text padded to words. -/
theorem publisherCalldata_eq (text : List Char) : publisherCalldata text =
    publisherHead (utf8Bytes text).length ++ padded (utf8Bytes text) := by
  simp [publisherCalldata, publisherHead, abiEncode, abiString, abiHeads, abiTails, AbiArg.headLength]

private theorem isAscii_of_space {chars : List Char} (spaces : ∀ c ∈ chars, isJsonSpace c) :
    IsAscii chars := by
  intro c member
  have space := spaces c member
  simp only [isJsonSpace, List.mem_cons, List.not_mem_nil, or_false, decide_eq_true_eq] at space
  rcases space with rfl | rfl | rfl | rfl <;> decide

private theorem notMem_of_space {chars : List Char} (spaces : ∀ c ∈ chars, isJsonSpace c)
    {byte : UInt8}
    (brace : byte = openBrace ∨ byte = closeBrace) : byte ∉ utf8Bytes chars := by
  rw [utf8Bytes_ascii (isAscii_of_space spaces)]
  intro member
  obtain ⟨c, listed, same⟩ := List.mem_map.mp member
  have space := spaces c listed
  simp only [isJsonSpace, List.mem_cons, List.not_mem_nil, or_false, decide_eq_true_eq] at space
  rcases brace with rfl | rfl <;> rcases space with rfl | rfl | rfl | rfl <;> cases same

/-- The bytes of an object: its braces are bytes of their own. -/
theorem utf8Bytes_object (lead body trail : List Char) :
    utf8Bytes (lead ++ ('{' :: (body ++ '}' :: trail))) =
      utf8Bytes lead ++ openBrace :: (utf8Bytes body ++ closeBrace :: utf8Bytes trail) := by
  rw [utf8Bytes_append, utf8Bytes_cons, utf8Bytes_append, utf8Bytes_cons]
  rfl

/-- An object text is its blanks around the braces and the body between them. -/
theorem ObjectText.split (object : ObjectText text lead body trail) :
    text = lead ++ ('{' :: (body ++ ['}'])) ++ trail := by simp [object.shape]

/-- The object itself reads as the payload, and closes with its last brace. -/
theorem ObjectText.parse_inner (object : ObjectText text lead body trail) (parses : ParsesJson parse)
    (parsed : parse (String.ofList text) = some payload) :
    parse (String.ofList ('{' :: (body ++ ['}']))) = some payload := by
  rw [← parsed, object.split]
  exact (parses.spaces lead ('{' :: (body ++ ['}'])) trail object.lead object.trail).symm

/-- What is cut out from a brace before the object reads as nothing. -/
theorem parse_ne_of_earlier_brace (parses : ParsesJson parse) {before : List UInt8}
    (ascii : IsAscii (lead ++ ('{' :: (body ++ ['}']))))
    (closes : ClosesAtEnd ('{' :: (body ++ ['}']))) :
    (fromUtf8 (openBrace :: (before ++ utf8Bytes (lead ++ ('{' :: (body ++ ['}'])))))).bind parse ≠
      some payload := by
  intro read
  obtain ⟨json, decoded, parsed⟩ := Option.bind_eq_some_iff.mp read
  have bytes := fromUtf8_eq_some_iff.mp decoded
  rw [← List.cons_append] at bytes
  obtain ⟨front, chars, frontBytes⟩ := append_of_utf8Bytes ascii bytes
  obtain ⟨tail, rfl, _⟩ := @cons_of_utf8Bytes front '{' before (by decide) frontBytes
  have text : json = String.ofList ('{' :: ((tail ++ lead ++ '{' :: body) ++ ['}'])) := by
    rw [← String.toList_inj, chars, String.toList_ofList]
    simp
  rw [text] at parsed
  have whole := parses.closes _ _ parsed
  have shape : '{' :: ((tail ++ lead ++ '{' :: body) ++ ['}']) =
      ('{' :: (tail ++ lead)) ++ '{' :: (body ++ ['}']) := by simp
  rw [shape] at whole
  exact not_closesAtEnd_append (by simp) closes whole

/-- The bytes of a call behind the last brace of its object. -/
def publisherTail (text trail : List Char) : List UInt8 :=
  utf8Bytes trail ++ List.replicate ((32 - text.length % 32) % 32) 0

private theorem closeBrace_notMem_publisherTail (text : List Char)
    (spaces : ∀ c ∈ trail, isJsonSpace c) :
    closeBrace ∉ publisherTail text trail := by
  rw [publisherTail, List.mem_append, not_or]
  refine ⟨notMem_of_space spaces (.inr rfl), fun member => ?_⟩
  cases List.eq_of_mem_replicate member

private theorem publisherCalldata_object (object : ObjectText text lead body trail)
    (ascii : IsAscii text) :
    publisherCalldata text = publisherHead text.length ++ (utf8Bytes lead ++
      openBrace :: (utf8Bytes body ++ closeBrace :: publisherTail text trail)) := by
  have length : (utf8Bytes text).length = text.length := by
    rw [utf8Bytes_ascii ascii, List.length_map]
  have textBytes : utf8Bytes text = utf8Bytes lead ++
      openBrace :: (utf8Bytes body ++ closeBrace :: utf8Bytes trail) := by
    rw [object.shape, utf8Bytes_object]
  rw [publisherCalldata_eq, padded, length, textBytes, publisherTail]
  simp

private theorem utf8Bytes_braces (body : List Char) :
    utf8Bytes ('{' :: (body ++ ['}'])) = openBrace :: (utf8Bytes body ++ [closeBrace]) := by
  rw [utf8Bytes_cons, utf8Bytes_append]
  rfl

private theorem openBrace_notMem_selector : openBrace ∉ publisherSelector ++ abiWord 32 := by decide

/-- With no brace before the object the object is cut out. -/
theorem decodePayload_of_notMem (parses : ParsesJson parse) (object : ObjectText text lead body trail)
    (ascii : IsAscii text) (parsed : parse (String.ofList text) = some payload)
    (call : hexDecode (stripHexMarker rawInput.toList) = some (publisherCalldata text))
    (absent : openBrace ∉ abiWord text.length) : decodePayload parse rawInput = some payload := by
  have head : openBrace ∉ publisherHead text.length ++ utf8Bytes lead := by
    have selector := openBrace_notMem_selector
    simp only [publisherHead, List.mem_append, not_or] at selector ⊢
    exact ⟨⟨selector.1, selector.2, absent⟩, notMem_of_space object.lead (.inl rfl)⟩
  have decoded : fromUtf8 (openBrace :: (utf8Bytes body ++ [closeBrace])) =
      some (String.ofList ('{' :: (body ++ ['}']))) := by
    rw [fromUtf8_eq_some_iff, String.toList_ofList, utf8Bytes_braces]
  rw [publisherCalldata_object object ascii, ← List.append_assoc] at call
  rw [decodePayload_of_braces call head (closeBrace_notMem_publisherTail text object.trail), decoded,
    Option.bind_some, object.parse_inner parses parsed]

/-- With the byte of a brace in the length word, what is cut out begins there. -/
theorem decodePayload_ne_of_mem (parses : ParsesJson parse) (object : ObjectText text lead body trail)
    (ascii : IsAscii text) (parsed : parse (String.ofList text) = some payload)
    (call : hexDecode (stripHexMarker rawInput.toList) = some (publisherCalldata text))
    (member : openBrace ∈ abiWord text.length) : decodePayload parse rawInput ≠ some payload := by
  obtain ⟨before, after, word, fresh⟩ := List.eq_append_cons_of_mem member
  have head : openBrace ∉ publisherSelector ++ (abiWord 32 ++ before) := by
    have selector := openBrace_notMem_selector
    simp only [List.mem_append, not_or] at selector ⊢
    exact ⟨selector.1, selector.2, fresh⟩
  have bytes : publisherCalldata text = (publisherSelector ++ (abiWord 32 ++ before)) ++ openBrace ::
      ((after ++ utf8Bytes lead ++ openBrace :: utf8Bytes body) ++
        closeBrace :: publisherTail text trail) := by
    rw [publisherCalldata_object object ascii, publisherHead, word]
    simp
  have cut : openBrace :: ((after ++ utf8Bytes lead ++ openBrace :: utf8Bytes body) ++ [closeBrace]) =
      openBrace :: (after ++ utf8Bytes (lead ++ ('{' :: (body ++ ['}'])))) := by
    rw [utf8Bytes_append, utf8Bytes_braces]
    simp
  have asciiInner : IsAscii (lead ++ ('{' :: (body ++ ['}']))) := fun c inside =>
    ascii c (object.split ▸ List.mem_append_left trail inside)
  rw [bytes] at call
  rw [decodePayload_of_braces call head (closeBrace_notMem_publisherTail text object.trail), cut]
  exact parse_ne_of_earlier_brace parses asciiInner
    (parses.closes body payload (object.parse_inner parses parsed))

/-- The payload of a call is read back exactly when no byte of the length word is that of an
opening brace. -/
theorem decodePayload_eq_iff (parses : ParsesJson parse) (object : ObjectText text lead body trail)
    (ascii : IsAscii text) (parsed : parse (String.ofList text) = some payload)
    (call : hexDecode (stripHexMarker rawInput.toList) = some (publisherCalldata text)) :
    decodePayload parse rawInput = some payload ↔ openBrace ∉ abiWord text.length := by
  constructor
  · intro read member
    exact decodePayload_ne_of_mem parses object ascii parsed call member read
  · exact decodePayload_of_notMem parses object ascii parsed call

end Calldata

section Samples

/-- A parser that knows the object of one body. -/
def parseKnown (body : List Char) (payload : OraclePayload) (text : String) : Option OraclePayload :=
  if trimBy isJsonSpace text.toList = '{' :: (body ++ ['}']) then some payload else none

private theorem trimBy_object (body : List Char) :
    trimBy isJsonSpace ('{' :: (body ++ ['}'])) = '{' :: (body ++ ['}']) := by
  apply trimBy_eq_self
  · intro c first
    obtain rfl := Option.some.inj first
    decide
  · intro c last
    rw [← List.cons_append, List.getLast?_concat] at last
    obtain rfl := Option.some.inj last
    decide

private theorem parseKnown_object (body : List Char) (payload : OraclePayload) :
    parseKnown body payload (String.ofList ('{' :: (body ++ ['}']))) = some payload := by
  rw [parseKnown, String.toList_ofList, trimBy_object, if_pos rfl]

private theorem parsesJson_parseKnown {known : List Char} (payload : OraclePayload)
    (closes : ClosesAtEnd ('{' :: (known ++ ['}']))) : ParsesJson (parseKnown known payload) where
  spaces := by
    intro lead body trail leadSpaces trailSpaces
    rw [parseKnown, parseKnown, String.toList_ofList, String.toList_ofList,
      trimBy_append leadSpaces trailSpaces]
  closes := by
    intro body read parsed
    rw [parseKnown, String.toList_ofList, trimBy_object] at parsed
    split at parsed
    · rename_i same
      exact same ▸ closes
    · cases parsed

private theorem objectText_bare (body : List Char) :
    ObjectText ('{' :: (body ++ ['}'])) [] body [] where
  shape := rfl
  lead := by simp
  trail := by simp

/-- The last message of the publisher, without its braces. -/
def lastBody : List Char :=
  ("\"topic\": \"gateway_indexer_attempt_qos_5_minutes_prod_v3\", " ++
    "\"hash\": \"QmfFfjZV5oHQT4LnNET5UtZThtE3uSs7v7xhucCw7vpBAR\", \"timestamp\": 1785284700").toList

def lastPayload : OraclePayload where
  topic := "gateway_indexer_attempt_qos_5_minutes_prod_v3"
  hash := "QmfFfjZV5oHQT4LnNET5UtZThtE3uSs7v7xhucCw7vpBAR"
  timestamp := 1785284700

private theorem lastBody_checked : closesFrom (.outside 0) ('{' :: (lastBody ++ ['}'])) ∧
    IsAscii ('{' :: (lastBody ++ ['}'])) := by
  decide +kernel

/-- The publisher's last message is decoded exactly when its length is spelled without a brace. -/
theorem decodePayload_eq_iff_lastBody :
    decodePayload (parseKnown lastBody lastPayload) (markedHex (publisherCalldata ('{' :: (lastBody ++ ['}'])))) =
      some lastPayload ↔ openBrace ∉ abiWord ('{' :: (lastBody ++ ['}'])).length :=
  decodePayload_eq_iff
    (parsesJson_parseKnown lastPayload (closesAtEnd_of_closesFrom lastBody_checked.1))
    (objectText_bare lastBody) lastBody_checked.2 (parseKnown_object lastBody lastPayload)
    (hexDecode_markedHex _)

/-- A message of another topic. With its braces it has 123 characters. -/
def shortBody : List Char :=
  ("\"topic\": \"gateway_indexer_qos_prod_v3\", " ++
    "\"hash\": \"QmfFfjZV5oHQT4LnNET5UtZThtE3uSs7v7xhucCw7vpBAR\", \"timestamp\": 1785284700").toList

def shortPayload : OraclePayload where
  topic := "gateway_indexer_qos_prod_v3"
  hash := "QmfFfjZV5oHQT4LnNET5UtZThtE3uSs7v7xhucCw7vpBAR"
  timestamp := 1785284700

private theorem shortBody_checked : closesFrom (.outside 0) ('{' :: (shortBody ++ ['}'])) ∧
    IsAscii ('{' :: (shortBody ++ ['}'])) ∧ openBrace ∈ abiWord ('{' :: (shortBody ++ ['}'])).length := by
  decide +kernel

/-- Its length is spelled with the byte of an opening brace. -/
theorem shortBody_not_decoded : ¬ ∀ (parse : String → Option OraclePayload) (rawInput : String)
    (text lead body trail : List Char) (payload : OraclePayload), ParsesJson parse →
      ObjectText text lead body trail → IsAscii text → parse (String.ofList text) = some payload →
        hexDecode (stripHexMarker rawInput.toList) = some (publisherCalldata text) →
          decodePayload parse rawInput = some payload := by
  intro decodes
  obtain ⟨closes, ascii, member⟩ := shortBody_checked
  have parses := parsesJson_parseKnown shortPayload (closesAtEnd_of_closesFrom closes)
  have object := objectText_bare shortBody
  have parsed := parseKnown_object shortBody shortPayload
  have call := hexDecode_markedHex (publisherCalldata ('{' :: (shortBody ++ ['}'])))
  exact decodePayload_ne_of_mem parses object ascii parsed call member
    (decodes _ _ _ _ _ _ _ parses object ascii parsed call)

end Samples

end Foghorn.Probe
