import Foghorn.Probe.HexText
import Foghorn.Probe.Round
import Foghorn.Std.AbiWords
import Foghorn.Std.Binary64

/-!
# Reading a balance

Whether an indexer can be paid is asked of the chain: one call of `getBalance` for the payer, the
collector and the indexer, put together as text. Of the answer, a word of hex, the digits after the
marker are read as a 128-bit number.
-/

namespace Foghorn.Probe

open Foghorn.Core Foghorn.Std

/-- What the escrow sync reads of `TapConfig`. -/
structure EscrowConfig extends TapConfig where
  escrow : String

/-- `GET_BALANCE_SELECTOR`. -/
def getBalanceSelector : String := "d6bd603c"

/-- `pad`: `{:0>64}` of the digits of an address. -/
def padWord (crates : Crates) (a : String) : String :=
  let digits := (crates.lowercase (String.ofList (trimHexMarker a.toList))).toList
  String.ofList (List.replicate (64 - digits.length) '0' ++ digits)

def balanceData (crates : Crates) (cfg : EscrowConfig) (receiver : String) : String :=
  "0x" ++ getBalanceSelector ++ padWord crates cfg.payer ++ padWord crates cfg.verifier ++
    padWord crates receiver

def balanceBody (crates : Crates) (cfg : EscrowConfig) (receiver : String) : Json :=
  .object [("jsonrpc", .string "2.0"), ("id", .number (.posInt 1)), ("method", .string "eth_call"),
    ("params", .array [.object [("to", .string cfg.escrow),
      ("data", .string (balanceData crates cfg receiver))], .string "latest"])]

/-- The number that hex digits spell. -/
def hexNumber (digits : List Char) : Option Nat :=
  (digits.mapM hexDigit).map fun nibbles =>
    nibbles.foldl (fun number nibble => number * 16 + nibble.toNat) 0

def dropSign : List Char → List Char
  | '+' :: rest => rest
  | other => other

/-- `u128::from_str_radix(digits, 16)`, which allows for a sign. -/
def parseU128 (digits : List Char) : Option Nat :=
  if dropSign digits = [] then none
  else (hexNumber (dropSign digits)).filter fun number => number < 2 ^ 128

/-- `read_balance`, of the answer to the call. No data is an error, and not a balance of zero. -/
def readBalance (answer : Option Json) : Option Nat := do
  let v ← answer
  if (v.get "error").isSome then none
  else
    let result ← (v.get "result").bind Json.asStr
    let digits := trimHexMarker result.toList
    if digits = [] then none else some (nearestDouble ((parseU128 digits).getD 0))

section Call

variable {crates : Crates} {digits : List Char} {bytes : List UInt8}

/-- What is known of `to_lowercase`: of ASCII it changes the letters alone. -/
def LowersAscii (crates : Crates) : Prop :=
  ∀ text : String, (∀ c ∈ text.toList, c.toNat < 128) →
    (crates.lowercase text).toList = text.toList.map Char.toLower

/-- A text of an address. -/
structure AddressText (text : String) (bytes : List UInt8) : Prop where
  decoded : cidBytes text = some bytes
  length : bytes.length = 20

private theorem hexDecode_append {more : List Char} {others : List UInt8}
    (decoded : hexDecode digits = some bytes) (rest : hexDecode more = some others) :
    hexDecode (digits ++ more) = some (bytes ++ others) := by
  induction digits using hexDecode.induct generalizing bytes with
  | case1 =>
    obtain rfl := Option.some.inj decoded
    exact rest
  | case2 high low tail ih =>
    obtain ⟨left, right, ofTail, readHigh, readLow, decodedTail, rfl⟩ := hexDecode_cons_cons.mp decoded
    exact hexDecode_cons_cons.mpr
      ⟨left, right, ofTail ++ others, readHigh, readLow, ih decodedTail, rfl⟩
  | case3 single => cases decoded

/-- A word of up to 32 bytes is the bytes after zeros. -/
theorem abiWord_beValue {bytes : List UInt8} (short : bytes.length ≤ 32) :
    abiWord (beValue bytes) = List.replicate (32 - bytes.length) 0 ++ bytes := by
  have split : 32 = (32 - bytes.length) + bytes.length := by omega
  have zero : beValue bytes / 256 ^ bytes.length = 0 := Nat.div_eq_of_lt (beValue_lt bytes)
  have lower : beBytes bytes.length (beValue bytes) = bytes := by
    refine beValue_inj (length_beBytes _ _) ?_
    exact beValue_beBytes (beValue_lt bytes)
  rw [abiWord, split, beBytes_add, zero, beBytes_zero, lower]
  congr 2
  omega

/-- A padded address is the word of the address. -/
theorem hexDecode_padWord (lowers : LowersAscii crates) {text : String}
    (address : AddressText text bytes) :
    hexDecode (padWord crates text).toList = some (abiWord (beValue bytes)) := by
  have ascii : ∀ c ∈ (String.ofList (trimHexMarker text.toList)).toList, c.toNat < 128 := by
    intro c member
    rw [String.toList_ofList] at member
    obtain ⟨nibble, read⟩ := exists_hexDigit_of_mem address.decoded member
    exact ascii_of_hexDigit read
  have lowered := lowers _ ascii
  have count := length_hexDecode address.decoded
  have zeros := hexDecode_replicate (show hexDigit '0' = some 0 by decide) 12
  have decoded : hexDecode ((trimHexMarker text.toList).map Char.toLower) = some bytes :=
    (hexDecode_toLower _).trans address.decoded
  rw [String.toList_ofList] at lowered
  rw [address.length] at count
  rw [padWord, String.toList_ofList, lowered, List.length_map, count,
    abiWord_beValue (by rw [address.length]; decide), address.length]
  exact hexDecode_append zeros decoded

/-- The bytes of the selector. -/
def getBalanceBytes : List UInt8 := [0xd6, 0xbd, 0x60, 0x3c]

/-- The call as the chain reads it: the selector and the three addresses. -/
theorem hexDecode_balanceData (lowers : LowersAscii crates) {cfg : EscrowConfig} {receiver : String}
    {payer collector indexer : List UInt8} (ofPayer : AddressText cfg.payer payer)
    (ofCollector : AddressText cfg.verifier collector) (ofIndexer : AddressText receiver indexer) :
    hexDecode (stripHexMarker (balanceData crates cfg receiver).toList) =
      some (getBalanceBytes ++ abiEncode [.static (abiWord (beValue payer)),
        .static (abiWord (beValue collector)), .static (abiWord (beValue indexer))]) := by
  have shape : stripHexMarker (balanceData crates cfg receiver).toList =
      getBalanceSelector.toList ++ ((padWord crates cfg.payer).toList ++
        ((padWord crates cfg.verifier).toList ++ (padWord crates receiver).toList)) := by
    simp only [balanceData, String.toList_append, List.append_assoc]
    rfl
  have selector : hexDecode getBalanceSelector.toList = some getBalanceBytes := by decide
  rw [shape, hexDecode_append selector (hexDecode_append (hexDecode_padWord lowers ofPayer)
    (hexDecode_append (hexDecode_padWord lowers ofCollector) (hexDecode_padWord lowers ofIndexer)))]
  simp [abiEncode, abiHeads, abiTails]

end Call

section Answer

variable {digits : List Char} {bytes : List UInt8}

private theorem toNat_nibbles {high low : UInt8} (highBound : high < 16) (lowBound : low < 16) :
    (high <<< 4 ||| low).toNat = high.toNat * 16 + low.toNat := by
  have table : ∀ high < 16, ∀ low < 16,
      (UInt8.ofNat high <<< 4 ||| UInt8.ofNat low).toNat = high * 16 + low := by decide
  have found := table high.toNat (UInt8.lt_iff_toNat_lt.mp highBound) low.toNat
    (UInt8.lt_iff_toNat_lt.mp lowBound)
  rwa [UInt8.ofNat_toNat, UInt8.ofNat_toNat] at found

private theorem hexNumber_of_hexDecode (decoded : hexDecode digits = some bytes) :
    hexNumber digits = some (beValue bytes) := by
  suffices nibbles : ∃ nibbles, digits.mapM hexDigit = some nibbles ∧ ∀ start : Nat,
      nibbles.foldl (fun number nibble => number * 16 + nibble.toNat) start =
        bytes.foldl (fun number byte => number * 256 + byte.toNat) start by
    obtain ⟨nibbles, read, same⟩ := nibbles
    rw [hexNumber, read, Option.map_some, same]
    rfl
  induction digits using hexDecode.induct generalizing bytes with
  | case1 =>
    obtain rfl := Option.some.inj decoded
    exact ⟨[], rfl, fun _ => rfl⟩
  | case2 high low rest ih =>
    obtain ⟨left, right, tail, readHigh, readLow, decodedRest, rfl⟩ := hexDecode_cons_cons.mp decoded
    obtain ⟨nibbles, read, same⟩ := ih decodedRest
    have byte := toNat_nibbles (lower_hexDigit readHigh).2.2 (lower_hexDigit readLow).2.2
    refine ⟨left :: right :: nibbles, by simp [List.mapM_cons, readHigh, readLow, read],
      fun start => ?_⟩
    rw [List.foldl_cons, List.foldl_cons, List.foldl_cons, same, byte]
    congr 1
    omega
  | case3 single => cases decoded

private theorem trimHexMarker_of_hexDecode (decoded : hexDecode digits = some bytes) :
    trimHexMarker digits = digits := by
  unfold trimHexMarker
  split
  · rename_i rest
    obtain ⟨left, right, tail, _, readLow, _⟩ := hexDecode_cons_cons.mp decoded
    have unread : hexDigit 'x' = none := by decide
    rw [unread] at readLow
    cases readLow
  · rfl

private theorem dropSign_of_hexDecode (decoded : hexDecode digits = some bytes) :
    dropSign digits = digits := by
  unfold dropSign
  split
  · obtain ⟨nibble, read⟩ := exists_hexDigit_of_mem decoded List.mem_cons_self
    have unread : hexDigit '+' = none := by decide
    rw [unread] at read
    cases read
  · rfl

/-- Decoded digits are a number of the parser, unless it is too large. -/
theorem parseU128_of_hexDecode (decoded : hexDecode digits = some bytes) (some_bytes : bytes ≠ []) :
    parseU128 digits = if beValue bytes < 2 ^ 128 then some (beValue bytes) else none := by
  have digits_ne : digits ≠ [] := by
    rintro rfl
    exact some_bytes (Option.some.inj decoded).symm
  rw [parseU128, dropSign_of_hexDecode decoded, if_neg digits_ne, hexNumber_of_hexDecode decoded,
    Option.filter_some]
  simp only [decide_eq_true_eq]

/-- The balance that is read of an answer with a word: past 128 bits none is left. -/
theorem readBalance_of_word {v : Json} {balance : Nat} (fits : balance < 256 ^ 32)
    (sound : v.get "error" = none)
    (result : (v.get "result").bind Json.asStr = some (markedHex (abiWord balance))) :
    readBalance (some v) = some (nearestDouble (if balance < 2 ^ 128 then balance else 0)) := by
  have decoded := hexDecode_hexEncode (abiWord balance)
  have word : abiWord balance ≠ [] := by
    intro none
    have length := length_abiWord balance
    rw [none] at length
    cases length
  have digits_ne : (hexEncode (abiWord balance)).toList ≠ [] := by
    intro none
    rw [none] at decoded
    exact word (Option.some.inj decoded).symm
  have digits : trimHexMarker (markedHex (abiWord balance)).toList =
      (hexEncode (abiWord balance)).toList := by
    have shape : (markedHex (abiWord balance)).toList =
        '0' :: 'x' :: (hexEncode (abiWord balance)).toList := by
      rw [markedHex, String.toList_append]
      rfl
    rw [shape, trimHexMarker, trimHexMarker_of_hexDecode decoded]
  have value : beValue (abiWord balance) = balance := beValue_beBytes fits
  rw [readBalance]
  simp only [Option.bind_eq_bind, Option.bind_some, sound, Option.isSome_none, result, digits,
    if_neg digits_ne, parseU128_of_hexDecode decoded word, value, Bool.false_eq_true, if_false]
  by_cases small : balance < 2 ^ 128
  · rw [if_pos small, if_pos small, Option.getD_some]
  · rw [if_neg small, if_neg small, Option.getD_none]

/-- A whole number is read as a positive double exactly when it is positive. -/
theorem nearestDouble_pos_iff {number : Nat} : 0 < nearestDouble number ↔ 0 < number := by
  constructor
  · intro positive
    by_contra zero
    obtain rfl : number = 0 := by omega
    exact absurd positive (by decide)
  · intro positive
    have log := Nat.log2_self_le positive.ne'
    have step : 2 ^ (number.log2 - 52) ≤ number :=
      (Nat.pow_le_pow_right (by decide) (Nat.sub_le _ _)).trans log
    have unit : 0 < 2 ^ (number.log2 - 52) := Nat.two_pow_pos _
    have below : 0 < number / 2 ^ (number.log2 - 52) := Nat.div_pos step unit
    unfold nearestDouble
    dsimp only
    split
    · exact Nat.mul_pos (Nat.succ_pos _) unit
    · exact Nat.mul_pos below unit

end Answer

section Contract

/-- A node that executes calls of a contract with balances. -/
structure Serves (rpc : Json → Option Json) (escrow : String)
    (balance : List UInt8 → List UInt8 → List UInt8 → Nat) : Prop where
  fits : ∀ payer collector receiver, balance payer collector receiver < 256 ^ 32
  answers : ∀ (body : Json) (data : String) (payer collector receiver : List UInt8),
    body.get "method" = some (.string "eth_call") →
    body.get "params" = some (.array [.object [("to", .string escrow), ("data", .string data)],
      .string "latest"]) →
    payer.length = 20 → collector.length = 20 → receiver.length = 20 →
    hexDecode (stripHexMarker data.toList) =
      some (getBalanceBytes ++ abiEncode [.static (abiWord (beValue payer)),
        .static (abiWord (beValue collector)), .static (abiWord (beValue receiver))]) →
    ∃ v, rpc body = some v ∧ v.get "error" = none ∧
      (v.get "result").bind Json.asStr = some (markedHex (abiWord (balance payer collector receiver)))

/-- What is read is the balance that the contract has for the three addresses. -/
theorem readBalance_eq {crates : Crates} (lowers : LowersAscii crates) {cfg : EscrowConfig}
    {rpc : Json → Option Json} {balance : List UInt8 → List UInt8 → List UInt8 → Nat}
    (serves : Serves rpc cfg.escrow balance) {receiver : String}
    {payer collector indexer : List UInt8} (ofPayer : AddressText cfg.payer payer)
    (ofCollector : AddressText cfg.verifier collector) (ofIndexer : AddressText receiver indexer) :
    readBalance (rpc (balanceBody crates cfg receiver)) =
      some (nearestDouble (if balance payer collector indexer < 2 ^ 128 then
        balance payer collector indexer else 0)) := by
  obtain ⟨v, answer, sound, result⟩ := serves.answers (balanceBody crates cfg receiver) _ payer
    collector indexer rfl rfl ofPayer.length ofCollector.length ofIndexer.length
    (hexDecode_balanceData lowers ofPayer ofCollector ofIndexer)
  rw [answer]
  exact readBalance_of_word (serves.fits _ _ _) sound result

/-- An indexer counts as funded exactly when it is, by less than the largest number of 128 bits. -/
theorem funded_iff {crates : Crates} (lowers : LowersAscii crates) {cfg : EscrowConfig}
    {rpc : Json → Option Json} {balance : List UInt8 → List UInt8 → List UInt8 → Nat}
    (serves : Serves rpc cfg.escrow balance) {receiver : String}
    {payer collector indexer : List UInt8} (ofPayer : AddressText cfg.payer payer)
    (ofCollector : AddressText cfg.verifier collector) (ofIndexer : AddressText receiver indexer) :
    (∃ wei, readBalance (rpc (balanceBody crates cfg receiver)) = some wei ∧ 0 < wei) ↔
      0 < balance payer collector indexer ∧ balance payer collector indexer < 2 ^ 128 := by
  rw [readBalance_eq lowers serves ofPayer ofCollector ofIndexer]
  simp only [Option.some.injEq, exists_eq_left', nearestDouble_pos_iff]
  split
  · rename_i small
    exact (and_iff_left small).symm
  · rename_i large
    exact iff_of_false (Nat.lt_irrefl 0) fun both => large both.2

/-- A node with one contract. -/
def contractNode (escrow : String) (balance : List UInt8 → List UInt8 → List UInt8 → Nat)
    (body : Json) : Option Json :=
  match body.get "params" with
  | some (.array (.object [(_, .string target), (_, .string data)] :: _)) =>
    match hexDecode (stripHexMarker data.toList) with
    | some bytes =>
      let address (number : Nat) : List UInt8 := (bytes.drop (16 + 32 * number)).take 20
      if target = escrow ∧ bytes.take 4 = getBalanceBytes then
        some (.object [("result",
          .string (markedHex (abiWord (balance (address 0) (address 1) (address 2)))))])
      else none
    | none => none
  | _ => none

private theorem take_drop_append {before middle after : List UInt8} {start count : Nat}
    (left : before.length = start) (length : middle.length = count) :
    ((before ++ (middle ++ after)).drop start).take count = middle := by
  rw [List.drop_left' left, List.take_left' length]

/-- The contract's own node serves the balances that fit in a word. -/
theorem serves_contractNode {escrow : String}
    {balance : List UInt8 → List UInt8 → List UInt8 → Nat}
    (fits : ∀ payer collector receiver, balance payer collector receiver < 256 ^ 32) :
    Serves (contractNode escrow balance) escrow balance := by
  refine ⟨fits, fun body data payer collector receiver _ params ofPayer ofCollector ofReceiver
    decoded => ⟨.object [("result", .string (markedHex (abiWord (balance payer collector receiver))))],
      ?_, rfl, rfl⟩⟩
  have word {address : List UInt8} (length : address.length = 20) :
      abiWord (beValue address) = List.replicate 12 0 ++ address := by
    rw [abiWord_beValue (by rw [length]; decide), length]
  generalize shape : getBalanceBytes ++ abiEncode [.static (abiWord (beValue payer)),
    .static (abiWord (beValue collector)), .static (abiWord (beValue receiver))] = bytes at decoded
  simp only [abiEncode, abiHeads, abiTails, word ofPayer, word ofCollector, word ofReceiver,
    List.append_nil, List.append_assoc] at shape
  have selector : bytes.take 4 = getBalanceBytes := by
    rw [← shape]
    rfl
  have first : (bytes.drop (16 + 32 * 0)).take 20 = payer := by
    rw [← shape, ← List.append_assoc]
    exact take_drop_append rfl ofPayer
  have second : (bytes.drop (16 + 32 * 1)).take 20 = collector := by
    rw [← shape, ← List.append_assoc, ← List.append_assoc, ← List.append_assoc]
    refine take_drop_append ?_ ofCollector
    simp [getBalanceBytes, ofPayer]
  have third : (bytes.drop (16 + 32 * 2)).take 20 = receiver := by
    have behind : (getBalanceBytes ++ List.replicate 12 0 ++ payer ++ List.replicate 12 0 ++
        collector ++ List.replicate 12 0).length = 16 + 32 * 2 := by
      simp [getBalanceBytes, ofPayer, ofCollector]
    rw [← shape, ← List.append_assoc, ← List.append_assoc, ← List.append_assoc,
      ← List.append_assoc, ← List.append_assoc, List.drop_left' behind]
    exact List.take_of_length_le ofReceiver.le
  rw [contractNode, params]
  dsimp only
  rw [decoded]
  dsimp only
  rw [if_pos ⟨rfl, selector⟩, first, second, third]

/-- The collector and the escrow contract of the default configuration. -/
def plainEscrow : EscrowConfig where
  enabled := true
  signerKey := none
  verifier := "0x8f69F5C07477Ac46FBc491B1E6D91E2bb0111A9e"
  dataService := "0xb2Bb92d0DE618878E438b55D5846cfecD9301105"
  payer := "0x5b4293b4c0f36cb5d4448950830bc777759b6c4f"
  excludedIndexers := []
  escrow := "0xf6Fcc27aAf1fcD8B254498c9794451d82afC673E"

private theorem lowersAscii_knowing :
    LowersAscii (.knowing [] []) := fun _ _ => String.toList_ofList

private theorem exists_addressText {text : String}
    (checked : (cidBytes text).map List.length = some 20) : ∃ bytes, AddressText text bytes := by
  obtain ⟨bytes, decoded, length⟩ := Option.map_eq_some_iff.mp checked
  exact ⟨bytes, decoded, length⟩

private theorem plainEscrow_addresses : (cidBytes plainEscrow.payer).map List.length = some 20 ∧
    (cidBytes plainEscrow.verifier).map List.length = some 20 := by
  decide

/-- The plain escrow is read as funded exactly when the contract holds a balance. -/
theorem funded_iff_plainEscrow : ∃ payer collector : List UInt8,
    (∃ wei, readBalance (contractNode plainEscrow.escrow (fun _ _ _ => 10 ^ 18)
      (balanceBody (.knowing [] []) plainEscrow plainEscrow.payer)) = some wei ∧ 0 < wei) ↔
        0 < (fun _ _ _ : List UInt8 => 10 ^ 18) payer collector payer ∧
          (fun _ _ _ : List UInt8 => 10 ^ 18) payer collector payer < 2 ^ 128 := by
  obtain ⟨payer, ofPayer⟩ := exists_addressText plainEscrow_addresses.1
  obtain ⟨collector, ofCollector⟩ := exists_addressText plainEscrow_addresses.2
  exact ⟨payer, collector, funded_iff lowersAscii_knowing
    (serves_contractNode fun _ _ _ => by norm_num) ofPayer ofCollector ofPayer⟩

end Contract

end Foghorn.Probe
