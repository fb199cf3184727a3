import Mathlib.Algebra.GroupWithZero.Nat
import Mathlib.Data.Nat.Init
import Mathlib.Data.List.Induction

/-!
# Contract calldata

A number is a word of 32 bytes, the highest first. Arguments are encoded as heads and tails: a
static argument stands in the head, a dynamic one in the tail, and the head has its offset.
-/

namespace Foghorn.Std

/-- The lowest bytes of a number, the highest of them first. -/
def beBytes : Nat → Nat → List UInt8
  | 0, _ => []
  | count + 1, number => beBytes count (number / 256) ++ [UInt8.ofNat number]

def beValue (bytes : List UInt8) : Nat :=
  bytes.foldl (fun number byte => number * 256 + byte.toNat) 0

def abiWord (number : Nat) : List UInt8 := beBytes 32 number

/-- Bytes with zeros behind them up to a whole number of words. -/
def padded (bytes : List UInt8) : List UInt8 :=
  bytes ++ List.replicate ((32 - bytes.length % 32) % 32) 0

inductive AbiArg where
  | static (words : List UInt8)
  | dynamic (tail : List UInt8)

/-- A string argument: its length, then its bytes. -/
def abiString (bytes : List UInt8) : AbiArg := .dynamic (abiWord bytes.length ++ padded bytes)

def AbiArg.headLength : AbiArg → Nat
  | static words => words.length
  | dynamic _ => 32

def abiHeads (offset : Nat) : List AbiArg → List UInt8
  | [] => []
  | .static words :: rest => words ++ abiHeads offset rest
  | .dynamic tail :: rest => abiWord offset ++ abiHeads (offset + tail.length) rest

def abiTails : List AbiArg → List UInt8
  | [] => []
  | .static _ :: rest => abiTails rest
  | .dynamic tail :: rest => tail ++ abiTails rest

/-- `abi.encode`. -/
def abiEncode (args : List AbiArg) : List UInt8 :=
  abiHeads (args.map AbiArg.headLength).sum args ++ abiTails args

@[simp] theorem length_beBytes (count number : Nat) : (beBytes count number).length = count := by
  induction count generalizing number with
  | zero => rfl
  | succ count ih => rw [beBytes, List.length_append, ih, List.length_singleton]

@[simp] theorem length_abiWord (number : Nat) : (abiWord number).length = 32 :=
  length_beBytes 32 number

private theorem length_abiHeads (offset : Nat) (args : List AbiArg) :
    (abiHeads offset args).length = (args.map AbiArg.headLength).sum := by
  induction args generalizing offset with
  | nil => rfl
  | cons arg rest ih =>
    cases arg with
    | static words => rw [abiHeads, List.length_append, ih, List.map_cons, List.sum_cons]; rfl
    | dynamic tail =>
      rw [abiHeads, List.length_append, ih, List.map_cons, List.sum_cons, length_abiWord]
      rfl

/-- Where the first argument lies when it is a string. -/
theorem abiEncode_abiString_cons (bytes : List UInt8) (rest : List AbiArg) :
    ∃ heads after : List UInt8, abiEncode (abiString bytes :: rest) =
      abiWord (32 + heads.length) ++ (heads ++ (abiWord bytes.length ++ (bytes ++ after))) := by
  let tail := abiWord bytes.length ++ padded bytes
  let size := ((abiString bytes :: rest).map AbiArg.headLength).sum
  have first : size = 32 + (rest.map AbiArg.headLength).sum := by
    simp only [size, List.map_cons, List.sum_cons]
    rfl
  refine ⟨abiHeads (size + tail.length) rest,
    List.replicate ((32 - bytes.length % 32) % 32) 0 ++ abiTails rest, ?_⟩
  rw [length_abiHeads, ← first, ← List.append_assoc bytes]
  show (abiWord size ++ abiHeads (size + tail.length) rest) ++ (tail ++ abiTails rest) = _
  simp only [tail, padded, List.append_assoc]

/-- Zero is written as zero bytes. -/
theorem beBytes_zero (count : Nat) : beBytes count 0 = List.replicate count 0 := by
  induction count with
  | zero => rfl
  | succ count ih =>
    rw [beBytes, Nat.zero_div, ih, List.replicate_succ']
    rfl

/-- A number is read back from enough bytes. -/
theorem beValue_beBytes {count number : Nat} (fits : number < 256 ^ count) :
    beValue (beBytes count number) = number := by
  induction count generalizing number with
  | zero =>
    rw [Nat.pow_zero] at fits
    rw [beBytes]
    simp [beValue]
    omega
  | succ count ih =>
    have quotient : number / 256 < 256 ^ count := by
      rw [Nat.div_lt_iff_lt_mul (by decide), ← Nat.pow_succ]
      exact fits
    have upper := ih quotient
    rw [beValue] at upper
    rw [beValue, beBytes, List.foldl_append, upper, List.foldl_cons, List.foldl_nil,
      UInt8.toNat_ofNat']
    omega

/-- The last byte is the lowest digit. -/
theorem beValue_concat (bytes : List UInt8) (byte : UInt8) :
    beValue (bytes ++ [byte]) = beValue bytes * 256 + byte.toNat := List.foldl_append

/-- A number of `n` bytes is below `256 ^ n`. -/
theorem beValue_lt (bytes : List UInt8) : beValue bytes < 256 ^ bytes.length := by
  induction bytes using List.reverseRecOn with
  | nil => decide
  | append_singleton front byte ih =>
    have bound := byte.toNat_lt
    rw [beValue_concat, List.length_append, List.length_singleton, Nat.pow_succ]
    omega

/-- The upper bytes count by the power of the lower ones' length. -/
theorem beValue_append (upper lower : List UInt8) :
    beValue (upper ++ lower) = beValue upper * 256 ^ lower.length + beValue lower := by
  induction lower using List.reverseRecOn with
  | nil => simp [beValue]
  | append_singleton front byte ih =>
    rw [← List.append_assoc, beValue_concat, ih, beValue_concat, List.length_append,
      List.length_singleton, Nat.pow_succ, Nat.add_mul, Nat.mul_assoc, Nat.add_assoc]

/-- Bytes of one length are told apart by their number. -/
theorem beValue_inj {left right : List UInt8} (length : left.length = right.length)
    (same : beValue left = beValue right) : left = right := by
  induction left using List.reverseRecOn generalizing right with
  | nil => exact (List.length_eq_zero_iff.mp length.symm).symm
  | append_singleton front byte ih =>
    rcases List.eq_nil_or_concat right with rfl | ⟨others, last, rfl⟩
    · simp at length
    · rw [List.concat_eq_append] at length same ⊢
      rw [List.length_append, List.length_append, List.length_singleton, List.length_singleton]
        at length
      rw [beValue_concat, beValue_concat] at same
      have byte_lt := byte.toNat_lt
      have last_lt := last.toNat_lt
      have bytes : byte = last := UInt8.toNat_inj.mp (by omega)
      rw [ih (Nat.succ.inj length) (by omega), bytes]

/-- The largest number of a length has the largest bytes only. -/
theorem beValue_add_one_eq_iff {bytes : List UInt8} :
    beValue bytes + 1 = 256 ^ bytes.length ↔ bytes = List.replicate bytes.length 0xff := by
  induction bytes using List.reverseRecOn with
  | nil => decide
  | append_singleton front byte ih =>
    have bound := byte.toNat_lt
    have front_lt := beValue_lt front
    have last : byte = 0xff ↔ byte.toNat = 255 := UInt8.toNat_inj.symm
    rw [beValue_concat, List.length_append, List.length_singleton, Nat.pow_succ,
      List.replicate_succ', List.append_singleton_inj, ← ih, last]
    omega

/-- The upper bytes of a number that fits the lower ones are zero. -/
theorem beBytes_add (upper lower number : Nat) :
    beBytes (upper + lower) number = beBytes upper (number / 256 ^ lower) ++ beBytes lower number := by
  induction lower generalizing number with
  | zero => simp [beBytes]
  | succ lower ih =>
    rw [← Nat.add_assoc, beBytes, ih, beBytes, Nat.div_div_eq_div_mul, ← Nat.pow_succ',
      List.append_assoc]

end Foghorn.Std
