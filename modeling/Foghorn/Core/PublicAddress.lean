import Mathlib.Algebra.GroupWithZero.Nat
import Foghorn.Core.WebhookUrl

/-!
# Addresses that may be posted to

The octet masks of `isPublicV4` spell a list of blocks. The registry of special-purpose addresses
has more of them, and an IPv6 address can carry an IPv4 address in four ways, of which
`isPublicV6` unwraps one. What is let through is stated against both.
-/

namespace Foghorn.Core

open Foghorn.Std

section Blocks

/-- The address as a number of 32 bits. -/
def ipv4Value (ip : Ipv4) : Nat :=
  ((ip.a.val * 256 + ip.b.val) * 256 + ip.c.val) * 256 + ip.d.val

/-- The addresses that begin with the same bits. -/
structure Ipv4Block where
  base : Nat
  length : Nat

/-- `a.b.c.d/length`. -/
def block (a b c d length : Nat) : Ipv4Block := ⟨((a * 256 + b) * 256 + c) * 256 + d, length⟩

def Ipv4Block.contains (block : Ipv4Block) (ip : Ipv4) : Bool :=
  ipv4Value ip / 2 ^ (32 - block.length) = block.base / 2 ^ (32 - block.length)

/-- An entry of the registry of special-purpose addresses. -/
structure SpecialPurpose where
  block : Ipv4Block
  globallyReachable : Bool

/-- The IANA registry of special-purpose IPv4 addresses, as far as it says whether a block is
globally reachable. -/
def specialPurposeRegistry : List SpecialPurpose :=
  [⟨block 0 0 0 0 8, false⟩, ⟨block 0 0 0 0 32, false⟩, ⟨block 10 0 0 0 8, false⟩,
    ⟨block 100 64 0 0 10, false⟩, ⟨block 127 0 0 0 8, false⟩, ⟨block 169 254 0 0 16, false⟩,
    ⟨block 172 16 0 0 12, false⟩, ⟨block 192 0 0 0 24, false⟩, ⟨block 192 0 0 0 29, false⟩,
    ⟨block 192 0 0 8 32, false⟩, ⟨block 192 0 0 9 32, true⟩, ⟨block 192 0 0 10 32, true⟩,
    ⟨block 192 0 0 170 32, false⟩, ⟨block 192 0 0 171 32, false⟩, ⟨block 192 0 2 0 24, false⟩,
    ⟨block 192 31 196 0 24, true⟩, ⟨block 192 52 193 0 24, true⟩, ⟨block 192 88 99 2 32, false⟩,
    ⟨block 192 168 0 0 16, false⟩, ⟨block 192 175 48 0 24, true⟩, ⟨block 198 18 0 0 15, false⟩,
    ⟨block 198 51 100 0 24, false⟩, ⟨block 203 0 113 0 24, false⟩, ⟨block 240 0 0 0 4, false⟩,
    ⟨block 255 255 255 255 32, false⟩]

/-- In a block that the registry calls not globally reachable. -/
def NotGloballyReachable (ip : Ipv4) : Prop :=
  ∃ entry ∈ specialPurposeRegistry, entry.globallyReachable = false ∧ entry.block.contains ip

/-- The blocks of the registry that `isPublicV4` does not know. -/
def unknownBlocks : List Ipv4Block := [block 192 0 0 0 24, block 192 88 99 2 32]

/-- The blocks that `isPublicV4` refuses, in its order. -/
def refusedBlocks : List Ipv4Block :=
  [block 10 0 0 0 8, block 172 16 0 0 12, block 192 168 0 0 16, block 127 0 0 0 8,
    block 169 254 0 0 16, block 0 0 0 0 32, block 255 255 255 255 32, block 192 0 2 0 24,
    block 198 51 100 0 24, block 203 0 113 0 24, block 0 0 0 0 8, block 100 64 0 0 10,
    block 198 18 0 0 15, block 224 0 0 0 3]

/-- One of the blocks is around the address. -/
def Within (blocks : List Ipv4Block) (ip : Ipv4) : Prop :=
  ∃ block ∈ blocks, block.contains ip

end Blocks

section Octets

/-- Leading bits that end inside the last octet of a number. -/
theorem leading_octet (high low : Nat) {bits : Nat} (within : bits ≤ 8) :
    (high * 256 + low) / 2 ^ (8 - bits) = high * 2 ^ bits + low / 2 ^ (8 - bits) := by
  have octet : 256 = 2 ^ bits * 2 ^ (8 - bits) := by
    rw [← Nat.pow_add, Nat.add_sub_cancel' within]
  rw [octet, ← Nat.mul_assoc, Nat.add_comm, Nat.add_mul_div_right _ _ (Nat.two_pow_pos _),
    Nat.add_comm]

private theorem low_bits {low bits : Nat} (small : low < 256) (within : bits ≤ 8) :
    low / 2 ^ (8 - bits) < 2 ^ bits := by
  apply Nat.div_lt_of_lt_mul
  rwa [← Nat.pow_add, Nat.sub_add_cancel within]

private theorem leading_eq_iff {high high' low low' bits : Nat} (small : low < 256)
    (small' : low' < 256)
    (within : bits ≤ 8) :
    (high * 256 + low) / 2 ^ (8 - bits) = (high' * 256 + low') / 2 ^ (8 - bits) ↔
      high = high' ∧ low / 2 ^ (8 - bits) = low' / 2 ^ (8 - bits) := by
  rw [leading_octet high low within, leading_octet high' low' within]
  have below := low_bits small within
  have below' := low_bits small' within
  constructor
  · intro same
    have quotient := congrArg (· / 2 ^ bits) same
    have remainder := congrArg (· % 2 ^ bits) same
    simp only [Nat.mul_add_mod_self_right, Nat.mod_eq_of_lt below,
      Nat.mod_eq_of_lt below'] at remainder
    rw [remainder] at same
    exact ⟨Nat.eq_of_mul_eq_mul_right (Nat.two_pow_pos bits) (Nat.add_right_cancel same), remainder⟩
  · rintro ⟨rfl, same⟩
    rw [same]

/-- A block that ends inside the first octet. -/
theorem contains_first (ip : Ipv4) (a : Nat) {bits : Nat} (within : bits ≤ 8) :
    (block a 0 0 0 bits).contains ip ↔ ip.a.val / 2 ^ (8 - bits) = a / 2 ^ (8 - bits) := by
  have split : 32 - bits = 24 + (8 - bits) := by omega
  have octet : ipv4Value ip / 2 ^ 24 = ip.a.val := by
    have b := ip.b.isLt
    have c := ip.c.isLt
    have d := ip.d.isLt
    simp only [ipv4Value]
    omega
  have base : (((a * 256 + 0) * 256 + 0) * 256 + 0) / 2 ^ 24 = a := by omega
  rw [Ipv4Block.contains, decide_eq_true_iff, block, split, Nat.pow_add, ← Nat.div_div_eq_div_mul,
    ← Nat.div_div_eq_div_mul, octet, base]

/-- A block that ends inside the second octet. -/
theorem contains_second (ip : Ipv4) (a : Nat) {b bits : Nat} (small : b < 256) (low : 8 ≤ bits)
    (within : bits ≤ 16) : (block a b 0 0 bits).contains ip ↔
      ip.a.val = a ∧ ip.b.val / 2 ^ (16 - bits) = b / 2 ^ (16 - bits) := by
  have split : 32 - bits = 16 + (8 - (bits - 8)) := by omega
  have rest : 16 - bits = 8 - (bits - 8) := by omega
  have octets : ipv4Value ip / 2 ^ 16 = ip.a.val * 256 + ip.b.val := by
    have c := ip.c.isLt
    have d := ip.d.isLt
    simp only [ipv4Value]
    omega
  have base : (((a * 256 + b) * 256 + 0) * 256 + 0) / 2 ^ 16 = a * 256 + b := by omega
  rw [Ipv4Block.contains, decide_eq_true_iff, block, split, Nat.pow_add, ← Nat.div_div_eq_div_mul,
    ← Nat.div_div_eq_div_mul, octets, base, rest]
  exact leading_eq_iff ip.b.isLt small (by omega)

/-- A block of three octets. -/
theorem contains_third (ip : Ipv4) (a : Nat) {b c : Nat} (smallB : b < 256) (smallC : c < 256) :
    (block a b c 0 24).contains ip ↔ ip.a.val = a ∧ ip.b.val = b ∧ ip.c.val = c := by
  have octets : ipv4Value ip / 2 ^ 8 = (ip.a.val * 256 + ip.b.val) * 256 + ip.c.val := by
    have d := ip.d.isLt
    simp only [ipv4Value]
    omega
  have base : (((a * 256 + b) * 256 + c) * 256 + 0) / 2 ^ 8 = (a * 256 + b) * 256 + c := by omega
  have eight : 32 - 24 = 8 := rfl
  rw [Ipv4Block.contains, decide_eq_true_iff, block, eight, octets, base]
  have b' := ip.b.isLt
  have c' := ip.c.isLt
  omega

/-- A single address. -/
theorem contains_fourth (ip : Ipv4) (a : Nat) {b c d : Nat} (smallB : b < 256) (smallC : c < 256)
    (smallD : d < 256) : (block a b c d 32).contains ip ↔
      ip.a.val = a ∧ ip.b.val = b ∧ ip.c.val = c ∧ ip.d.val = d := by
  have whole (value : Nat) : value / 2 ^ (32 - 32) = value := Nat.div_one value
  simp only [Ipv4Block.contains, block, decide_eq_true_iff, whole, ipv4Value]
  have b' := ip.b.isLt
  have c' := ip.c.isLt
  have d' := ip.d.isLt
  omega

/-- The masks of the code and the blocks they spell. -/
theorem isPublicV4_eq_false_iff (ip : Ipv4) : isPublicV4 ip = false ↔ Within refusedBlocks ip := by
  have blocks : Within refusedBlocks ip ↔
      ip.a.val = 10 ∨ (ip.a.val = 172 ∧ ip.b.val / 16 = 1) ∨ (ip.a.val = 192 ∧ ip.b.val = 168) ∨
        ip.a.val = 127 ∨ (ip.a.val = 169 ∧ ip.b.val = 254) ∨
        (ip.a.val = 0 ∧ ip.b.val = 0 ∧ ip.c.val = 0 ∧ ip.d.val = 0) ∨
        (ip.a.val = 255 ∧ ip.b.val = 255 ∧ ip.c.val = 255 ∧ ip.d.val = 255) ∨
        (ip.a.val = 192 ∧ ip.b.val = 0 ∧ ip.c.val = 2) ∨
        (ip.a.val = 198 ∧ ip.b.val = 51 ∧ ip.c.val = 100) ∨
        (ip.a.val = 203 ∧ ip.b.val = 0 ∧ ip.c.val = 113) ∨ ip.a.val = 0 ∨
        (ip.a.val = 100 ∧ ip.b.val / 64 = 1) ∨ (ip.a.val = 198 ∧ ip.b.val / 2 = 9) ∨
        ip.a.val / 32 = 7 := by
    simp [Within, refusedBlocks, contains_first, contains_second, contains_third, contains_fourth]
  have privateUse : ip.b.val / 16 = 1 ↔ 16 ≤ ip.b.val ∧ ip.b.val ≤ 31 := by omega
  have shared : ip.b.val / 64 = 1 ↔ 64 ≤ ip.b.val ∧ ip.b.val < 128 := by omega
  have benchmarking : ip.b.val / 2 = 9 ↔ ip.b.val = 18 ∨ ip.b.val = 19 := by omega
  have reserved : ip.a.val / 32 = 7 ↔ 224 ≤ ip.a.val := by omega
  rw [blocks, privateUse, shared, benchmarking, reserved]
  simp only [isPublicV4, Bool.not_eq_false', Bool.or_eq_true, Bool.and_eq_true, decide_eq_true_eq,
    or_assoc, and_assoc]
  simp only [Ipv4.octets]

end Octets

section Registry

private theorem starts_of_contains {block : Ipv4Block} {ip : Ipv4} (inside : block.contains ip)
    {bits : Nat} (shorter : bits ≤ block.length) :
    ipv4Value ip / 2 ^ (32 - bits) = block.base / 2 ^ (32 - bits) := by
  have split : 32 - bits = (32 - block.length) + ((32 - bits) - (32 - block.length)) := by omega
  rw [Ipv4Block.contains, decide_eq_true_iff] at inside
  rw [split, Nat.pow_add, ← Nat.div_div_eq_div_mul, ← Nat.div_div_eq_div_mul, inside]

/-- Every address of the second block is in the first. -/
def Ipv4Block.covers (wide narrow : Ipv4Block) : Bool :=
  wide.length ≤ narrow.length &&
    narrow.base / 2 ^ (32 - wide.length) = wide.base / 2 ^ (32 - wide.length)

/-- An address in the narrower block is in the wider one. -/
theorem contains_of_covers {wide narrow : Ipv4Block} {ip : Ipv4} (covers : wide.covers narrow)
    (inside : narrow.contains ip) : wide.contains ip := by
  rw [Ipv4Block.covers, Bool.and_eq_true, decide_eq_true_iff, decide_eq_true_iff] at covers
  obtain ⟨shorter, sameStart⟩ := covers
  rw [Ipv4Block.contains, decide_eq_true_iff]
  exact (starts_of_contains inside shorter).trans sameStart

/-- The blocks begin with different bits. -/
def Ipv4Block.apart (block other : Ipv4Block) : Bool :=
  let common := 32 - min block.length other.length
  block.base / 2 ^ common ≠ other.base / 2 ^ common

/-- No address is in two blocks that lie apart. -/
theorem not_contains_of_apart {block other : Ipv4Block} {ip : Ipv4} (apart : block.apart other)
    (inside : block.contains ip) : ¬ other.contains ip := by
  intro both
  rw [Ipv4Block.apart, decide_eq_true_iff] at apart
  have start := starts_of_contains inside (min_le_left block.length other.length)
  have start' := starts_of_contains both (min_le_right block.length other.length)
  exact apart (start.symm.trans start')

/-- The code refuses every block that the registry calls not globally reachable, but for two. -/
theorem registry_covered :
    (specialPurposeRegistry.all fun entry => entry.globallyReachable ||
      (unknownBlocks ++ refusedBlocks).any fun block => block.covers entry.block) = true := by
  decide

private theorem unknown_apart :
    (unknownBlocks.all fun block => refusedBlocks.all fun other => block.apart other) = true := by
  decide

private theorem within_append {blocks others : List Ipv4Block} {ip : Ipv4} :
    Within (blocks ++ others) ip ↔ Within blocks ip ∨ Within others ip := by
  simp only [Within, List.mem_append, or_and_right, exists_or]

/-- An address that is not globally reachable is in a block the code refuses or does not know. -/
theorem within_of_notReachable {ip : Ipv4} (closed : NotGloballyReachable ip) :
    Within unknownBlocks ip ∨ Within refusedBlocks ip := by
  obtain ⟨entry, listed, unreachable, inside⟩ := closed
  have covered := List.all_eq_true.mp registry_covered entry listed
  rw [unreachable, Bool.false_or, List.any_eq_true] at covered
  obtain ⟨block, known, covers⟩ := covered
  exact within_append.mp ⟨block, known, contains_of_covers covers inside⟩

/-- The blocks the code does not know lie outside those it refuses. -/
theorem not_refused_of_unknown {ip : Ipv4} (unknown : Within unknownBlocks ip) :
    ¬ Within refusedBlocks ip := by
  rintro ⟨other, refused, both⟩
  obtain ⟨block, member, inside⟩ := unknown
  have apart := List.all_eq_true.mp (List.all_eq_true.mp unknown_apart block member) other refused
  exact not_contains_of_apart apart inside both

/-- A registered address is refused when it is not in a block the code does not know. -/
theorem refused_iff_known {ip : Ipv4} (closed : NotGloballyReachable ip) :
    isPublicV4 ip = false ↔ ¬ Within unknownBlocks ip := by
  rw [isPublicV4_eq_false_iff]
  constructor
  · exact fun refused unknown => not_refused_of_unknown unknown refused
  · exact fun known => (within_of_notReachable closed).resolve_left known

end Registry

section Transitions

/-- The ways in which an IPv6 address carries an IPv4 address. -/
inductive Transition where
  | mapped
  | compatible
  | nat64
  | sixToFour
deriving DecidableEq

def highSegment (ip : Ipv4) : Nat := ip.a.val * 256 + ip.b.val

def lowSegment (ip : Ipv4) : Nat := ip.c.val * 256 + ip.d.val

/-- `::ffff:0:0/96`, `::/96`, `64:ff9b::/96` and `2002::/16`. -/
def Transition.Carries (ip : Ipv6) (v4 : Ipv4) : Transition → Prop
  | mapped => ip.segments = [0, 0, 0, 0, 0, 0xffff, highSegment v4, lowSegment v4]
  | compatible => ip.segments = [0, 0, 0, 0, 0, 0, highSegment v4, lowSegment v4]
  | nat64 => ip.segments = [0x64, 0xff9b, 0, 0, 0, 0, highSegment v4, lowSegment v4]
  | sixToFour => ∃ rest, ip.segments = 0x2002 :: highSegment v4 :: lowSegment v4 :: rest

/-- `::` and `::1`. -/
def UnspecifiedOrLoopback (ip : Ipv6) : Prop :=
  ip.segments = [0, 0, 0, 0, 0, 0, 0, 0] ∨ ip.segments = [0, 0, 0, 0, 0, 0, 0, 1]

private theorem lowOctet_value (octet : Fin 256) (high : Nat) :
    lowOctet (high * 256 + octet.val) = octet := by
  apply Fin.ext
  calc (high * 256 + octet.val) % 256
      _ = octet.val % 256 := Nat.mul_add_mod_self_right ..
      _ = octet.val := Nat.mod_eq_of_lt octet.isLt

private theorem highOctet_value (octet low : Fin 256) :
    lowOctet ((octet.val * 256 + low.val) / 256) = octet := by
  have high : (octet.val * 256 + low.val) / 256 = octet.val := by
    have small := low.isLt
    omega
  rw [high]
  apply Fin.ext
  exact Nat.mod_eq_of_lt octet.isLt

variable {ip : Ipv6} {v4 : Ipv4}

private theorem toIpv4Mapped_of_carries (carries : Transition.mapped.Carries ip v4) :
    toIpv4Mapped ip = some v4 := by
  rw [Transition.Carries] at carries
  simp only [toIpv4Mapped, carries, highSegment, lowSegment, highOctet_value, lowOctet_value]

/-- The other three are read as addresses of their own. -/
theorem toIpv4Mapped_eq_none {transition : Transition} (other : transition ≠ .mapped)
    (carries : transition.Carries ip v4) : toIpv4Mapped ip = none := by
  cases transition with
  | mapped => exact absurd rfl other
  | compatible =>
    rw [Transition.Carries] at carries
    simp [toIpv4Mapped, carries]
  | nat64 =>
    rw [Transition.Carries] at carries
    simp [toIpv4Mapped, carries]
  | sixToFour =>
    obtain ⟨rest, carries⟩ := carries
    simp [toIpv4Mapped, carries]

private theorem first_of_carries {transition : Transition} (other : transition ≠ .mapped)
    (carries : transition.Carries ip v4) : ip.segments.headD 0 ∈ [0, 0x64, 0x2002] := by
  cases transition with
  | mapped => exact absurd rfl other
  | compatible =>
    rw [Transition.Carries] at carries
    simp [carries]
  | nat64 =>
    rw [Transition.Carries] at carries
    simp [carries]
  | sixToFour =>
    obtain ⟨rest, carries⟩ := carries
    simp [carries]

/-- No multicast, unique local or link-local address. -/
theorem first_not_masked {first : Nat} (listed : first ∈ [0, 0x64, 0x2002]) :
    first &&& 0xff00 ≠ 0xff00 ∧ first &&& 0xfe00 ≠ 0xfc00 ∧ first &&& 0xffc0 ≠ 0xfe80 := by
  rcases List.mem_cons.mp listed with rfl | listed
  · decide
  · rcases List.mem_cons.mp listed with rfl | listed
    · decide
    · rw [List.mem_singleton.mp listed]
      decide

/-- Whichever IPv4 address they carry. -/
theorem isPublicV6_of_carries {transition : Transition} (other : transition ≠ .mapped)
    (carries : transition.Carries ip v4) :
    isPublicV6 ip = true ↔ ¬ UnspecifiedOrLoopback ip := by
  have masks := first_not_masked (first_of_carries other carries)
  obtain ⟨multicast, uniqueLocal, linkLocal⟩ := masks
  rw [isPublicV6, toIpv4Mapped_eq_none other carries]
  simp only [multicast, uniqueLocal, linkLocal, decide_false, Bool.or_false, Bool.not_eq_true',
    Bool.or_eq_false_iff, decide_eq_false_iff_not, UnspecifiedOrLoopback, not_or]
  exact and_comm

end Transitions

section Reach

/-- What the addresses are refused for: an address of a closed block, and an address that carries
a refused one. -/
def KeepsOut : IpAddr → Prop
  | .v4 ip => NotGloballyReachable ip → isPublic (.v4 ip) = false
  | .v6 ip => ∀ (transition : Transition) (v4 : Ipv4), transition.Carries ip v4 →
    isPublic (.v6 ip) = true → isPublic (.v4 v4) = true

/-- A closed block is one the code knows, and only a mapped address, `::` and `::1` carry an
address of a refused block. -/
def Guarded : IpAddr → Prop
  | .v4 ip => NotGloballyReachable ip → ¬ Within unknownBlocks ip
  | .v6 ip => ∀ (transition : Transition) (v4 : Ipv4), transition.Carries ip v4 →
    Within refusedBlocks v4 → transition = .mapped ∨ UnspecifiedOrLoopback ip

/-- An address that carries a refused one is kept out when it is mapped, unspecified or loopback. -/
theorem keeps_carried_iff {ip : Ipv6} {v4 : Ipv4} {transition : Transition}
    (carries : transition.Carries ip v4) :
    (isPublicV6 ip = true → isPublicV4 v4 = true) ↔
      (Within refusedBlocks v4 → transition = .mapped ∨ UnspecifiedOrLoopback ip) := by
  by_cases unwrapped : transition = .mapped
  · subst unwrapped
    rw [isPublicV6, toIpv4Mapped_of_carries carries]
    exact iff_of_true id fun _ => .inl rfl
  · rw [isPublicV6_of_carries unwrapped carries, ← Bool.not_eq_false, isPublicV4_eq_false_iff,
      not_imp_not, or_iff_right unwrapped]

/-- A private IPv4 host is kept out exactly when its block is known, and when it is spelled as
itself or as a mapped address. -/
theorem keepsOut_iff (ip : IpAddr) : KeepsOut ip ↔ Guarded ip := by
  cases ip with
  | v4 ip => exact forall_congr' fun closed => refused_iff_known closed
  | v6 ip =>
    exact forall_congr' fun _ => forall_congr' fun _ => forall_congr' fun carries =>
      keeps_carried_iff carries

/-- `64:ff9b::7f00:1`, which carries `127.0.0.1`. -/
def translatedLoopback : Ipv6 := ⟨[0x64, 0xff9b, 0, 0, 0, 0, 0x7f00, 1], rfl⟩

/-- The translated loopback address passes the webhook check, and so not every address is kept
out. -/
theorem translated_loopback_reached :
    checkWebhookUrl "https://[64:ff9b::7f00:1]/hook" = .ok ("64:ff9b::7f00:1", 443) ∧
      ¬ ∀ ip : IpAddr, KeepsOut ip := by
  refine ⟨by decide, ?_⟩
  intro kept
  have accepted : isPublicV4 ⟨127, 0, 0, 1⟩ = true :=
    kept (.v6 translatedLoopback) .nat64 ⟨127, 0, 0, 1⟩ rfl (by decide)
  exact absurd accepted (by decide)

end Reach

end Foghorn.Core
