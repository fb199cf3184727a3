import Mathlib.Data.List.Basic

/-!
# IP addresses in text

The texts that are read as an address: four plain decimal octets, or groups of up to four hex
digits, where one run of groups may be left out.
-/

namespace Foghorn.Std

section Fields

/-- The parts of a text between separators. -/
def fields (sep : Char) : List Char → List (List Char)
  | [] => [[]]
  | c :: rest =>
    if c = sep then [] :: fields sep rest
    else match fields sep rest with
      | [] => [[c]]
      | first :: others => (c :: first) :: others

private theorem fields_cons_of_ne {sep c : Char} (other : c ≠ sep) (rest : List Char) :
    ∃ first others, fields sep rest = first :: others ∧
      fields sep (c :: rest) = (c :: first) :: others := by
  have some_ : fields sep rest ≠ [] := by
    cases rest with
    | nil => exact List.cons_ne_nil _ _
    | cons d rest =>
      rw [fields]
      split
      · exact List.cons_ne_nil _ _
      · split <;> exact List.cons_ne_nil _ _
  obtain ⟨first, others, split⟩ := List.exists_cons_of_ne_nil some_
  exact ⟨first, others, split, by rw [fields, if_neg other, split]⟩

/-- A character is the separator or in a part. -/
theorem mem_iff_fields {sep c : Char} {text : List Char} (other : c ≠ sep) :
    c ∈ text ↔ ∃ part ∈ fields sep text, c ∈ part := by
  induction text with
  | nil => simp [fields]
  | cons d rest ih =>
    by_cases same : d = sep
    · have apart : c ≠ d := fun eq => other (eq.trans same)
      simp [fields, same, ih, other]
    · obtain ⟨first, others, split, whole⟩ := fields_cons_of_ne same rest
      rw [split] at ih
      rw [whole, List.mem_cons, ih]
      simp only [List.mem_cons, exists_eq_or_imp, or_assoc]

private theorem fields_of_notMem {sep : Char} {text : List Char} (absent : sep ∉ text) :
    fields sep text = [text] := by
  induction text with
  | nil => rfl
  | cons c rest ih =>
    obtain ⟨other, later⟩ := not_or.mp (mt List.mem_cons.mpr absent)
    rw [fields, if_neg (Ne.symm other), ih later]

end Fields

section Numbers

/-- The value of a digit, in either case. -/
def radixDigit (radix : Nat) (c : Char) : Option Nat :=
  let value :=
    if c.isDigit then c.toNat - 48
    else if 'a' ≤ c ∧ c ≤ 'f' then c.toNat - 87
    else if 'A' ≤ c ∧ c ≤ 'F' then c.toNat - 55
    else radix
  if value < radix then some value else none

def numberIn (radix : Nat) (digits : List Char) : Option Nat :=
  digits.foldlM (fun value digit => (radixDigit radix digit).map (radix * value + ·)) 0

end Numbers

structure Ipv4 where
  a : Fin 256
  b : Fin 256
  c : Fin 256
  d : Fin 256
deriving DecidableEq

def Ipv4.octets (ip : Ipv4) : Nat × Nat × Nat × Nat := (ip.a.val, ip.b.val, ip.c.val, ip.d.val)

def lowOctet (value : Nat) : Fin 256 := ⟨value % 256, Nat.mod_lt value (by omega)⟩

/-- Eight groups of sixteen bits. -/
structure Ipv6 where
  segments : List Nat
  length_segments : segments.length = 8
deriving DecidableEq

inductive IpAddr where
  | v4 (ip : Ipv4)
  | v6 (ip : Ipv6)
deriving DecidableEq

def toOctet (value : Nat) : Option (Fin 256) :=
  if small : value < 256 then some ⟨value, small⟩ else none

/-- One to three decimal digits, without a leading zero, of at most 255. -/
def octet (digits : List Char) : Option (Fin 256) :=
  if digits ≠ [] ∧ digits.length ≤ 3 ∧ (digits.length = 1 ∨ digits.head? ≠ some '0') then
    (numberIn 10 digits).bind toOctet
  else none

def parseIpv4 (text : List Char) : Option Ipv4 :=
  match fields '.' text with
  | [a, b, c, d] => do return ⟨← octet a, ← octet b, ← octet c, ← octet d⟩
  | _ => none

/-- One to four hex digits. -/
def hexGroup (digits : List Char) : Option Nat :=
  if digits ≠ [] ∧ digits.length ≤ 4 then numberIn 16 digits else none

/-- Groups, the last two of which may be written as an IPv4 address. -/
def hexGroups : List (List Char) → Option (List Nat)
  | [] => some []
  | [last] =>
    match hexGroup last with
    | some group => some [group]
    | none => (parseIpv4 last).map fun ip => [ip.a.val * 256 + ip.b.val, ip.c.val * 256 + ip.d.val]
  | first :: rest => do return (← hexGroup first) :: (← hexGroups rest)

/-- What is before and after the first double colon. -/
def splitDoubleColon : List Char → Option (List Char × List Char)
  | ':' :: ':' :: rest => some ([], rest)
  | c :: rest => (splitDoubleColon rest).map fun (head, tail) => (c :: head, tail)
  | [] => none

/-- A double colon stands for at least one group of zeros. -/
def readIpv6 (text : List Char) : Option Ipv6 :=
  match splitDoubleColon text with
  | none => do
    let groups ← hexGroups (fields ':' text)
    if full : groups.length = 8 then some ⟨groups, full⟩ else none
  | some (head, tail) => do
    let front ← if head = [] then some [] else (fields ':' head).mapM hexGroup
    let back ← if tail = [] then some [] else hexGroups (fields ':' tail)
    if room : front.length + back.length ≤ 7 then
      some ⟨front ++ List.replicate (8 - (front.length + back.length)) 0 ++ back, by
        simp only [List.length_append, List.length_replicate]
        omega⟩
    else none

/-- A character of an address in lower case. -/
def isIpChar (c : Char) : Bool := c.isDigit || 'a' ≤ c && c ≤ 'f' || c = ':' || c = '.'

/-- In either case. -/
def parseIpv6 (text : List Char) : Option Ipv6 :=
  let text := text.map Char.toLower
  if text.all isIpChar then readIpv6 text else none

def parseIpAddr (text : List Char) : Option IpAddr :=
  ((parseIpv4 text).map .v4).or ((parseIpv6 text).map .v6)

section Lower

/-- Outside the capital letters nothing is in lower case but itself. -/
theorem toLower_cases (c : Char) :
    c.toLower = c ∨ ∃ code < 91, 65 ≤ code ∧ c = Char.ofNat code := by
  by_cases capital : 65 ≤ c.toNat ∧ c.toNat < 91
  · exact .inr ⟨c.toNat, capital.2, capital.1, (Char.ofNat_toNat c).symm⟩
  · refine .inl (dif_neg fun within => capital ⟨?_, ?_⟩)
    · exact UInt32.le_iff_toNat_le.mp within.1
    · exact Nat.lt_succ_of_le (UInt32.le_iff_toNat_le.mp within.2)

/-- What is the same for a capital letter and its small letter is the same in either case. -/
theorem apply_toLower {β : Type} {f : Char → β}
    (table : ∀ code < 91, 65 ≤ code → f (Char.ofNat code).toLower = f (Char.ofNat code))
    (c : Char) : f c.toLower = f c := by
  rcases toLower_cases c with same | ⟨code, below, above, rfl⟩
  · rw [same]
  · exact table code below above

/-- Lower case is its own lower case. -/
theorem toLower_toLower (c : Char) : c.toLower.toLower = c.toLower :=
  apply_toLower (by decide) c

end Lower

section Texts

variable {text : List Char}

private theorem isDigit_of_radixDigit {c : Char} {value : Nat}
    (read : radixDigit 10 c = some value) :
    c.isDigit := by
  by_contra other
  simp only [radixDigit, if_neg other] at read
  split at read
  · next letter =>
    -- a letter counts for ten at least
    have low : 'a'.toNat ≤ c.toNat := letter.1
    have code : 'a'.toNat = 97 := rfl
    rw [if_neg (by omega)] at read
    cases read
  · split at read
    · next letter =>
      have low : 'A'.toNat ≤ c.toNat := letter.1
      have code : 'A'.toNat = 65 := rfl
      rw [if_neg (by omega)] at read
      cases read
    · cases read

private theorem isDigit_of_numberIn {digits : List Char} {value : Nat}
    (read : numberIn 10 digits = some value) : ∀ c ∈ digits, c.isDigit := by
  unfold numberIn at read
  generalize 0 = start at read
  induction digits generalizing start with
  | nil => exact fun c listed => nomatch listed
  | cons first rest ih =>
    rw [List.foldlM_cons] at read
    obtain ⟨next, one, later⟩ := Option.bind_eq_some_iff.mp read
    obtain ⟨digit, found, -⟩ := Option.map_eq_some_iff.mp one
    intro c listed
    rcases List.mem_cons.mp listed with rfl | listed
    · exact isDigit_of_radixDigit found
    · exact ih next later c listed

private theorem toOctet_eq_some {value : Nat} {o : Fin 256} (read : toOctet value = some o) :
    o.val = value := by
  unfold toOctet at read
  split at read
  · cases read
    rfl
  · cases read

/-- An octet is read from decimal digits without a leading zero. -/
theorem octet_eq_some {digits : List Char} {o : Fin 256} (read : octet digits = some o) :
    numberIn 10 digits = some o.val ∧ digits ≠ [] ∧
      (digits.length = 1 ∨ digits.head? ≠ some '0') := by
  unfold octet at read
  split at read
  · next shape =>
    obtain ⟨value, number, small⟩ := Option.bind_eq_some_iff.mp read
    exact ⟨(toOctet_eq_some small).symm ▸ number, shape.1, shape.2.2⟩
  · cases read

private theorem isDigit_of_octet {digits : List Char} {o : Fin 256} (read : octet digits = some o) :
    ∀ c ∈ digits, c.isDigit :=
  isDigit_of_numberIn (octet_eq_some read).1

/-- The four octets of an address. -/
theorem parseIpv4_eq_some {ip : Ipv4} (read : parseIpv4 text = some ip) :
    ∃ a b c d, fields '.' text = [a, b, c, d] ∧ octet a = some ip.a ∧ octet b = some ip.b ∧
      octet c = some ip.c ∧ octet d = some ip.d := by
  unfold parseIpv4 at read
  split at read
  · next a b c d parts =>
    simp only [Option.bind_eq_bind, Option.bind_eq_some_iff, Option.pure_def,
      Option.some.injEq] at read
    obtain ⟨_, first, _, second, _, third, _, fourth, rfl⟩ := read
    exact ⟨a, b, c, d, parts, first, second, third, fourth⟩
  · cases read

/-- An IPv4 text is made of digits and dots. -/
theorem chars_of_parseIpv4 {ip : Ipv4} (read : parseIpv4 text = some ip) :
    ∀ c ∈ text, c.isDigit ∨ c = '.' := by
  obtain ⟨a, b, c, d, parts, first, second, third, fourth⟩ := parseIpv4_eq_some read
  intro e listed
  by_cases dot : e = '.'
  · exact .inr dot
  · obtain ⟨part, among, inside⟩ := (mem_iff_fields dot).mp listed
    rw [parts] at among
    simp only [List.mem_cons, List.not_mem_nil, or_false] at among
    rcases among with rfl | rfl | rfl | rfl
    · exact .inl (isDigit_of_octet first e inside)
    · exact .inl (isDigit_of_octet second e inside)
    · exact .inl (isDigit_of_octet third e inside)
    · exact .inl (isDigit_of_octet fourth e inside)

/-- IPv6 texts are read without regard to case. -/
theorem parseIpv6_map_toLower (text : List Char) :
    parseIpv6 (text.map Char.toLower) = parseIpv6 text := by
  have twice : (text.map Char.toLower).map Char.toLower = text.map Char.toLower := by
    rw [List.map_map]
    exact List.map_congr_left fun c _ => toLower_toLower c
  rw [parseIpv6, twice, parseIpv6]

/-- The groups of a text in either case, and that nothing else is in it. -/
theorem parseIpv6_eq_some {ip : Ipv6} (read : parseIpv6 text = some ip) :
    (text.map Char.toLower).all isIpChar ∧ readIpv6 (text.map Char.toLower) = some ip := by
  dsimp only [parseIpv6] at read
  split at read
  · next all => exact ⟨all, read⟩
  · cases read

/-- An IPv6 text is made of hex digits, colons and dots. -/
theorem chars_of_parseIpv6 {ip : Ipv6} (read : parseIpv6 text = some ip) :
    ∀ c ∈ text, isIpChar c.toLower := fun _ listed =>
  List.all_eq_true.mp (parseIpv6_eq_some read).1 _ (List.mem_map_of_mem listed)

private theorem colon_of_splitDoubleColon {parts : List Char × List Char}
    (split : splitDoubleColon text = some parts) : ':' ∈ text := by
  induction text using splitDoubleColon.induct generalizing parts with
  | case1 rest => exact List.mem_cons_self
  | case2 c rest other ih =>
    rw [splitDoubleColon] at split
    · obtain ⟨_, later, -⟩ := Option.map_eq_some_iff.mp split
      exact List.mem_cons_of_mem _ (ih later)
    · exact other
  | case3 => cases split

private theorem length_hexGroups_singleton {last : List Char} {groups : List Nat}
    (read : hexGroups [last] = some groups) : groups.length ≤ 2 := by
  unfold hexGroups at read
  split at read
  · cases read
    exact Nat.le_succ 1
  · obtain ⟨_, -, rfl⟩ := Option.map_eq_some_iff.mp read
    exact Nat.le_refl 2

private theorem colon_of_readIpv6 {ip : Ipv6} (read : readIpv6 text = some ip) : ':' ∈ text := by
  unfold readIpv6 at read
  split at read
  · by_contra absent
    obtain ⟨groups, listed, full⟩ := Option.bind_eq_some_iff.mp read
    rw [fields_of_notMem absent] at listed
    have short := length_hexGroups_singleton listed
    rw [dif_neg (by omega)] at full
    cases full
  · next split => exact colon_of_splitDoubleColon split

/-- There is a colon in every IPv6 address. -/
theorem colon_of_parseIpv6 {ip : Ipv6} (read : parseIpv6 text = some ip) : ':' ∈ text := by
  obtain ⟨c, listed, lower⟩ :=
    List.mem_map.mp (colon_of_readIpv6 (parseIpv6_eq_some read).2)
  have colon : decide (c = ':') = true := by
    rw [← apply_toLower (f := fun c => decide (c = ':')) (by decide), lower]
    rfl
  exact of_decide_eq_true colon ▸ listed

/-- A text is read as an IPv4 address exactly when the IPv4 reader takes it. -/
theorem parseIpAddr_eq_v4 {ip : Ipv4} :
    parseIpAddr text = some (.v4 ip) ↔ parseIpv4 text = some ip := by
  unfold parseIpAddr
  cases parseIpv4 text with
  | some other => simp
  | none => simp

/-- A text with a colon is no IPv4 address. -/
theorem parseIpAddr_eq_v6 {ip : Ipv6} :
    parseIpAddr text = some (.v6 ip) ↔ parseIpv6 text = some ip := by
  unfold parseIpAddr
  cases octets : parseIpv4 text with
  | some other =>
    refine iff_of_false (by simp) fun groups => ?_
    have digital := chars_of_parseIpv4 octets _ (colon_of_parseIpv6 groups)
    exact absurd digital (by decide)
  | none => simp

end Texts

end Foghorn.Std
