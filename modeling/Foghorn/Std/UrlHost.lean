import Mathlib.Data.List.DropRight
import Foghorn.Std.IpText

/-!
# The server of an https URL

How a URL parser that follows the URL Standard reads the host and the port: the text is cleaned,
the authority ends at either slash, and a host that ends in a number is an address.
-/

namespace Foghorn.Std

section Characters

def isAsciiChar (c : Char) : Bool := c.toNat < 128

def isC0OrSpace (c : Char) : Bool := c.toNat ≤ 0x20

def isTabOrNewline (c : Char) : Bool := c = '\t' || c = '\n' || c = '\r'

/-- Either slash of a special URL. -/
def isSlash (c : Char) : Bool := c = '/' || c = '\\'

def endsAuthority (c : Char) : Bool := isSlash c || c = '?' || c = '#'

/-- The forbidden domain code points. -/
def isForbidden (c : Char) : Bool :=
  isC0OrSpace c || c = Char.ofNat 0x7F ||
    ['#', '%', '/', ':', '<', '>', '?', '@', '[', '\\', ']', '^', '|'].contains c

/-- Lower case forbids the same characters. -/
theorem isForbidden_toLower (c : Char) : isForbidden c.toLower = isForbidden c :=
  apply_toLower (by decide) c

/-- Lower case keeps ASCII. -/
theorem isAsciiChar_toLower (c : Char) : isAsciiChar c.toLower = isAsciiChar c :=
  apply_toLower (by decide) c

/-- A character that is not forbidden is no space and ends no authority. -/
theorem plain_of_not_isForbidden {c : Char} (plain : isForbidden c = false) :
    isC0OrSpace c = false ∧ endsAuthority c = false := by
  simp only [isForbidden, Bool.or_eq_false_iff] at plain
  refine ⟨plain.1.1, eq_false_of_ne_true fun ends => ?_⟩
  simp only [endsAuthority, isSlash, Bool.or_eq_true, decide_eq_true_eq] at ends
  have unlisted := plain.2
  rcases ends with ((rfl | rfl) | rfl) | rfl <;> contradiction

/-- Digits and dots are plain. -/
theorem plain_of_digit_or_dot {c : Char} (digital : c.isDigit ∨ c = '.') :
    isAsciiChar c ∧ isForbidden c = false := by
  rcases digital with digit | rfl
  · have table : ∀ code < 58, 48 ≤ code →
        isAsciiChar (Char.ofNat code) ∧ isForbidden (Char.ofNat code) = false := by decide
    obtain ⟨above, below⟩ := Bool.and_eq_true_iff.mp digit
    rw [← Char.ofNat_toNat c]
    exact table c.toNat (Nat.lt_succ_of_le (UInt32.le_iff_toNat_le.mp (of_decide_eq_true below)))
      (UInt32.le_iff_toNat_le.mp (of_decide_eq_true above))
  · decide

end Characters

section Numbers

/-- Hexadecimal after `0x`, octal after another leading zero. -/
def ipv4Number (text : List Char) : Option Nat :=
  if text = [] then none
  else if text.take 2 = ['0', 'x'] ∨ text.take 2 = ['0', 'X'] then numberIn 16 (text.drop 2)
  else if text.head? = some '0' then numberIn 8 text.tail
  else numberIn 10 text

/-- The parts between dots, less an empty last one. -/
def numberParts (text : List Char) : List (List Char) :=
  let parts := fields '.' text
  if parts.getLast? = some [] ∧ 1 < parts.length then parts.dropLast else parts

def endsInNumber (text : List Char) : Bool :=
  match (numberParts text).getLast? with
  | some last => (last ≠ [] && last.all Char.isDigit) || (ipv4Number last).isSome
  | none => false

def ipv4Of (number : Nat) : Ipv4 :=
  ⟨lowOctet (number / 0x1000000), lowOctet (number / 0x10000), lowOctet (number / 0x100),
    lowOctet number⟩

/-- The last number fills all the octets that the others leave. -/
def ipv4FromNumbers : List Nat → Option Ipv4
  | [a] => if a < 0x100000000 then some (ipv4Of a) else none
  | [a, b] => if a < 256 ∧ b < 0x1000000 then some (ipv4Of (a * 0x1000000 + b)) else none
  | [a, b, c] =>
    if a < 256 ∧ b < 256 ∧ c < 0x10000 then some (ipv4Of (a * 0x1000000 + b * 0x10000 + c))
    else none
  | [a, b, c, d] =>
    if a < 256 ∧ b < 256 ∧ c < 256 ∧ d < 256 then
      some (ipv4Of (a * 0x1000000 + b * 0x10000 + c * 0x100 + d))
    else none
  | _ => none

def readIpv4 (text : List Char) : Option Ipv4 :=
  ((numberParts text).mapM ipv4Number).bind ipv4FromNumbers

private theorem ipv4Number_octet {digits : List Char} {o : Fin 256} (read : octet digits = some o) :
    ipv4Number digits = some o.val := by
  obtain ⟨number, nonempty, short⟩ := octet_eq_some read
  have noHex : ∀ x, digits.take 2 = ['0', x] → digits.head? = some '0' ∧ digits.length ≠ 1 := by
    intro x leading
    match digits, leading with
    | [_, _], leading => exact ⟨by cases leading; rfl, by simp⟩
    | _ :: _ :: _ :: _, leading => exact ⟨by cases leading; rfl, by simp⟩
  have decimal : ¬(digits.take 2 = ['0', 'x'] ∨ digits.take 2 = ['0', 'X']) := by
    rintro (leading | leading)
    all_goals
      obtain ⟨zero, long⟩ := noHex _ leading
      exact short.elim long (absurd zero)
  rw [ipv4Number, if_neg nonempty, if_neg decimal]
  split
  · next zero =>
    -- a zero by itself
    obtain ⟨c, rfl⟩ := List.length_eq_one_iff.mp (short.resolve_right (absurd zero))
    obtain rfl : c = '0' := Option.some.inj zero
    exact number
  · exact number

private theorem numberParts_of_parseIpv4 {text a b c d : List Char}
    (parts : fields '.' text = [a, b, c, d]) (nonempty : d ≠ []) :
    numberParts text = [a, b, c, d] := by
  dsimp only [numberParts]
  rw [parts, if_neg]
  rintro ⟨last, -⟩
  exact nonempty (Option.some.inj last)

/-- Plain decimal octets are read as they stand. -/
theorem readIpv4_of_parseIpv4 {text : List Char} {ip : Ipv4} (read : parseIpv4 text = some ip) :
    readIpv4 text = some ip := by
  obtain ⟨a, b, c, d, parts, first, second, third, fourth⟩ := parseIpv4_eq_some read
  have nonempty := (octet_eq_some fourth).2.1
  rw [readIpv4, numberParts_of_parseIpv4 parts nonempty]
  simp only [List.mapM_cons, List.mapM_nil, ipv4Number_octet first, ipv4Number_octet second,
    ipv4Number_octet third, ipv4Number_octet fourth, Option.bind_eq_bind, Option.bind_some,
    Option.pure_def, ipv4FromNumbers, Fin.is_lt, and_self, if_true, Option.some.injEq]
  obtain ⟨a, b, c, d⟩ := ip
  simp only [ipv4Of, lowOctet, Ipv4.mk.injEq, Fin.ext_iff]
  omega

end Numbers

section Hosts

/-- The steps of host parsing that rest on tables of their own. -/
structure HostTables where
  percentDecode : List Char → List Char
  domainToAscii : List Char → Option (List Char)

/-- A part of the name is in punycode. -/
def hasPunycode (text : List Char) : Prop :=
  ∃ label ∈ fields '.' text, ['x', 'n', '-', '-'] <+: label.map Char.toLower

/-- What is documented of the tables: an ASCII name without punycode is put in lower case. -/
structure HostTables.Documented (tables : HostTables) : Prop where
  percentDecode_plain : ∀ text, '%' ∉ text → tables.percentDecode text = text
  ascii : ∀ text name, tables.domainToAscii text = some name →
    ∀ c ∈ name, isAsciiChar c ∧ c.toLower = c
  plain : ∀ text, text ≠ [] → (∀ c ∈ text, isAsciiChar c) → ¬hasPunycode text →
    tables.domainToAscii text = some (text.map Char.toLower)

inductive UrlHost where
  | domain (name : List Char)
  | address (ip : IpAddr)
deriving DecidableEq

def parseHost (tables : HostTables) (text : List Char) : Option UrlHost :=
  if text.head? = some '[' then
    if text.getLast? = some ']' then (parseIpv6 text.tail.dropLast).map (.address ∘ .v6) else none
  else do
    let domain ← tables.domainToAscii (tables.percentDecode text)
    if domain.any isForbidden then none
    else if endsInNumber domain then (readIpv4 domain).map (.address ∘ .v4)
    else some (.domain domain)

variable {tables : HostTables} {text : List Char}

/-- A name that is read has neither capitals nor forbidden characters. -/
theorem parseHost_domain (documented : tables.Documented) {name : List Char}
    (read : parseHost tables text = some (.domain name)) :
    ∀ c ∈ name, isAsciiChar c ∧ c.toLower = c ∧ isForbidden c = false := by
  unfold parseHost at read
  split at read
  · split at read
    · obtain ⟨_, -, eq⟩ := Option.map_eq_some_iff.mp read
      cases eq
    · cases read
  · obtain ⟨domain, ascii, rest⟩ := Option.bind_eq_some_iff.mp read
    split at rest
    · cases rest
    · next clean =>
      split at rest
      · obtain ⟨_, -, eq⟩ := Option.map_eq_some_iff.mp rest
        cases eq
      · cases rest
        intro c listed
        obtain ⟨within, lower⟩ := documented.ascii _ _ ascii c listed
        exact ⟨within, lower, eq_false_of_ne_true fun bad =>
          clean (List.any_eq_true.mpr ⟨c, listed, bad⟩)⟩

/-- A host in brackets is read as an IPv6 address. -/
theorem parseHost_bracket (inner : List Char) :
    parseHost tables ('[' :: (inner ++ [']'])) = (parseIpv6 inner).map (.address ∘ .v6) := by
  have closed : ('[' :: (inner ++ [']'])).getLast? = some ']' :=
    List.getLast?_concat (l := '[' :: inner)
  rw [parseHost, if_pos List.head?_cons, if_pos closed, List.tail_cons, List.dropLast_concat]

/-- Behind an opening bracket only an IPv6 address is read. -/
theorem address_of_bracket {host : UrlHost} (read : parseHost tables ('[' :: text) = some host) :
    ∃ ip, host = .address (.v6 ip) := by
  rw [parseHost, if_pos List.head?_cons] at read
  split at read
  · obtain ⟨ip, -, rfl⟩ := Option.map_eq_some_iff.mp read
    exact ⟨ip, rfl⟩
  · cases read

/-- A host of plain characters is read as the name the tables give it. -/
theorem parseHost_plain (documented : tables.Documented)
    (plain : ∀ c ∈ text, isForbidden c = false) :
    parseHost tables text = (tables.domainToAscii text).bind fun domain =>
      if domain.any isForbidden then none
      else if endsInNumber domain then (readIpv4 domain).map (.address ∘ .v4)
      else some (.domain domain) := by
  have noBracket : text.head? ≠ some '[' := fun head => by
    have := plain _ (List.mem_of_mem_head? head)
    contradiction
  have noPercent : '%' ∉ text := fun listed => by
    have := plain _ listed
    contradiction
  rw [parseHost, if_neg noBracket, documented.percentDecode_plain _ noPercent]
  rfl

end Hosts

section Authority

/-- The port of https when none is given. -/
def readPort : Option (List Char) → Option Nat
  | none => some 443
  | some [] => some 443
  | some digits => (numberIn 10 digits).filter (· ≤ 65535)

/-- At the first colon outside brackets. -/
def splitPort (inside : Bool) : List Char → List Char × Option (List Char)
  | [] => ([], none)
  | c :: rest =>
    if c = ':' ∧ inside = false then ([], some rest)
    else
      let (host, port) := splitPort (c = '[' || c ≠ ']' && inside) rest
      (c :: host, port)

/-- What is left behind the credentials. -/
def afterCredentials (authority : List Char) : List Char := authority.rtakeWhile (· ≠ '@')

def readServer (tables : HostTables) (server : List Char) : Option (UrlHost × Nat) := do
  let (host, port) := splitPort false server
  if host = [] then none else return (← parseHost tables host, ← readPort port)

def authorityOf (text : List Char) : List Char :=
  (text.dropWhile isSlash).takeWhile (!endsAuthority ·)

/-- A text as it is read after its first character. -/
def cleanTail (text : List Char) : List Char :=
  (text.rdropWhile isC0OrSpace).filter (!isTabOrNewline ·)

def cleanInput (text : List Char) : List Char := cleanTail (text.dropWhile isC0OrSpace)

def httpsPrefix : List Char := ['h', 't', 't', 'p', 's', ':', '/', '/']

/-- The host and the port of a URL of the scheme https. -/
def parseHttps (tables : HostTables) (text : List Char) : Option (UrlHost × Nat) := do
  let rest ← httpsPrefix.isPrefixOf? (cleanInput text)
  readServer tables (afterCredentials (authorityOf rest))

section Cleaning

private theorem not_isTabOrNewline {c : Char} (plain : isC0OrSpace c = false) :
    isTabOrNewline c = false := by
  by_contra blank
  simp only [isTabOrNewline, Bool.or_eq_true, decide_eq_true_eq, Bool.not_eq_false] at blank
  rcases blank with (rfl | rfl) | rfl <;> contradiction

/-- At the front a character goes only where nothing is left behind it. -/
theorem rdropWhile_cons_cases {p : Char → Bool} (c : Char) (rest : List Char) :
    p c ∧ (c :: rest).rdropWhile p = [] ∨ (c :: rest).rdropWhile p = c :: rest.rdropWhile p := by
  induction rest using List.reverseRecOn with
  | nil =>
    by_cases blank : p c
    · exact .inl ⟨blank, by simp [blank]⟩
    · exact .inr (by simp [blank])
  | append_singleton rest last ih =>
    rw [← List.cons_append]
    by_cases blank : p last
    · rw [List.rdropWhile_concat_pos _ _ _ blank, List.rdropWhile_concat_pos _ _ _ blank]
      exact ih
    · rw [List.rdropWhile_concat_neg _ _ _ blank, List.rdropWhile_concat_neg _ _ _ blank]
      exact .inr rfl

private theorem cleanTail_cons_cases (c : Char) (rest : List Char) :
    isC0OrSpace c ∧ (cleanTail (c :: rest) = [] ∨ cleanTail (c :: rest) = cleanTail rest) ∨
      cleanTail (c :: rest) = c :: cleanTail rest := by
  unfold cleanTail
  rcases rdropWhile_cons_cases (p := isC0OrSpace) c rest with ⟨blank, none⟩ | kept
  · exact .inl ⟨blank, .inl (by rw [none, List.filter_nil])⟩
  · rw [kept, List.filter_cons]
    split
    · exact .inr rfl
    · next dropped =>
      refine .inl ⟨?_, .inr rfl⟩
      by_contra plain
      exact dropped (by simp [not_isTabOrNewline (eq_false_of_ne_true plain)])

private theorem cleanTail_cons {c : Char} (plain : isC0OrSpace c = false) (rest : List Char) :
    cleanTail (c :: rest) = c :: cleanTail rest :=
  (cleanTail_cons_cases c rest).resolve_left fun blank => by simp [plain] at blank

private theorem cleanTail_append {front : List Char} (plain : ∀ c ∈ front, isC0OrSpace c = false)
    (rest : List Char) : cleanTail (front ++ rest) = front ++ cleanTail rest := by
  induction front with
  | nil => rfl
  | cons c front ih =>
    obtain ⟨first, later⟩ := List.forall_mem_cons.mp plain
    rw [List.cons_append, cleanTail_cons first, ih later, List.cons_append]

/-- Cleaning leaves what stands plainly in front, up to the authority's end. -/
theorem takeWhile_cleanTail_append {front : List Char}
    (plain : ∀ c ∈ front, isC0OrSpace c = false ∧ endsAuthority c = false) (rest : List Char) :
    (cleanTail (front ++ rest)).takeWhile (!endsAuthority ·) =
      front ++ (cleanTail rest).takeWhile (!endsAuthority ·) := by
  rw [cleanTail_append fun c listed => (plain c listed).1, List.takeWhile_append_of_pos]
  exact fun c listed => by simp [(plain c listed).2]

/-- At its front an authority loses slashes only. -/
theorem authorityOf_cleanTail_cons {c : Char} (plain : isC0OrSpace c = false)
    (other : endsAuthority c = false) (rest : List Char) :
    authorityOf (cleanTail (c :: rest)) = c :: (cleanTail rest).takeWhile (!endsAuthority ·) := by
  have noSlash : ¬isSlash c := fun slash => by simp [endsAuthority, slash] at other
  rw [cleanTail_cons plain, authorityOf, List.dropWhile_cons_of_neg noSlash,
    List.takeWhile_cons_of_pos (by simp [other])]

/-- Nothing is cleaned away before the character that ends the authority. -/
theorem takeWhile_cleanTail_stopped {rest : List Char}
    (stopped : ∀ c ∈ rest.head?, endsAuthority c ∧ isC0OrSpace c = false) :
    (cleanTail rest).takeWhile (!endsAuthority ·) = [] := by
  cases rest with
  | nil => rfl
  | cons c rest =>
    obtain ⟨ends, plain⟩ := stopped c rfl
    rw [cleanTail_cons plain, List.takeWhile_cons_of_neg (by simp [ends])]

/-- An authority of plain characters is read as it stands. -/
theorem authorityOf_plain {authority rest : List Char} (nonempty : authority ≠ [])
    (plain : ∀ c ∈ authority, isC0OrSpace c = false ∧ endsAuthority c = false)
    (stopped : ∀ c ∈ rest.head?, endsAuthority c ∧ isC0OrSpace c = false) :
    authorityOf (cleanTail (authority ++ rest)) = authority := by
  obtain ⟨c, authority, rfl⟩ := List.exists_cons_of_ne_nil nonempty
  obtain ⟨first, later⟩ := List.forall_mem_cons.mp plain
  rw [List.cons_append, authorityOf_cleanTail_cons first.1 first.2,
    takeWhile_cleanTail_append later, takeWhile_cleanTail_stopped stopped, List.append_nil]

/-- Cleaning takes nothing into the authority from behind its end. -/
theorem mem_of_mem_authority {keep : Char → Bool} {rest : List Char} {c : Char}
    (cut : ∀ d, keep d = false → endsAuthority d ∧ isC0OrSpace d = false)
    (listed : c ∈ (cleanTail rest).takeWhile (!endsAuthority ·)) : c ∈ rest.takeWhile keep := by
  induction rest with
  | nil => exact absurd listed List.not_mem_nil
  | cons d rest ih =>
    by_cases kept : keep d
    · rw [List.takeWhile_cons_of_pos kept]
      rcases cleanTail_cons_cases d rest with ⟨-, none | same⟩ | same
      · rw [none] at listed
        exact absurd listed List.not_mem_nil
      · rw [same] at listed
        exact List.mem_cons_of_mem _ (ih listed)
      · rw [same, List.takeWhile_cons] at listed
        split at listed
        · exact List.mem_cons.mpr ((List.mem_cons.mp listed).imp_right ih)
        · exact absurd listed List.not_mem_nil
    · obtain ⟨ends, plain⟩ := cut d (eq_false_of_ne_true kept)
      rw [cleanTail_cons plain, List.takeWhile_cons_of_neg (by simp [ends])] at listed
      exact absurd listed List.not_mem_nil

/-- A text that begins with the scheme is read from its authority on. -/
theorem parseHttps_scheme (tables : HostTables) (rest : List Char) :
    parseHttps tables (httpsPrefix ++ rest) =
      readServer tables (afterCredentials (authorityOf (cleanTail rest))) := by
  have plain : ∀ c ∈ httpsPrefix, isC0OrSpace c = false := by simp [httpsPrefix, isC0OrSpace]
  have first : (httpsPrefix ++ rest).dropWhile isC0OrSpace = httpsPrefix ++ rest := rfl
  rw [parseHttps, cleanInput, first, cleanTail_append plain,
    List.isPrefixOf?_eq_some_iff_append_eq.mpr rfl]
  rfl

/-- Without an `@` there are no credentials. -/
theorem afterCredentials_of_notMem {authority : List Char} (absent : '@' ∉ authority) :
    afterCredentials authority = authority :=
  List.rtakeWhile_eq_self_iff.mpr fun _ listed => decide_eq_true fun eq => absent (eq ▸ listed)

end Cleaning

end Authority

section Servers

variable {tables : HostTables}

private theorem splitPort_cons {c : Char} (other : c ≠ ':') (rest : List Char) :
    splitPort false (c :: rest) =
      (c :: (splitPort (c = '[') rest).1, (splitPort (c = '[') rest).2) := by
  rw [splitPort, if_neg fun colon => other colon.1]
  simp

/-- Neither a colon nor a bracket is in the name. -/
theorem splitPort_name {name : List Char} (plain : ∀ c ∈ name, isForbidden c = false)
    (rest : List Char) :
    splitPort false (name ++ rest) =
      (name ++ (splitPort false rest).1, (splitPort false rest).2) := by
  induction name with
  | nil => rfl
  | cons c name ih =>
    obtain ⟨first, later⟩ := List.forall_mem_cons.mp plain
    have noColon : c ≠ ':' := by
      rintro rfl
      contradiction
    have noBracket : decide (c = '[') = false := decide_eq_false <| by
      rintro rfl
      contradiction
    rw [List.cons_append, splitPort_cons noColon, noBracket, ih later]
    rfl

private theorem splitPort_enclosed {inner : List Char} (closed : ']' ∉ inner) (rest : List Char) :
    splitPort true (inner ++ ']' :: rest) =
      (inner ++ ']' :: (splitPort false rest).1, (splitPort false rest).2) := by
  induction inner with
  | nil => rfl
  | cons c inner ih =>
    obtain ⟨other, later⟩ := not_or.mp (mt List.mem_cons.mpr closed)
    rw [List.cons_append, splitPort, if_neg (by simp)]
    have inside : (c = '[' || c ≠ ']' && true : Bool) = true := by
      simp [Ne.symm other]
    rw [inside, ih later]
    rfl

/-- The port behind a closing bracket. -/
def portBehind : List Char → Option Nat
  | [] => some 443
  | c :: rest => if c = ':' then readPort (some rest) else none

private theorem bracket_notMem_ipv6 {inner : List Char} {ip : Ipv6}
    (read : parseIpv6 inner = some ip) :
    ']' ∉ inner := fun listed => by
  have := chars_of_parseIpv6 read _ listed
  contradiction

/-- Between the brackets there is no other bracket. -/
theorem parseHost_beyond (inner rest : List Char) (c : Char) :
    parseHost tables ('[' :: (inner ++ ']' :: c :: rest)) = none := by
  have dropped : (inner ++ ']' :: c :: rest).dropLast = inner ++ ']' :: (c :: rest).dropLast := by
    rw [List.dropLast_append_of_ne_nil (List.cons_ne_nil _ _), List.dropLast_cons_of_ne_nil]
    exact List.cons_ne_nil _ _
  rw [parseHost, if_pos List.head?_cons, List.tail_cons, dropped]
  split
  · cases read : parseIpv6 (inner ++ ']' :: (c :: rest).dropLast) with
    | none => rfl
    | some ip => exact absurd (by simp) (bracket_notMem_ipv6 read)
  · rfl

/-- An address in brackets has nothing but a port behind it. -/
theorem readServer_enclosed {inner : List Char} {ip : Ipv6} (read : parseIpv6 inner = some ip)
    (after : List Char) :
    readServer tables ('[' :: (inner ++ ']' :: after)) =
      (portBehind after).map fun port => (.address (.v6 ip), port) := by
  have split : splitPort false ('[' :: (inner ++ ']' :: after)) =
      ('[' :: (inner ++ ']' :: (splitPort false after).1), (splitPort false after).2) := by
    rw [splitPort_cons (by decide)]
    exact congrArg (fun parts => ('[' :: parts.1, parts.2))
      (splitPort_enclosed (bracket_notMem_ipv6 read) after)
  rw [readServer, split]
  dsimp only
  rw [if_neg (List.cons_ne_nil _ _)]
  cases after with
  | nil =>
    rw [splitPort, parseHost_bracket, read]
    rfl
  | cons c rest =>
    by_cases colon : c = ':'
    · rw [splitPort, if_pos ⟨colon, rfl⟩, parseHost_bracket, read, portBehind, if_pos colon]
      cases readPort (some rest) <;> rfl
    · rw [splitPort_cons colon, parseHost_beyond, portBehind, if_neg colon]
      rfl

/-- A host that is read was read from some text. -/
theorem exists_parseHost {server : List Char} {host : UrlHost} {port : Nat}
    (read : readServer tables server = some (host, port)) :
    parseHost tables (splitPort false server).1 = some host := by
  unfold readServer at read
  dsimp only at read
  split at read
  · cases read
  · obtain ⟨_, first, rest⟩ := Option.bind_eq_some_iff.mp read
    obtain ⟨_, -, eq⟩ := Option.bind_eq_some_iff.mp rest
    cases eq
    exact first

/-- Behind an opening bracket no other server is read. -/
theorem address_of_readServer {rest : List Char} {host : UrlHost} {port : Nat}
    (read : readServer tables ('[' :: rest) = some (host, port)) :
    ∃ ip, host = .address (.v6 ip) := by
  have first := exists_parseHost read
  rw [splitPort_cons (by decide)] at first
  exact address_of_bracket first

/-- The server of a plain name with its port. -/
theorem readServer_name {name : List Char} (nonempty : name ≠ [])
    (plain : ∀ c ∈ name, isForbidden c = false) (port : Option (List Char)) :
    readServer tables (name ++ port.elim [] (':' :: ·)) =
      (parseHost tables name).bind fun host => (readPort port).map fun port => (host, port) := by
  have split : splitPort false (name ++ port.elim [] (':' :: ·)) = (name, port) := by
    rw [splitPort_name plain]
    cases port with
    | none => exact congrArg (·, none) (List.append_nil name)
    | some digits => exact congrArg (·, some digits) (List.append_nil name)
  rw [readServer, split]
  dsimp only
  rw [if_neg nonempty]
  cases parseHost tables name <;> cases readPort port <;> rfl

end Servers

end Foghorn.Std
