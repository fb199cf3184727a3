import Mathlib.Data.List.TakeWhile
import Foghorn.Std.UrlHost

/-!
# The host of a webhook

A webhook is refused by the host its URL names. That host is cut out of the text here, is
resolved and pinned for the delivery, and the client then reads the same text for itself.
-/

namespace Foghorn.Core

open Foghorn.Std

section Addresses

def isPublicV4 (ip : Ipv4) : Bool :=
  let (a, b, c, d) := ip.octets
  let isPrivate := a = 10 || (a = 172 && 16 ≤ b && b ≤ 31) || (a = 192 && b = 168)
  let isLoopback := a = 127
  let isLinkLocal := a = 169 && b = 254
  let isUnspecified := a = 0 && b = 0 && c = 0 && d = 0
  let isBroadcast := a = 255 && b = 255 && c = 255 && d = 255
  let isDocumentation := (a = 192 && b = 0 && c = 2) || (a = 198 && b = 51 && c = 100) ||
    (a = 203 && b = 0 && c = 113)
  !(isPrivate || isLoopback || isLinkLocal || isUnspecified || isBroadcast || isDocumentation ||
    a = 0 || (a = 100 && 64 ≤ b && b < 128) || (a = 198 && (b = 18 || b = 19)) || 224 ≤ a)

/-- `::ffff:a.b.c.d`. -/
def toIpv4Mapped (ip : Ipv6) : Option Ipv4 :=
  match ip.segments with
  | [0, 0, 0, 0, 0, 0xffff, high, low] =>
    some ⟨lowOctet (high / 256), lowOctet high, lowOctet (low / 256), lowOctet low⟩
  | _ => none

def isPublicV6 (ip : Ipv6) : Bool :=
  match toIpv4Mapped ip with
  | some v4 => isPublicV4 v4
  | none =>
    let first := ip.segments.headD 0
    !(ip.segments = [0, 0, 0, 0, 0, 0, 0, 1] || ip.segments = List.replicate 8 0 ||
      first &&& 0xff00 = 0xff00 || first &&& 0xfe00 = 0xfc00 || first &&& 0xffc0 = 0xfe80)

/-- Whether an address may be posted to. -/
def isPublic : IpAddr → Bool
  | .v4 ip => isPublicV4 ip
  | .v6 ip => isPublicV6 ip

end Addresses

section Check

/-- `str::split_once`. -/
def splitOnce (sep : Char) : List Char → Option (List Char × List Char)
  | [] => none
  | c :: rest =>
    if c = sep then some ([], rest)
    else (splitOnce sep rest).map fun (head, tail) => (c :: head, tail)

def inAuthority (c : Char) : Bool := c ≠ '/' && c ≠ '?' && c ≠ '#'

/-- The host and the text of the port, which stands behind the brackets of an address. -/
def hostAndPort : List Char → Option (List Char × Option (List Char))
  | '[' :: v6 => (splitOnce ']' v6).map fun (host, rest) => (host, [':'].isPrefixOf? rest)
  | authority => some ((splitOnce ':' authority).elim (authority, none) fun (host, port) =>
      (host, some port))

/-- `str::parse::<u16>`, and the port of https where none is given. -/
def portNumber : Option (List Char) → Option Nat
  | some digits => (numberIn 10 digits).filter (· ≤ 65535)
  | none => some 443

def privateSuffixes : List (List Char) :=
  [".localhost".toList, ".internal".toList, ".local".toList]

def isPrivateName (host : List Char) : Bool :=
  host = "localhost".toList || privateSuffixes.any (·.isSuffixOf host)

/-- Why a webhook URL is refused; otherwise its host and port. -/
def checkWebhookUrl (raw : String) : Except String (String × Nat) :=
  if 512 < raw.utf8ByteSize then .error "the webhook URL is too long"
  else match "https://".toList.isPrefixOf? raw.toList with
  | none => .error "the webhook URL must be https"
  | some rest =>
    let authority := rest.takeWhile inAuthority
    if authority = [] ∨ '@' ∈ authority then .error "the webhook URL has no usable host"
    else match hostAndPort authority with
    | none => .error "the webhook URL has no usable host"
    | some (host, port) =>
      if host = [] ∨ port.any fun digits => digits = [] || !digits.all Char.isDigit then
        .error "the webhook URL has no usable host"
      else
        let host := host.map Char.toLower
        if isPrivateName host then .error "the webhook URL points at a private host"
        else if (parseIpAddr host).any (!isPublic ·) then
          .error "the webhook URL points at a private address"
        else match portNumber port with
        | none => .error "the webhook URL has no usable host"
        | some port => .ok (String.ofList host, port)

/-- The parts of a URL that is not refused. -/
structure Checked (rest name : List Char) (digits : Option (List Char)) (port : Nat) : Prop where
  nonempty : rest.takeWhile inAuthority ≠ []
  noCredentials : '@' ∉ rest.takeWhile inAuthority
  parts : hostAndPort (rest.takeWhile inAuthority) = some (name, digits)
  named : name ≠ []
  digits_ne_nil : ∀ d ∈ digits, d ≠ []
  isDigit : ∀ d ∈ digits, ∀ c ∈ d, c.isDigit
  isPublic : ∀ ip, parseIpAddr (name.map Char.toLower) = some ip → isPublic ip
  number : portNumber digits = some port

/-- An accepted webhook URL has a checked authority behind `https://`. -/
theorem checked {raw host : String} {port : Nat}
    (accepted : checkWebhookUrl raw = .ok (host, port)) :
    ∃ rest name digits, raw.toList = httpsPrefix ++ rest ∧
      host.toList = name.map Char.toLower ∧ Checked rest name digits port := by
  unfold checkWebhookUrl at accepted
  split at accepted
  · cases accepted
  split at accepted
  · cases accepted
  rename_i rest scheme
  dsimp only at accepted
  split at accepted
  · cases accepted
  rename_i usable
  split at accepted
  · cases accepted
  rename_i name digits parts
  split at accepted
  · cases accepted
  rename_i shape
  split at accepted
  · cases accepted
  split at accepted
  · cases accepted
  rename_i reachable
  split at accepted
  · cases accepted
  rename_i number
  cases accepted
  obtain ⟨nonempty, noCredentials⟩ := not_or.mp usable
  obtain ⟨named, digital⟩ := not_or.mp shape
  refine ⟨rest, name, digits, (List.isPrefixOf?_eq_some_iff_append_eq.mp scheme).symm,
    String.toList_ofList, nonempty, noCredentials, parts, named, ?_, ?_, ?_, number⟩
  · rintro d given rfl
    obtain rfl : digits = some [] := given
    exact digital rfl
  · intro d given c listed
    obtain rfl : digits = some d := given
    by_contra other
    refine digital (Bool.or_eq_true_iff.mpr (.inr ?_))
    rw [Bool.not_eq_true', List.all_eq_false]
    exact ⟨c, listed, other⟩
  · intro ip read
    by_contra hidden
    exact reachable (by simp [read, hidden])

end Check

section Split

private theorem splitOnce_eq_some {sep : Char} {text head tail : List Char}
    (split : splitOnce sep text = some (head, tail)) :
    text = head ++ sep :: tail ∧ sep ∉ head := by
  induction text generalizing head tail with
  | nil => cases split
  | cons c rest ih =>
    by_cases same : c = sep
    · rw [splitOnce, if_pos same] at split
      cases split
      exact ⟨congrArg (· :: rest) same, List.not_mem_nil⟩
    · rw [splitOnce, if_neg same] at split
      obtain ⟨⟨later, after⟩, found, eq⟩ := Option.map_eq_some_iff.mp split
      cases eq
      obtain ⟨rfl, absent⟩ := ih found
      exact ⟨rfl, List.not_mem_cons_of_ne_of_not_mem (Ne.symm same) absent⟩

private theorem notMem_of_splitOnce {sep : Char} {text : List Char}
    (split : splitOnce sep text = none) :
    sep ∉ text := by
  induction text with
  | nil => exact List.not_mem_nil
  | cons c rest ih =>
    by_cases same : c = sep
    · rw [splitOnce, if_pos same] at split
      cases split
    · rw [splitOnce, if_neg same, Option.map_eq_none_iff] at split
      exact List.not_mem_cons_of_ne_of_not_mem (Ne.symm same) (ih split)

private theorem splitOnce_append {sep : Char} {head : List Char} (absent : sep ∉ head)
    (tail : List Char) :
    splitOnce sep (head ++ sep :: tail) = some (head, tail) := by
  induction head with
  | nil => rw [List.nil_append, splitOnce, if_pos rfl]
  | cons c head ih =>
    obtain ⟨other, later⟩ := not_or.mp (mt List.mem_cons.mpr absent)
    rw [List.cons_append, splitOnce, if_neg (Ne.symm other), ih later]
    rfl

/-- Outside brackets an authority is its host up to the first colon. -/
theorem hostAndPort_name {authority name : List Char} {digits : Option (List Char)}
    (unbracketed : authority.head? ≠ some '[')
    (parts : hostAndPort authority = some (name, digits)) :
    authority = name ++ digits.elim [] (':' :: ·) ∧ ':' ∉ name := by
  unfold hostAndPort at parts
  split at parts
  · exact absurd rfl unbracketed
  · cases split : splitOnce ':' authority with
    | none =>
      rw [split] at parts
      cases parts
      exact ⟨(List.append_nil authority).symm, notMem_of_splitOnce split⟩
    | some halves =>
      obtain ⟨head, tail⟩ := halves
      rw [split] at parts
      cases parts
      exact splitOnce_eq_some split

/-- In brackets the host ends at the first closing one. -/
theorem hostAndPort_bracket {v6 inner : List Char} {digits : Option (List Char)}
    (parts : hostAndPort ('[' :: v6) = some (inner, digits)) :
    ∃ behind, v6 = inner ++ ']' :: behind ∧ ']' ∉ inner ∧ digits = [':'].isPrefixOf? behind := by
  obtain ⟨⟨head, behind⟩, split, eq⟩ := Option.map_eq_some_iff.mp parts
  cases eq
  obtain ⟨whole, absent⟩ := splitOnce_eq_some split
  exact ⟨behind, whole, absent, rfl⟩

end Split

section Contact

/-- The host the client reads is the host that was checked, up to the case of letters. -/
def SameHost : UrlHost → List Char → Prop
  | .domain name, host => name.map Char.toLower = host.map Char.toLower
  | .address ip, host => parseIpAddr host = some ip

/-- The client contacts the checked host and port, and no address that is not public. -/
def HostContacted (tables : HostTables) (raw host : String) (port : Nat) : Prop :=
  ∃ read, parseHttps tables raw.toList = some (read, port) ∧ SameHost read host.toList ∧
    ∀ ip, read = .address ip → isPublic ip

/-- A host outside brackets that the client reads as it stands. -/
structure NameAlike (tables : HostTables) (name : List Char) : Prop where
  plain : ∀ c ∈ name, isAsciiChar c ∧ isForbidden c = false
  punycode : hasPunycode name → tables.domainToAscii name = some (name.map Char.toLower)
  number : endsInNumber (name.map Char.toLower) → (parseIpv4 (name.map Char.toLower)).isSome

/-- A text behind a closing bracket that gives the client the port it gives the check. -/
def BehindAlike (behind : List Char) : Prop :=
  behind.head? = some ':' ∨
    portBehind ((cleanTail behind).takeWhile (!endsAuthority ·)) = some 443

/-- What follows the scheme is read alike by the check and by the client. -/
def ReadAlike (tables : HostTables) : List Char → Prop
  | '[' :: v6 => ∃ inner behind, splitOnce ']' v6 = some (inner, behind) ∧
      (parseIpv6 inner).isSome ∧ BehindAlike behind
  | rest => NameAlike tables (rest.takeWhile fun c => c ≠ ':' && inAuthority c)

end Contact

section Reading

variable {tables : HostTables} {rest name : List Char} {digits : Option (List Char)} {port : Nat}

private theorem ends_of_not_inAuthority {c : Char} (cut : inAuthority c = false) :
    endsAuthority c ∧ isC0OrSpace c = false := by
  have cases : c = '/' ∨ c = '?' ∨ c = '#' := by
    simp only [inAuthority, Bool.and_eq_false_iff, decide_eq_false_iff_not, not_not] at cut
    rwa [or_assoc] at cut
  rcases cases with rfl | rfl | rfl <;> decide

private theorem stopped_tail (rest : List Char) :
    ∀ c ∈ (rest.dropWhile inAuthority).head?, endsAuthority c ∧ isC0OrSpace c = false := by
  intro c first
  have cut := List.head?_dropWhile_not inAuthority rest
  rw [Option.mem_def.mp first] at cut
  exact ends_of_not_inAuthority cut

private theorem plain_digit {c : Char} (digit : c.isDigit) :
    isC0OrSpace c = false ∧ endsAuthority c = false :=
  plain_of_not_isForbidden (plain_of_digit_or_dot (.inl digit)).2

/-- The client reads the port the check read. -/
theorem Checked.readPort (checked : Checked rest name digits port) :
    readPort digits = some port := by
  have number := checked.number
  match digits, checked.digits_ne_nil with
  | none, _ => exact number
  | some [], nonempty => exact absurd rfl (nonempty [] rfl)
  | some (_ :: _), _ => exact number

/-- A plain name is what the client takes for the host. -/
theorem Checked.parseHttps_name (checked : Checked rest name digits port)
    (unbracketed : rest.head? ≠ some '[') (plain : ∀ c ∈ name, isForbidden c = false) :
    parseHttps tables (httpsPrefix ++ rest) =
      (parseHost tables name).map fun host => (host, port) := by
  have outside : (rest.takeWhile inAuthority).head? ≠ some '[' := by
    rw [List.head?_takeWhile]
    exact fun first => unbracketed (Option.filter_eq_some_iff.mp first).1
  obtain ⟨authority, -⟩ := hostAndPort_name outside checked.parts
  have clean : ∀ c ∈ rest.takeWhile inAuthority, isC0OrSpace c = false ∧ endsAuthority c = false := by
    rw [authority]
    intro c listed
    rcases List.mem_append.mp listed with inName | inPort
    · exact plain_of_not_isForbidden (plain c inName)
    · match digits, inPort, checked.isDigit with
      | some d, inPort, digital =>
        rcases List.mem_cons.mp inPort with rfl | inDigits
        · decide
        · exact plain_digit (digital d rfl c inDigits)
  have whole := authorityOf_plain checked.nonempty clean (stopped_tail rest)
  rw [List.takeWhile_append_dropWhile] at whole
  rw [parseHttps_scheme, whole, afterCredentials_of_notMem checked.noCredentials, authority,
    readServer_name checked.named plain, checked.readPort]
  cases parseHost tables name <;> rfl

/-- Without a colon an address is four octets. -/
theorem octets_of_same {ip : IpAddr} (noColon : ':' ∉ name)
    (same : parseIpAddr (name.map Char.toLower) = some ip) :
    ∃ v4, parseIpv4 (name.map Char.toLower) = some v4 ∧ ip = .v4 v4 := by
  cases ip with
  | v4 v4 => exact ⟨v4, parseIpAddr_eq_v4.mp same, rfl⟩
  | v6 v6 =>
    rw [parseIpAddr_eq_v6, parseIpv6_map_toLower] at same
    exact absurd (colon_of_parseIpv6 same) noColon

private theorem not_hasPunycode (digital : ∀ c ∈ name.map Char.toLower, c.isDigit ∨ c = '.') :
    ¬hasPunycode name := by
  rintro ⟨label, listed, marked⟩
  obtain ⟨c, inLabel, lower⟩ := List.mem_map.mp (marked.mem List.mem_cons_self)
  have other : c ≠ '.' := by
    rintro rfl
    contradiction
  have inName := (mem_iff_fields other).mpr ⟨label, listed, inLabel⟩
  have := digital _ (List.mem_map_of_mem inName)
  rw [lower] at this
  exact absurd this (by decide)

private theorem map_toLower_twice (text : List Char) :
    (text.map Char.toLower).map Char.toLower = text.map Char.toLower := by
  rw [List.map_map]
  exact List.map_congr_left fun c _ => toLower_toLower c

/-- A name that is read and is the checked name up to case is the checked name in lower case. -/
theorem eq_of_same_domain (documented : tables.Documented) {server domain : List Char}
    (parsed : parseHost tables server = some (.domain domain))
    (same : SameHost (.domain domain) (name.map Char.toLower)) : domain = name.map Char.toLower := by
  have lower : domain.map Char.toLower = domain :=
    (List.map_congr_left fun c listed => (parseHost_domain documented parsed c listed).2.1).trans
      (List.map_id domain)
  exact lower.symm.trans (same.trans (map_toLower_twice name))

/-- Only a plain name is the name of a host that is read. -/
theorem plain_of_same (documented : tables.Documented) {server : List Char} {read : UrlHost}
    (noColon : ':' ∉ name) (parsed : parseHost tables server = some read)
    (same : SameHost read (name.map Char.toLower)) :
    ∀ c ∈ name, isAsciiChar c ∧ isForbidden c = false := by
  have lowered : ∀ c ∈ name.map Char.toLower, isAsciiChar c ∧ isForbidden c = false := by
    cases read with
    | domain domain =>
      rw [← eq_of_same_domain documented parsed same]
      exact fun c listed =>
        have kept := parseHost_domain documented parsed c listed
        ⟨kept.1, kept.2.2⟩
    | address ip =>
      obtain ⟨v4, octets, -⟩ := octets_of_same noColon same
      exact fun c listed => plain_of_digit_or_dot (chars_of_parseIpv4 octets c listed)
  intro c listed
  have plain := lowered _ (List.mem_map_of_mem listed)
  rwa [isAsciiChar_toLower, isForbidden_toLower] at plain

/-- A name that is read as the host of the check is left as it is. -/
theorem NameAlike.of_read (documented : tables.Documented) (named : name ≠ [])
    (noColon : ':' ∉ name) {read : UrlHost} (parsed : parseHost tables name = some read)
    (same : SameHost read (name.map Char.toLower)) : NameAlike tables name := by
  have plain := plain_of_same documented noColon parsed same
  have kept := parsed
  rw [parseHost_plain documented fun c listed => (plain c listed).2] at parsed
  obtain ⟨domain, ascii, rest⟩ := Option.bind_eq_some_iff.mp parsed
  have unchanged : domain = name.map Char.toLower := by
    split at rest
    · cases rest
    split at rest
    · obtain ⟨v4, -, rfl⟩ := Option.map_eq_some_iff.mp rest
      obtain ⟨_, octets, -⟩ := octets_of_same noColon same
      have unmarked := not_hasPunycode (chars_of_parseIpv4 octets)
      rw [documented.plain name named (fun c listed => (plain c listed).1) unmarked] at ascii
      exact (Option.some.inj ascii).symm
    · cases rest
      exact eq_of_same_domain documented kept same
  subst unchanged
  refine ⟨plain, fun _ => ascii, fun numeric => ?_⟩
  split at rest
  · cases rest
  obtain ⟨v4, -, rfl⟩ := Option.map_eq_some_iff.mp rest
  obtain ⟨_, octets, -⟩ := octets_of_same noColon same
  exact octets ▸ rfl

/-- A name that the client leaves as it is, is read as the host of the check. -/
theorem NameAlike.read (alike : NameAlike tables name) (documented : tables.Documented)
    (named : name ≠ []) :
    ∃ read, parseHost tables name = some read ∧ SameHost read (name.map Char.toLower) := by
  have ascii : tables.domainToAscii name = some (name.map Char.toLower) := by
    by_cases marked : hasPunycode name
    · exact alike.punycode marked
    · exact documented.plain name named (fun c listed => (alike.plain c listed).1) marked
  have clean := fun c listed => (alike.plain c listed).2
  have allowed : ¬(name.map Char.toLower).any isForbidden := by
    rw [List.any_map, List.any_eq_true]
    rintro ⟨c, listed, bad⟩
    rw [Function.comp_apply, isForbidden_toLower, clean c listed] at bad
    cases bad
  rw [parseHost_plain documented clean, ascii, Option.bind_some, if_neg allowed]
  by_cases numeric : endsInNumber (name.map Char.toLower)
  · obtain ⟨v4, octets⟩ := Option.isSome_iff_exists.mp (alike.number numeric)
    rw [if_pos numeric, readIpv4_of_parseIpv4 octets]
    exact ⟨_, rfl, by rw [Function.comp_apply, SameHost, parseIpAddr, octets]; rfl⟩
  · rw [if_neg numeric]
    exact ⟨_, rfl, rfl⟩

/-- The name the check cuts out, by the characters that may stand in it. -/
theorem Checked.takeWhile_name (checked : Checked rest name digits port)
    (unbracketed : rest.head? ≠ some '[') :
    (rest.takeWhile fun c => c ≠ ':' && inAuthority c) = name ∧ ':' ∉ name := by
  have outside : (rest.takeWhile inAuthority).head? ≠ some '[' := by
    rw [List.head?_takeWhile]
    exact fun first => unbracketed (Option.filter_eq_some_iff.mp first).1
  obtain ⟨authority, noColon⟩ := hostAndPort_name outside checked.parts
  have within : (name ++ digits.elim [] (':' :: ·)).takeWhile (· ≠ ':') = name := by
    have others : ∀ c ∈ name, decide (c ≠ ':') = true := fun c listed =>
      decide_eq_true fun colon => noColon (colon ▸ listed)
    rw [List.takeWhile_append_of_pos others]
    cases digits with
    | none => exact List.append_nil name
    | some d => exact List.append_nil name
  rw [← authority, List.takeWhile_takeWhile] at within
  simp only [Bool.decide_and, decide_not, Bool.decide_eq_true] at within ⊢
  exact ⟨within, noColon⟩

/-- Without brackets both readings agree when they agree on the name before the port. -/
theorem readAlike_name (unbracketed : rest.head? ≠ some '[') :
    ReadAlike tables rest ↔
      NameAlike tables (rest.takeWhile fun c => c ≠ ':' && inAuthority c) := by
  unfold ReadAlike
  split
  · exact absurd rfl unbracketed
  · exact Iff.rfl

section Brackets

variable {v6 : List Char}

/-- Behind an opening bracket the client reads on to the end of the authority. -/
theorem Checked.parseHttps_bracket (checked : Checked ('[' :: v6) name digits port) :
    parseHttps tables (httpsPrefix ++ '[' :: v6) =
      readServer tables ('[' :: (cleanTail v6).takeWhile (!endsAuthority ·)) := by
  have noAt : '@' ∉ '[' :: (cleanTail v6).takeWhile (!endsAuthority ·) := by
    refine List.not_mem_cons_of_ne_of_not_mem (by decide) fun listed => ?_
    refine checked.noCredentials (List.mem_cons_of_mem _ ?_)
    exact mem_of_mem_authority (fun _ => ends_of_not_inAuthority) listed
  rw [parseHttps_scheme, authorityOf_cleanTail_cons (by decide) (by decide),
    afterCredentials_of_notMem noAt]

/-- The text in brackets and what stands behind it, to the end of the authority and beyond. -/
theorem Checked.split_bracket (checked : Checked ('[' :: v6) name digits port) :
    ∃ cut, v6 = name ++ ']' :: (cut ++ v6.dropWhile inAuthority) ∧ ']' ∉ name ∧
      digits = [':'].isPrefixOf? cut := by
  obtain ⟨cut, within, closed, given⟩ := hostAndPort_bracket checked.parts
  refine ⟨cut, ?_, closed, given⟩
  calc v6 = v6.takeWhile inAuthority ++ v6.dropWhile inAuthority :=
        List.takeWhile_append_dropWhile.symm
    _ = name ++ ']' :: (cut ++ v6.dropWhile inAuthority) := by
        rw [within, List.append_assoc, List.cons_append]

/-- The client reads the checked port behind a bracket exactly where the text is read alike. -/
theorem Checked.behindAlike_iff (checked : Checked ('[' :: v6) name digits port)
    {cut tail : List Char} (given : digits = [':'].isPrefixOf? cut)
    (stopped : ∀ c ∈ tail.head?, endsAuthority c ∧ isC0OrSpace c = false) :
    BehindAlike (cut ++ tail) ↔
      portBehind ((cleanTail (cut ++ tail)).takeWhile (!endsAuthority ·)) = some port := by
  by_cases colon : cut.head? = some ':'
  · obtain ⟨d, rfl⟩ := List.head?_eq_some_iff.mp colon
    obtain rfl : digits = some d := given
    have clean : ∀ c ∈ ':' :: d, isC0OrSpace c = false ∧ endsAuthority c = false :=
      List.forall_mem_cons.mpr ⟨by decide, fun c listed => plain_digit (checked.isDigit d rfl c listed)⟩
    rw [takeWhile_cleanTail_append clean, takeWhile_cleanTail_stopped stopped, List.append_nil,
      portBehind, if_pos rfl, checked.readPort]
    exact iff_of_true (.inl rfl) rfl
  · have unported : digits = none := by
      refine given.trans (Option.eq_none_iff_forall_ne_some.mpr fun d found => colon ?_)
      rw [← List.isPrefixOf?_eq_some_iff_append_eq.mp found]
      rfl
    subst unported
    obtain rfl : 443 = port := Option.some.inj checked.number
    refine or_iff_right fun first => ?_
    cases cut with
    | nil => exact absurd (stopped ':' first).1 (by decide)
    | cons c cut => exact colon first

private theorem plain_of_parseIpv6 {ip : Ipv6} (groups : parseIpv6 name = some ip) :
    ∀ c ∈ name, isC0OrSpace c = false ∧ endsAuthority c = false := by
  intro c listed
  have char := chars_of_parseIpv6 groups c listed
  constructor
  · refine eq_false_of_ne_true fun blank => ?_
    have table : ∀ code < 33, isIpChar (Char.ofNat code).toLower = false := by decide
    have other := table c.toNat (Nat.lt_succ_of_le (of_decide_eq_true blank))
    rw [Char.ofNat_toNat, char] at other
    cases other
  · refine eq_false_of_ne_true fun ends => ?_
    simp only [endsAuthority, isSlash, Bool.or_eq_true, decide_eq_true_eq] at ends
    rcases ends with ((rfl | rfl) | rfl) | rfl <;> contradiction

private theorem same_iff_groups {ip : Ipv6} :
    SameHost (.address (.v6 ip)) (name.map Char.toLower) ↔ parseIpv6 name = some ip := by
  rw [SameHost, parseIpAddr_eq_v6, parseIpv6_map_toLower]

/-- In brackets the client reads an address where the check read one. -/
theorem Checked.read_bracket_iff (checked : Checked ('[' :: v6) name digits port) :
    (∃ read, parseHttps tables (httpsPrefix ++ '[' :: v6) = some (read, port) ∧
      SameHost read (name.map Char.toLower)) ↔ ReadAlike tables ('[' :: v6) := by
  obtain ⟨cut, whole, closed, given⟩ := checked.split_bracket
  have tail := checked.behindAlike_iff given (stopped_tail v6)
  have server : ∀ ip, parseIpv6 name = some ip →
      parseHttps tables (httpsPrefix ++ '[' :: v6) =
        (portBehind ((cleanTail (cut ++ v6.dropWhile inAuthority)).takeWhile
          (!endsAuthority ·))).map fun port => (.address (.v6 ip), port) := by
    intro ip groups
    have clean : ∀ c ∈ name ++ [']'], isC0OrSpace c = false ∧ endsAuthority c = false := by
      intro c listed
      rcases List.mem_append.mp listed with inside | last
      · exact plain_of_parseIpv6 groups c inside
      · obtain rfl := List.mem_singleton.mp last
        decide
    rw [checked.parseHttps_bracket]
    nth_rewrite 1 [whole]
    rw [List.append_cons, takeWhile_cleanTail_append clean, List.append_assoc,
      List.singleton_append, readServer_enclosed groups]
  constructor
  · rintro ⟨read, parsed, same⟩
    have first := parsed
    rw [checked.parseHttps_bracket] at first
    obtain ⟨ip, rfl⟩ := address_of_readServer first
    have groups := same_iff_groups.mp same
    rw [server ip groups] at parsed
    obtain ⟨_, read, eq⟩ := Option.map_eq_some_iff.mp parsed
    cases eq
    refine ⟨name, _, ?_, groups ▸ rfl, tail.mpr read⟩
    nth_rewrite 1 [whole]
    exact splitOnce_append closed _
  · rintro ⟨inner, behind, split, read, alike⟩
    rw [whole, splitOnce_append closed] at split
    cases split
    obtain ⟨ip, groups⟩ := Option.isSome_iff_exists.mp read
    refine ⟨.address (.v6 ip), ?_, same_iff_groups.mpr groups⟩
    rw [server ip groups, tail.mp (whole ▸ alike)]
    rfl

end Brackets

/-- An accepted URL is read by the client as the check read it exactly where its host is a plain
name that the client leaves as it is, or an address with its port behind it. -/
theorem host_contacted_iff (documented : tables.Documented) {raw host : String}
    (accepted : checkWebhookUrl raw = .ok (host, port)) :
    HostContacted tables raw host port ↔
      ReadAlike tables (raw.toList.drop httpsPrefix.length) := by
  obtain ⟨rest, name, digits, whole, lower, parts⟩ := checked accepted
  have same : HostContacted tables raw host port ↔
      ∃ read, parseHttps tables (httpsPrefix ++ rest) = some (read, port) ∧
        SameHost read (name.map Char.toLower) := by
    rw [HostContacted, whole, lower]
    refine exists_congr fun read => and_congr_right fun _ => and_iff_left_of_imp ?_
    rintro alike ip rfl
    exact parts.isPublic ip alike
  rw [same, whole, List.drop_left]
  by_cases bracket : rest.head? = some '['
  · obtain ⟨v6, rfl⟩ := List.head?_eq_some_iff.mp bracket
    exact parts.read_bracket_iff
  · obtain ⟨cut, noColon⟩ := parts.takeWhile_name bracket
    rw [readAlike_name bracket, cut]
    constructor
    · rintro ⟨read, parsed, alike⟩
      have server := parsed
      rw [parseHttps_scheme] at server
      have plain := plain_of_same documented noColon (exists_parseHost server) alike
      rw [parts.parseHttps_name bracket fun c listed => (plain c listed).2] at parsed
      obtain ⟨_, first, eq⟩ := Option.map_eq_some_iff.mp parsed
      cases eq
      exact .of_read documented parts.named noColon first alike
    · intro alike
      obtain ⟨read, parsed, same⟩ := alike.read documented parts.named
      refine ⟨read, ?_, same⟩
      rw [parts.parseHttps_name bracket fun c listed => (alike.plain c listed).2, parsed]
      rfl

/-- Tables for names in ASCII without punycode. -/
def asciiTables : HostTables where
  percentDecode text := text
  domainToAscii text :=
    if text ≠ [] ∧ text.all isAsciiChar then some (text.map Char.toLower) else none

private theorem asciiTables_documented : asciiTables.Documented where
  percentDecode_plain _ _ := rfl
  ascii text name read c listed := by
    unfold asciiTables at read
    dsimp only at read
    split at read
    · next shape =>
      cases read
      obtain ⟨d, inText, rfl⟩ := List.mem_map.mp listed
      exact ⟨isAsciiChar_toLower d ▸ List.all_eq_true.mp shape.2 d inText, toLower_toLower d⟩
    · cases read
  plain text nonempty ascii _ := if_pos ⟨nonempty, List.all_eq_true.mpr ascii⟩

/-- A Discord webhook is read alike. -/
theorem discord_webhook_contacted :
    checkWebhookUrl "https://Discord.com:443/api/webhooks/1/abc" = .ok ("discord.com", 443) ∧
      HostContacted asciiTables "https://Discord.com:443/api/webhooks/1/abc" "discord.com" 443 := by
  have accepted :
      checkWebhookUrl "https://Discord.com:443/api/webhooks/1/abc" = .ok ("discord.com", 443) := by
    rfl
  refine ⟨accepted, (host_contacted_iff asciiTables_documented accepted).mpr ?_⟩
  refine (readAlike_name (by decide)).mpr ⟨fun c listed => ?_, fun _ => rfl, by decide⟩
  have plain : "Discord.com".toList.all (fun c => isAsciiChar c && !isForbidden c) := by decide
  simpa using List.all_eq_true.mp plain c listed

/-- A backslash ends the host for the client alone, which then contacts the machine itself. -/
theorem backslash_refutes :
    ∃ raw host port ip, checkWebhookUrl raw = .ok (host, port) ∧
      parseHttps asciiTables raw.toList = some (.address ip, port) ∧ isPublic ip = false ∧
      ¬HostContacted asciiTables raw host port := by
  have loopback : parseHttps asciiTables "https://127.0.0.1\\hook.example/".toList =
      some (.address (.v4 ⟨lowOctet 127, lowOctet 0, lowOctet 0, lowOctet 1⟩), 443) := by
    rfl
  refine ⟨"https://127.0.0.1\\hook.example/", "127.0.0.1\\hook.example", 443, _, by rfl, loopback,
    by rfl, ?_⟩
  rintro ⟨read, parsed, -, reachable⟩
  rw [loopback] at parsed
  cases parsed
  exact absurd (reachable _ rfl) (by decide)

end Reading

section Delivery

/-- `deliver` up to the first request: the address that the host is pinned to. -/
def pinnedAddress (lookupHost : String → Nat → Option (List IpAddr)) (url : String) :
    Except String (String × IpAddr) := do
  let (host, port) ← checkWebhookUrl url
  match lookupHost host port with
  | none | some [] => throw (host ++ " does not resolve")
  | some (first :: others) =>
    if (first :: others).all isPublic then return (host, first)
    else throw "the webhook host resolves to a private address"

/-- Where the client connects: the pinned address stands for the pinned host alone. -/
def connectsTo (resolve : List Char → Option IpAddr) (host : String) (pinned : IpAddr) :
    UrlHost → Option IpAddr
  | .address ip => some ip
  | .domain name => if name = host.toList then some pinned else resolve name

/-- A pinned address is public and belongs to the host of an accepted URL. -/
theorem pinned {lookupHost : String → Nat → Option (List IpAddr)} {url host : String} {ip : IpAddr}
    (resolved : pinnedAddress lookupHost url = .ok (host, ip)) :
    (∃ port, checkWebhookUrl url = .ok (host, port)) ∧ isPublic ip := by
  unfold pinnedAddress at resolved
  cases accepted : checkWebhookUrl url with
  | error refusal =>
    rw [accepted] at resolved
    cases resolved
  | ok parts =>
    rw [accepted] at resolved
    simp only [bind, Except.bind] at resolved
    split at resolved
    · cases resolved
    · cases resolved
    · next first others listed =>
      split at resolved
      · next reachable =>
        cases resolved
        exact ⟨⟨parts.2, rfl⟩, List.all_eq_true.mp reachable _ List.mem_cons_self⟩
      · cases resolved

/-- A delivery to a URL that is read alike connects to a public address, whatever else resolves. -/
theorem public_of_readAlike {tables : HostTables} (documented : tables.Documented)
    {lookupHost : String → Nat → Option (List IpAddr)} {url host : String} {ip : IpAddr}
    (resolved : pinnedAddress lookupHost url = .ok (host, ip))
    (alike : ReadAlike tables (url.toList.drop httpsPrefix.length))
    (resolve : List Char → Option IpAddr) :
    ∃ read port, parseHttps tables url.toList = some (read, port) ∧
      ∃ contacted, connectsTo resolve host ip read = some contacted ∧ isPublic contacted := by
  obtain ⟨⟨port, accepted⟩, reachable⟩ := pinned resolved
  obtain ⟨read, parsed, same, addressed⟩ := (host_contacted_iff documented accepted).mpr alike
  refine ⟨read, port, parsed, ?_⟩
  cases read with
  | address literal => exact ⟨literal, rfl, addressed literal rfl⟩
  | domain name =>
    obtain ⟨rest, plain, digits, whole, lower, -⟩ := checked accepted
    rw [lower] at same
    rw [whole, parseHttps_scheme] at parsed
    have pinnedName := eq_of_same_domain documented (exists_parseHost parsed) same
    exact ⟨ip, if_pos (pinnedName.trans lower.symm), reachable⟩

end Delivery

end Foghorn.Core
