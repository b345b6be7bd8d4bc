import Mathlib.Data.List.Basic

/-! IP addresses as they are read from text.

Dotted decimals, and groups of hexadecimal digits with one `::` and an IPv4 address at the end. What is read
as an IPv4 address has digits and dots only, and what is read as an IPv6 address has a colon.
-/

set_option autoImplicit false

namespace McpTracer.Foundation

structure Ipv4 where
  octets : Vector (Fin 256) 4
  deriving DecidableEq

structure Ipv6 where
  segments : Vector (Fin 65536) 8
  deriving DecidableEq

inductive IpAddr where
  | v4 (address : Ipv4)
  | v6 (address : Ipv6)
  deriving DecidableEq

namespace IpAddr

def isIpv4 : IpAddr → Bool
  | .v4 _ => true
  | .v6 _ => false

def isUnspecified : IpAddr → Bool
  | .v4 address => address.octets = #v[0, 0, 0, 0]
  | .v6 address => address.segments = #v[0, 0, 0, 0, 0, 0, 0, 0]

def isLoopback : IpAddr → Bool
  | .v4 address => address.octets[0] = 127
  | .v6 address => address.segments = #v[0, 0, 0, 0, 0, 0, 0, 1]

def localhost : IpAddr := .v4 ⟨#v[127, 0, 0, 1]⟩

/-! ## Reading -/

/-- What is read at the front of a text, and the text behind it. -/
abbrev Reader (A : Type) : Type := List Char → Option (A × List Char)

def digitValue (radix : Nat) (c : Char) : Option Nat :=
  let value :=
    if '0' ≤ c ∧ c ≤ '9' then some (c.toNat - '0'.toNat)
    else if 'a' ≤ c ∧ c ≤ 'f' then some (c.toNat - 'a'.toNat + 10)
    else if 'A' ≤ c ∧ c ≤ 'F' then some (c.toNat - 'A'.toNat + 10)
    else none
  value.filter (· < radix)

def readDigits (radix : Nat) : List Char → List Nat × List Char
  | [] => ([], [])
  | c :: rest =>
    match digitValue radix c with
    | none => ([], c :: rest)
    | some digit =>
      let (digits, after) := readDigits radix rest
      (digit :: digits, after)

def readNumber (radix limit maxDigits : Nat) (allowZeroPrefix : Bool) : Reader (Fin limit) := fun text =>
  let (digits, rest) := readDigits radix text
  if digits.length = 0 ∨ maxDigits < digits.length then none
  else if !allowZeroPrefix && text.head? = some '0' && 1 < digits.length then none
  else
    let value := digits.foldl (fun sum digit => sum * radix + digit) 0
    if fits : value < limit then some (⟨value, fits⟩, rest) else none

/-- A separator stands in front of all but the first of several. -/
def readSeparator {A : Type} (separator : Char) (index : Nat) (inner : Reader A) : Reader A := fun text =>
  if index = 0 then inner text
  else match text with
    | c :: rest => if c = separator then inner rest else none
    | [] => none

def readOctet (index : Nat) : Reader (Fin 256) := readSeparator '.' index (readNumber 10 256 3 false)

def readIpv4 : Reader Ipv4 := fun text => do
  let (first, rest) ← readOctet 0 text
  let (second, rest) ← readOctet 1 rest
  let (third, rest) ← readOctet 2 rest
  let (fourth, rest) ← readOctet 3 rest
  return (⟨#v[first, second, third, fourth]⟩, rest)

def pair (high low : Fin 256) : Fin 65536 := ⟨high.val * 256 + low.val, by omega⟩

structure Groups where
  groups : List (Fin 65536)
  embedded : Bool
  rest : List Char

/-- Groups with colons between them, at most `limit`, the last two of which may be an IPv4 address. -/
def readGroups (limit : Nat) : Nat → List Char → Groups
  | 0, text => ⟨[], false, text⟩
  | remaining + 1, text =>
    let index := limit - (remaining + 1)
    let ipv4 := if index < limit - 1 then readSeparator ':' index readIpv4 text else none
    match ipv4 with
    | some (address, rest) =>
      let octets := address.octets
      ⟨[pair octets[0] octets[1], pair octets[2] octets[3]], true, rest⟩
    | none =>
      match readSeparator ':' index (readNumber 16 65536 4 true) text with
      | some (group, rest) =>
        let others := readGroups limit remaining rest
        ⟨group :: others.groups, others.embedded, others.rest⟩
      | none => ⟨[], false, text⟩

def ofGroups (groups : List (Fin 65536)) : Ipv6 := ⟨Vector.ofFn fun i => groups.getD i.val 0⟩

def readIpv6 : Reader Ipv6 := fun text =>
  let head := readGroups 8 8 text
  if head.groups.length = 8 then some (ofGroups head.groups, head.rest)
  else if head.embedded then none
  else match head.rest with
    | ':' :: ':' :: rest =>
      let limit := 8 - (head.groups.length + 1)
      let tail := readGroups limit limit rest
      let zeros := List.replicate (8 - tail.groups.length - head.groups.length) 0
      some (ofGroups (head.groups ++ zeros ++ tail.groups), tail.rest)
    | _ => none

def readIpAddr : Reader IpAddr := fun text =>
  match readIpv4 text with
  | some (address, rest) => some (.v4 address, rest)
  | none => (readIpv6 text).map fun (address, rest) => (.v6 address, rest)

/-- The whole text is an address. -/
def parse (text : List Char) : Option IpAddr :=
  match readIpAddr text with
  | some (address, []) => some address
  | _ => none

example : parse "127.0.0.1".toList = some (.v4 ⟨#v[127, 0, 0, 1]⟩) ∧ parse "127.0.0.01".toList = none ∧
    parse "::ffff:1.2.3.4".toList = some (.v6 ⟨#v[0, 0, 0, 0, 0, 0xffff, 0x102, 0x304]⟩) := by decide +kernel

/-! ## What is read -/

/-- The text is read up to the rest, and what is read has such characters only. -/
def Consumes (kind : Char → Prop) (text rest : List Char) : Prop :=
  ∃ front, text = front ++ rest ∧ ∀ c ∈ front, kind c

section
variable {kind : Char → Prop} {text rest last : List Char}

theorem Consumes.refl : Consumes kind text text := ⟨[], rfl, nofun⟩

theorem Consumes.trans (first : Consumes kind text rest) (second : Consumes kind rest last) :
    Consumes kind text last := by
  obtain ⟨front, rfl, kinds⟩ := first
  obtain ⟨back, rfl, others⟩ := second
  exact ⟨front ++ back, (List.append_assoc ..).symm, List.forall_mem_append.2 ⟨kinds, others⟩⟩

theorem Consumes.cons {c : Char} (first : kind c) (others : Consumes kind text rest) : Consumes kind (c :: text) rest := by
  obtain ⟨front, rfl, kinds⟩ := others
  exact ⟨c :: front, rfl, List.forall_mem_cons.2 ⟨first, kinds⟩⟩

theorem Consumes.mono {other : Char → Prop} (implies : ∀ c, kind c → other c) (read : Consumes kind text rest) :
    Consumes other text rest := by
  obtain ⟨front, rfl, kinds⟩ := read
  exact ⟨front, rfl, fun c inside => implies c (kinds c inside)⟩

theorem Consumes.mem {c : Char} (read : Consumes kind text rest) (behind : c ∈ rest) : c ∈ text := by
  obtain ⟨front, rfl, -⟩ := read
  exact List.mem_append_right front behind

end

theorem readDigits_consumes (radix : Nat) (text : List Char) :
    Consumes (fun c => (digitValue radix c).isSome) text (readDigits radix text).2 := by
  induction text with
  | nil => exact .refl
  | cons c rest ih =>
      unfold readDigits
      cases value : digitValue radix c with
      | none => exact .refl
      | some digit => exact .cons (by rw [value]; rfl) ih

theorem readNumber_consumes {radix limit maxDigits : Nat} {allow : Bool} {text rest : List Char} {value : Fin limit}
    (read : readNumber radix limit maxDigits allow text = some (value, rest)) :
    Consumes (fun c => (digitValue radix c).isSome) text rest := by
  have digits := readDigits_consumes radix text
  unfold readNumber at read
  obtain ⟨-, read⟩ := Option.ite_none_left_eq_some.1 read
  obtain ⟨-, read⟩ := Option.ite_none_left_eq_some.1 read
  obtain ⟨fits, read⟩ := Option.dite_none_right_eq_some.1 read
  cases read
  exact digits

theorem readSeparator_consumes {A : Type} {separator : Char} {index : Nat} {inner : Reader A} {kind : Char → Prop}
    (separates : kind separator) (inside : ∀ {text rest a}, inner text = some (a, rest) → Consumes kind text rest)
    {text rest : List Char} {a : A} (read : readSeparator separator index inner text = some (a, rest)) :
    Consumes kind text rest := by
  unfold readSeparator at read
  split at read
  · exact inside read
  · split at read
    · obtain ⟨same, read⟩ := Option.ite_none_right_eq_some.1 read
      exact .cons (same ▸ separates) (inside read)
    · cases read

def IsDotted (c : Char) : Prop := ('0' ≤ c ∧ c ≤ '9') ∨ c = '.'

theorem isDotted_of_digit {c : Char} (digit : (digitValue 10 c).isSome) : IsDotted c := by
  obtain ⟨value, read⟩ := Option.isSome_iff_exists.1 digit
  obtain ⟨read, small⟩ := Option.filter_eq_some_iff.1 read
  split at read
  · rename_i decimal
    exact .inl decimal
  -- The values of letters are ten and more.
  · have large : 10 ≤ value := by
      split at read
      · cases read
        exact Nat.le_add_left ..
      · split at read
        · cases read
          exact Nat.le_add_left ..
        · cases read
    exact absurd (of_decide_eq_true small) (Nat.not_lt.2 large)

theorem readIpv4_consumes {text rest : List Char} {address : Ipv4} (read : readIpv4 text = some (address, rest)) :
    Consumes IsDotted text rest := by
  have octet : ∀ {index : Nat} {text rest : List Char} {value : Fin 256},
      readOctet index text = some (value, rest) → Consumes IsDotted text rest := fun read =>
    readSeparator_consumes (.inr rfl) (fun number => (readNumber_consumes number).mono fun _ => isDotted_of_digit) read
  obtain ⟨⟨first, rest₁⟩, one, read⟩ := Option.bind_eq_some_iff.1 read
  obtain ⟨⟨second, rest₂⟩, two, read⟩ := Option.bind_eq_some_iff.1 read
  obtain ⟨⟨third, rest₃⟩, three, read⟩ := Option.bind_eq_some_iff.1 read
  obtain ⟨⟨fourth, rest₄⟩, four, read⟩ := Option.bind_eq_some_iff.1 read
  cases read
  exact (octet one).trans ((octet two).trans ((octet three).trans (octet four)))

theorem readGroups_consumes (limit remaining : Nat) (text : List Char) :
    Consumes (fun _ => True) text (readGroups limit remaining text).rest := by
  induction remaining generalizing text with
  | zero => exact .refl
  | succ remaining ih =>
      simp only [readGroups]
      split
      · rename_i address rest read
        obtain ⟨-, read⟩ := Option.ite_none_right_eq_some.1 read
        exact readSeparator_consumes trivial
          (fun inside => (readIpv4_consumes inside).mono fun _ _ => trivial) read
      · split
        · rename_i group rest read
          have first : Consumes (fun _ => True) text rest :=
            readSeparator_consumes trivial (fun number => (readNumber_consumes number).mono fun _ _ => trivial) read
          exact first.trans (ih rest)
        · exact .refl

/-- A group that is not the first one has a colon in front of it. -/
theorem colon_of_readGroups {limit remaining : Nat} {text : List Char} (later : remaining < limit)
    (filled : (readGroups limit remaining text).groups ≠ []) : ':' ∈ text := by
  have separated : ∀ {A : Type} {index : Nat} {inner : Reader A} {read : A × List Char}, index ≠ 0 →
      readSeparator ':' index inner text = some read → ':' ∈ text := by
    intro A index inner read behind separated
    simp only [readSeparator, if_neg behind] at separated
    split at separated
    · obtain ⟨rfl, -⟩ := Option.ite_none_right_eq_some.1 separated
      exact List.mem_cons_self
    · cases separated
  cases remaining with
  | zero => exact absurd rfl filled
  | succ remaining =>
      have behind : limit - (remaining + 1) ≠ 0 := by omega
      simp only [readGroups] at filled
      split at filled
      · rename_i address rest read
        exact separated behind (Option.ite_none_right_eq_some.1 read).2
      · split at filled
        · rename_i group rest read
          exact separated behind read
        · exact absurd rfl filled

/-- More groups than an embedded IPv4 address gives are read one by one. -/
theorem colon_of_readGroups_length {limit remaining : Nat} {text : List Char} (within : remaining < limit)
    (more : 2 < (readGroups limit (remaining + 1) text).groups.length) : ':' ∈ text := by
  simp only [readGroups] at more
  split at more
  · exact absurd more (Nat.lt_irrefl 2)
  · split at more
    · rename_i group rest first
      have others : (readGroups limit remaining rest).groups ≠ [] := by
        intro empty
        rw [empty] at more
        exact absurd more (Nat.not_lt.2 (Nat.le_succ 1))
      have front : Consumes (fun _ => True) text rest :=
        readSeparator_consumes trivial (fun number => (readNumber_consumes number).mono fun _ _ => trivial) first
      exact front.mem (colon_of_readGroups within others)
    · exact absurd more (Nat.not_lt_zero 2)

theorem colon_of_readIpv6 {text rest : List Char} {address : Ipv6} (read : readIpv6 text = some (address, rest)) :
    ':' ∈ text := by
  unfold readIpv6 at read
  dsimp only at read
  split at read
  · rename_i eight
    exact colon_of_readGroups_length (Nat.lt_succ_self 7) (eight ▸ (by decide : 2 < 8))
  · obtain ⟨-, read⟩ := Option.ite_none_left_eq_some.1 read
    split at read
    · rename_i rest colons
      refine (readGroups_consumes 8 8 text).mem ?_
      rw [colons]
      exact List.mem_cons_self
    · cases read

/-- A text of an address has a colon, or digits and dots only. -/
theorem characters_of_parse {text : List Char} {address : IpAddr} (parsed : parse text = some address) :
    ':' ∈ text ∨ ∀ c ∈ text, IsDotted c := by
  unfold parse at parsed
  split at parsed
  · rename_i whole read
    unfold readIpAddr at read
    split at read
    · rename_i address rest ipv4
      cases read
      obtain ⟨front, rfl, dotted⟩ := readIpv4_consumes ipv4
      rw [List.append_nil]
      exact .inr dotted
    · obtain ⟨⟨address, rest⟩, ipv6, -⟩ := Option.map_eq_some_iff.1 read
      exact .inl (colon_of_readIpv6 ipv6)
  · cases parsed

end IpAddr

end McpTracer.Foundation
