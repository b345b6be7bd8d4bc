import Mathlib.Data.List.Basic

/-! The base64 encoding with its standard alphabet and padding.

Three bytes are four digits of six bits each. What remains at the end is padded, and the reader refuses
any other padding.
-/

set_option autoImplicit false

namespace McpTracer.Foundation.Base64

def digit (n : Nat) : Char :=
  if n < 26 then Char.ofNat (65 + n)
  else if n < 52 then Char.ofNat (71 + n)
  else if n < 62 then Char.ofNat (n - 4)
  else if n = 62 then '+' else '/'

def digitValue (c : Char) : Option Nat :=
  if 'A' ≤ c ∧ c ≤ 'Z' then some (c.toNat - 65)
  else if 'a' ≤ c ∧ c ≤ 'z' then some (c.toNat - 71)
  else if '0' ≤ c ∧ c ≤ '9' then some (c.toNat + 4)
  else if c = '+' then some 62
  else if c = '/' then some 63
  else none

def encode : List UInt8 → List Char
  | a :: b :: c :: rest =>
    digit (a.toNat / 4) :: digit (a.toNat % 4 * 16 + b.toNat / 16) :: digit (b.toNat % 16 * 4 + c.toNat / 64) ::
      digit (c.toNat % 64) :: encode rest
  | [a, b] => [digit (a.toNat / 4), digit (a.toNat % 4 * 16 + b.toNat / 16), digit (b.toNat % 16 * 4), '=']
  | [a] => [digit (a.toNat / 4), digit (a.toNat % 4 * 16), '=', '=']
  | [] => []

/-- The last group, which may be padded. -/
def decodeLast (w x : Nat) : List Char → Option (List UInt8)
  | ['=', '='] => if x % 16 = 0 then some [.ofNat (w * 4 + x / 16)] else none
  | [y, '='] => (digitValue y).bind fun y =>
    if y % 4 = 0 then some [.ofNat (w * 4 + x / 16), .ofNat (x % 16 * 16 + y / 4)] else none
  | _ => none

def decode : List Char → Option (List UInt8)
  | [] => some []
  | w :: x :: y :: z :: rest => do
    let w ← digitValue w
    let x ← digitValue x
    match digitValue y, digitValue z with
    | some y, some z =>
      let others ← decode rest
      return .ofNat (w * 4 + x / 16) :: .ofNat (x % 16 * 16 + y / 4) :: .ofNat (y % 4 * 64 + z) :: others
    | _, _ => decodeLast w x (y :: z :: rest)
  | _ => none

/-! ## Reading undoes writing -/

theorem digitValue_digit {n : Nat} (small : n < 64) : digitValue (digit n) = some n := by
  have all : ∀ n < 64, digitValue (digit n) = some n := by decide
  exact all n small

theorem digitValue_padding : digitValue '=' = none := by decide

/-- What stands in a digit. -/
theorem digit_printable {n : Nat} (small : n < 64) : 43 ≤ (digit n).toNat ∧ (digit n).toNat ≤ 122 := by
  have all : ∀ n < 64, 43 ≤ (digit n).toNat ∧ (digit n).toNat ≤ 122 := by decide
  exact all n small

theorem ofNat_of_eq {byte : UInt8} {n : Nat} (same : n = byte.toNat) : UInt8.ofNat n = byte := by
  rw [same, UInt8.ofNat_toNat]

theorem decode_encode (bytes : List UInt8) : decode (encode bytes) = some bytes := by
  induction bytes using encode.induct with
  | case1 a b c rest ih =>
    have boundA := a.toNat_lt
    have boundB := b.toNat_lt
    have boundC := c.toNat_lt
    have first : UInt8.ofNat (a.toNat / 4 * 4 + (a.toNat % 4 * 16 + b.toNat / 16) / 16) = a := ofNat_of_eq (by omega)
    have second : UInt8.ofNat ((a.toNat % 4 * 16 + b.toNat / 16) % 16 * 16 + (b.toNat % 16 * 4 + c.toNat / 64) / 4) = b :=
      ofNat_of_eq (by omega)
    have third : UInt8.ofNat ((b.toNat % 16 * 4 + c.toNat / 64) % 4 * 64 + c.toNat % 64) = c := ofNat_of_eq (by omega)
    rw [encode, decode, digitValue_digit (by omega), digitValue_digit (by omega), digitValue_digit (by omega),
      digitValue_digit (by omega), ih]
    simp only [Option.bind_eq_bind, Option.bind_some, Option.pure_def]
    rw [first, second, third]
  | case2 a b =>
    have boundA := a.toNat_lt
    have boundB := b.toNat_lt
    have first : UInt8.ofNat (a.toNat / 4 * 4 + (a.toNat % 4 * 16 + b.toNat / 16) / 16) = a := ofNat_of_eq (by omega)
    have second : UInt8.ofNat ((a.toNat % 4 * 16 + b.toNat / 16) % 16 * 16 + b.toNat % 16 * 4 / 4) = b :=
      ofNat_of_eq (by omega)
    have padded : b.toNat % 16 * 4 % 4 = 0 := by omega
    rw [encode, decode, digitValue_digit (by omega), digitValue_digit (by omega), digitValue_digit (by omega),
      digitValue_padding]
    simp only [Option.bind_eq_bind, Option.bind_some]
    rw [decodeLast, digitValue_digit (by omega), Option.bind_some, if_pos padded, first, second]
    intro same
    have read := digitValue_digit (show b.toNat % 16 * 4 < 64 by omega)
    rw [same, digitValue_padding] at read
    cases read
  | case3 a =>
    have boundA := a.toNat_lt
    have first : UInt8.ofNat (a.toNat / 4 * 4 + a.toNat % 4 * 16 / 16) = a := ofNat_of_eq (by omega)
    have padded : a.toNat % 4 * 16 % 16 = 0 := by omega
    rw [encode, decode, digitValue_digit (by omega), digitValue_digit (by omega), digitValue_padding]
    simp only [Option.bind_eq_bind, Option.bind_some]
    rw [decodeLast, if_pos padded, first]
  | case4 => rfl

/-- The digits and the padding are printable, and neither is a blank. -/
theorem encode_printable (bytes : List UInt8) : ∀ c ∈ encode bytes, 43 ≤ c.toNat ∧ c.toNat ≤ 122 := by
  have padding : 43 ≤ '='.toNat ∧ '='.toNat ≤ 122 := by decide
  induction bytes using encode.induct with
  | case1 a b c rest ih =>
    have boundA := a.toNat_lt
    have boundB := b.toNat_lt
    have boundC := c.toNat_lt
    rw [encode]
    simp only [List.forall_mem_cons]
    exact ⟨digit_printable (by omega), digit_printable (by omega), digit_printable (by omega),
      digit_printable (by omega), ih⟩
  | case2 a b =>
    have boundA := a.toNat_lt
    have boundB := b.toNat_lt
    rw [encode]
    simp only [List.forall_mem_cons, List.not_mem_nil, false_imp_iff, implies_true, and_true]
    exact ⟨digit_printable (by omega), digit_printable (by omega), digit_printable (by omega), padding⟩
  | case3 a =>
    have boundA := a.toNat_lt
    rw [encode]
    simp only [List.forall_mem_cons, List.not_mem_nil, false_imp_iff, implies_true, and_true]
    exact ⟨digit_printable (by omega), digit_printable (by omega), padding, padding⟩
  | case4 => simp [encode]

end McpTracer.Foundation.Base64
