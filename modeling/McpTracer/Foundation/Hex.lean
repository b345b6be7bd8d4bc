import Mathlib.Data.List.Basic

/-! Bytes written as two lowercase hexadecimal digits each. -/

set_option autoImplicit false

namespace McpTracer.Foundation.Hex

def isDigit (c : Char) : Bool := c.isDigit || ('a' ≤ c && c ≤ 'f')

def byteDigits (byte : UInt8) : List Char := [Nat.digitChar (byte.toNat / 16), Nat.digitChar (byte.toNat % 16)]

def text (bytes : List UInt8) : String := String.ofList (bytes.flatMap byteDigits)

theorem digitChar_injective : ∀ first second : Fin 16, Nat.digitChar first = Nat.digitChar second → first = second := by
  decide

theorem isDigit_digitChar : ∀ value : Fin 16, isDigit (Nat.digitChar value) = true := by decide

theorem byteDigits_injective {first second : UInt8} (same : byteDigits first = byteDigits second) : first = second := by
  obtain ⟨high, rest⟩ := List.cons.inj same
  have low := (List.cons.inj rest).1
  have bound (byte : UInt8) : byte.toNat / 16 < 16 := by
    have := byte.toNat_lt
    omega
  have below (byte : UInt8) : byte.toNat % 16 < 16 := Nat.mod_lt _ (by decide)
  have highs := Fin.val_eq_of_eq (digitChar_injective ⟨_, bound first⟩ ⟨_, bound second⟩ high)
  have lows := Fin.val_eq_of_eq (digitChar_injective ⟨_, below first⟩ ⟨_, below second⟩ low)
  dsimp only at highs lows
  apply UInt8.toNat_inj.1
  omega

theorem text_injective {first second : List UInt8} (same : text first = text second) : first = second := by
  have chars := String.ofList_injective same
  clear same
  induction first generalizing second with
  | nil =>
    cases second with
    | nil => rfl
    | cons byte rest => simp [byteDigits] at chars
  | cons byte rest ih =>
    cases second with
    | nil => simp [byteDigits] at chars
    | cons other others =>
      rw [List.flatMap_cons, List.flatMap_cons] at chars
      obtain ⟨front, later⟩ := List.append_inj chars rfl
      rw [byteDigits_injective front, ih later]

theorem length_text (bytes : List UInt8) : (text bytes).toList.length = 2 * bytes.length := by
  rw [text, String.toList_ofList]
  induction bytes with
  | nil => rfl
  | cons byte rest ih =>
    rw [List.flatMap_cons, List.length_append, ih, List.length_cons, byteDigits]
    simp only [List.length_cons, List.length_nil]
    omega

theorem isDigit_of_mem_text {bytes : List UInt8} {c : Char} (member : c ∈ (text bytes).toList) : isDigit c = true := by
  rw [text, String.toList_ofList, List.mem_flatMap] at member
  obtain ⟨byte, -, inside⟩ := member
  have bound : byte.toNat / 16 < 16 := by
    have := byte.toNat_lt
    omega
  rcases List.mem_pair.1 inside with rfl | rfl
  · exact isDigit_digitChar ⟨_, bound⟩
  · exact isDigit_digitChar ⟨_, Nat.mod_lt _ (by decide)⟩

end McpTracer.Foundation.Hex
