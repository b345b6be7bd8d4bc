import Mathlib.Data.Option.Basic
import Mathlib.Tactic.SplitIfs

/-! Texts in which a separator only occurs in quotes.

A reader of such a text is outside or inside of a literal, or behind a backslash
in one. Reading the rest of a text from a separator in it turns inside and
outside around, so that the rest is no such text itself. A name before a
separator and a text after it can therefore be told apart, whatever the name.
-/

set_option autoImplicit false

namespace McpTracer.Foundation

/-- Where a reader is. -/
inductive Quoting where
  | outside
  | inside
  | escaped
  deriving DecidableEq

namespace Quoting

/-- Neither a backslash nor the separator is allowed outside of a literal. -/
def step (separator : Char) : Quoting → Char → Option Quoting
  | .outside, c => if c = '"' then some .inside else if c = '\\' ∨ c = separator then none else some .outside
  | .inside, c => if c = '"' then some .outside else if c = '\\' then some .escaped else some .inside
  | .escaped, _ => some .inside

def scan (separator : Char) : Quoting → List Char → Option Quoting
  | state, [] => some state
  | state, c :: rest => (step separator state c).bind fun next => scan separator next rest

theorem scan_append (separator : Char) (state : Quoting) (xs ys : List Char) :
    scan separator state (xs ++ ys) = (scan separator state xs).bind fun next => scan separator next ys := by
  induction xs generalizing state with
  | nil => rfl
  | cons c rest ih =>
      rw [List.cons_append, scan, scan, Option.bind_assoc]
      congr 1
      funext next
      exact ih next

end Quoting

/-- The literals of the text are closed, and a separator occurs only in them. -/
def Quoted (separator : Char) (text : List Char) : Prop := Quoting.scan separator .outside text = some .outside

namespace Quoted
variable {separator : Char}

theorem append {xs ys : List Char} (left : Quoted separator xs) (right : Quoted separator ys) :
    Quoted separator (xs ++ ys) := by
  rw [Quoted, Quoting.scan_append, left]
  exact right

end Quoted

end McpTracer.Foundation
