import Mathlib.Data.List.Basic
import Mathlib.Data.List.DropRight

/-! Blanks, and the words of a text, which are what is left of it between blanks. -/

set_option autoImplicit false

namespace McpTracer.Foundation

/-! ## Blanks -/

def isWhitespace (c : Char) : Bool :=
  let n := c.toNat
  (9 ≤ n && n ≤ 13) || n = 0x20 || n = 0x85 || n = 0xa0 || n = 0x1680 || (0x2000 ≤ n && n ≤ 0x200a) ||
    n = 0x2028 || n = 0x2029 || n = 0x202f || n = 0x205f || n = 0x3000

def isAsciiWhitespace (c : Char) : Bool := c = ' ' || c = '\t' || c = '\n' || c = '\x0c' || c = '\r'

theorem isWhitespace_of_ascii {c : Char} (ascii : isAsciiWhitespace c = true) : isWhitespace c = true := by
  simp only [isAsciiWhitespace, Bool.or_eq_true, decide_eq_true_eq] at ascii
  rcases ascii with (((rfl | rfl) | rfl) | rfl) | rfl <;> rfl

/-! ## Words -/

variable {A : Type} (blank : A → Bool)

def words (text : List A) : List (List A) := (text.splitOnP blank).filter fun word => !word.isEmpty

/-- What comes behind the last blank. -/
def lastWord (text : List A) : List A := text.rtakeWhile fun a => !blank a

theorem words_nil : words blank [] = [] := by
  rw [words, List.splitOnP_nil]
  rfl

variable {blank}

/-- A blank parts the words. -/
theorem words_append_cons {b : A} (parts : blank b = true) (front back : List A) :
    words blank (front ++ b :: back) = words blank front ++ words blank back := by
  rw [words, List.splitOnP_append_cons front back parts, List.filter_append]
  rfl

theorem words_singleton {word : List A} (filled : word ≠ []) (plain : ∀ a ∈ word, blank a = false) :
    words blank word = [word] := by
  rw [words, List.splitOnP_eq_singleton plain, List.filter_singleton, List.isEmpty_eq_false_iff.2 filled]
  rfl

/-- The words of texts that are joined by a blank. -/
theorem words_intercalate {b : A} (parts : blank b = true) (texts : List (List A)) :
    words blank ([b].intercalate texts) = texts.flatMap (words blank) := by
  induction texts with
  | nil => exact words_nil blank
  | cons text rest ih =>
    cases rest with
    | nil => simp
    | cons next rest =>
      rw [List.intercalate_cons_cons, List.append_assoc, List.singleton_append, words_append_cons parts, ih]
      rfl

theorem mem_of_mem_words {text word : List A} (member : word ∈ words blank text) {a : A} (inside : a ∈ word) :
    a ∈ text := by
  have piece := (List.mem_filter.1 member).1
  clear member
  induction text generalizing word with
  | nil =>
    rw [List.splitOnP_nil, List.mem_singleton] at piece
    rwa [piece] at inside
  | cons first rest ih =>
    rw [List.splitOnP_cons_eq_if_modifyHead] at piece
    split_ifs at piece with parts
    · rcases List.mem_cons.1 piece with rfl | later
      · cases inside
      · exact List.mem_cons_of_mem _ (ih inside later)
    · obtain ⟨head, tail, pieces⟩ := List.exists_cons_of_ne_nil (List.splitOnP_ne_nil blank rest)
      rw [pieces, List.modifyHead_cons] at piece
      rcases List.mem_cons.1 piece with rfl | later
      · rcases List.mem_cons.1 inside with rfl | inside
        · exact List.mem_cons_self
        · exact List.mem_cons_of_mem _ (ih inside (pieces ▸ List.mem_cons_self))
      · exact List.mem_cons_of_mem _ (ih inside (pieces ▸ List.mem_cons_of_mem _ later))

/-- What is added to a text is added to its last word. -/
theorem words_append {text more : List A} (filled : more ≠ []) (plain : ∀ a ∈ more, blank a = false) :
    ∃ others, (∀ word ∈ others, ∀ a ∈ word, a ∈ text) ∧
      words blank (text ++ more) = others ++ [lastWord blank text ++ more] := by
  have last : words blank (lastWord blank text ++ more) = [lastWord blank text ++ more] := by
    refine words_singleton (List.append_ne_nil_of_right_ne_nil _ filled) fun a member => ?_
    rcases List.mem_append.1 member with member | member
    · have kept := List.mem_rtakeWhile_imp member
      simpa using kept
    · exact plain a member
  have parted : text.rdropWhile (fun a => !blank a) ++ lastWord blank text = text := List.rdropWhile_append_rtakeWhile
  rcases List.eq_nil_or_concat (text.rdropWhile fun a => !blank a) with empty | ⟨front, b, ends⟩
  · refine ⟨[], fun word member => absurd member List.not_mem_nil, ?_⟩
    rw [empty, List.nil_append] at parted
    rw [parted] at last
    rw [parted]
    exact last
  · have filledFront : text.rdropWhile (fun a => !blank a) ≠ [] := by
      rw [ends]
      rw [List.concat_eq_append]
      exact List.concat_ne_nil b front
    have parts : blank b = true := by
      have final := List.rdropWhile_last_not _ _ filledFront
      simpa [ends] using final
    refine ⟨words blank front, fun word member a inside => ?_, ?_⟩
    · have early : a ∈ text.rdropWhile fun a => !blank a := by
        rw [ends, List.concat_eq_append]
        exact List.mem_append_left _ (mem_of_mem_words member inside)
      exact (List.rdropWhile_prefix _ text).subset early
    · have whole : text ++ more = front ++ b :: (lastWord blank text ++ more) := by
        rw [ends, List.concat_eq_append, List.append_assoc, List.singleton_append] at parted
        rw [← List.cons_append, ← List.append_assoc, parted]
      rw [whole, words_append_cons parts, last]

end McpTracer.Foundation
