import McpTracer.Foundation.Words
import McpTracer.Json.Value

/-! JSON with comments and commas before closing brackets, and how it is made strict.

One pass takes the comments out and another the commas. A document is here what its tokens are; between them may
be anything that is skipped. Both passes keep the tokens, up to the commas that strict JSON does not have.
-/

set_option autoImplicit false

namespace McpTracer.Proxy.Setup
open McpTracer.Foundation McpTracer.Json

/-! ## The two passes -/

inductive CommentState where
  | normal
  | inString
  | stringEscape
  | lineComment
  | blockComment
  /-- After a star in a block comment. -/
  | blockCommentMaybeEnd
  deriving DecidableEq

/-- The text without comments, unless a string does not end. -/
@[grind] def stripJsoncComments : CommentState → List Char → Option (List Char)
  | .inString, [] | .stringEscape, [] => none
  | _, [] => some []
  | .normal, '/' :: '/' :: rest => stripJsoncComments .lineComment rest
  | .normal, '/' :: '*' :: rest => stripJsoncComments .blockComment rest
  | .normal, c :: rest =>
    (stripJsoncComments (if c = '"' then .inString else .normal) rest).map (c :: ·)
  | .inString, c :: rest =>
    if c = '\n' then none
    else
      (stripJsoncComments (if c = '\\' then .stringEscape else if c = '"' then .normal else .inString) rest).map
        (c :: ·)
  | .stringEscape, c :: rest => (stripJsoncComments .inString rest).map (c :: ·)
  | .lineComment, c :: rest =>
    if c = '\n' then (stripJsoncComments .normal rest).map (c :: ·) else stripJsoncComments .lineComment rest
  | .blockComment, c :: rest => stripJsoncComments (if c = '*' then .blockCommentMaybeEnd else .blockComment) rest
  | .blockCommentMaybeEnd, c :: rest =>
    stripJsoncComments (if c = '/' then .normal else if c = '*' then .blockCommentMaybeEnd else .blockComment) rest

def isCloser (c : Char) : Bool := c = '}' || c = ']'

/-- Only blanks come before a closing brace or bracket. -/
def closesNext (rest : List Char) : Bool := (rest.dropWhile isWhitespace).head?.any isCloser

def stripTrailingCommas (inString escaped : Bool) : List Char → List Char
  | [] => []
  | c :: rest =>
    if inString then
      c :: (if escaped then stripTrailingCommas true false rest
        else if c = '\\' then stripTrailingCommas true true rest
        else stripTrailingCommas (c ≠ '"') escaped rest)
    else if c = '"' then c :: stripTrailingCommas true escaped rest
    else if c = ',' && closesNext rest then stripTrailingCommas false escaped rest
    else c :: stripTrailingCommas false escaped rest

def stripJsonc (text : String) : String :=
  match stripJsoncComments .normal text.toList with
  | some withoutComments => String.ofList (stripTrailingCommas false false withoutComments)
  | none => text

/-! ## Documents -/

/-- A number or a word, which has no character that means something elsewhere. -/
structure Scalar where
  chars : List Char
  filled : chars ≠ []
  plain : ∀ c ∈ chars, (c.isAlphanum || c = '+' || c = '-' || c = '.') = true

/-- A character in a string, as it is or behind a backslash. -/
inductive Piece where
  | plain (c : Char) (ordinary : c ≠ '"' ∧ c ≠ '\\' ∧ c ≠ '\n')
  | escaped (c : Char)

def Piece.chars : Piece → List Char
  | .plain c _ => [c]
  | .escaped c => ['\\', c]

inductive Token where
  | openBrace
  | closeBrace
  | openBracket
  | closeBracket
  | colon
  | comma
  | scalar (text : Scalar)
  | literal (body : List Piece)

def Token.chars : Token → List Char
  | .openBrace => ['{']
  | .closeBrace => ['}']
  | .openBracket => ['[']
  | .closeBracket => [']']
  | .colon => [':']
  | .comma => [',']
  | .scalar text => text.chars
  | .literal body => '"' :: (body.flatMap Piece.chars ++ ['"'])

/-- A document, with a mark on what may end in a comma. -/
inductive Doc where
  | scalar (text : Scalar)
  | literal (body : List Piece)
  | array (items : List Doc) (trailing : Bool)
  | object (fields : List (List Piece × Doc)) (trailing : Bool)

def closing (comma : Bool) (closer : Token) : List Token := if comma then [.comma, closer] else [closer]

mutual
/-- The tokens of a document, with the commas that strict JSON does not have or without them. -/
def Doc.tokens (loose : Bool) : Doc → List Token
  | .scalar text => [.scalar text]
  | .literal body => [.literal body]
  | .array items trailing => .openBracket :: itemTokens loose trailing items
  | .object fields trailing => .openBrace :: fieldTokens loose trailing fields
def itemTokens (loose trailing : Bool) : List Doc → List Token
  | [] => [.closeBracket]
  | item :: rest => item.tokens loose ++ laterItems loose trailing rest
def laterItems (loose trailing : Bool) : List Doc → List Token
  | [] => closing (loose && trailing) .closeBracket
  | item :: rest => .comma :: (item.tokens loose ++ laterItems loose trailing rest)
def fieldTokens (loose trailing : Bool) : List (List Piece × Doc) → List Token
  | [] => [.closeBrace]
  | (name, child) :: rest => .literal name :: .colon :: (child.tokens loose ++ laterFields loose trailing rest)
def laterFields (loose trailing : Bool) : List (List Piece × Doc) → List Token
  | [] => closing (loose && trailing) .closeBrace
  | (name, child) :: rest =>
    .comma :: .literal name :: .colon :: (child.tokens loose ++ laterFields loose trailing rest)
end

/-! ## Texts of documents -/

def isJsonWhitespace (c : Char) : Bool := c = ' ' || c = '\t' || c = '\n' || c = '\r'

def Blank (gap : List Char) : Prop := ∀ c ∈ gap, isJsonWhitespace c = true

/-- Blanks and comments. A line comment has its end of line, and a block comment ends where it first can. -/
inductive Trivia : List Char → Prop where
  | none : Trivia []
  | blank (c : Char) (rest : List Char) (white : isJsonWhitespace c = true) (later : Trivia rest) : Trivia (c :: rest)
  | line (body rest : List Char) (single : '\n' ∉ body) (later : Trivia rest) :
      Trivia ('/' :: '/' :: (body ++ '\n' :: rest))
  | block (body rest : List Char) (opened : ¬ ['*', '/'] <:+: body) (later : Trivia rest) :
      Trivia ('/' :: '*' :: (body ++ '*' :: '/' :: rest))

/-- At the end of a file a line comment may be without an end of line. -/
inductive FinalTrivia : List Char → Prop where
  | closed (gap : List Char) (trivia : Trivia gap) : FinalTrivia gap
  | line (gap body : List Char) (trivia : Trivia gap) (single : '\n' ∉ body) :
      FinalTrivia (gap ++ '/' :: '/' :: body)

/-- A text with these tokens, and gaps of a kind before and between and after them. -/
inductive Spells (gap last : List Char → Prop) : List Token → List Char → Prop where
  | done {final : List Char} (ends : last final) : Spells gap last [] final
  | next {token : Token} {tokens : List Token} {before rest : List Char} (parted : gap before)
      (later : Spells gap last tokens rest) : Spells gap last (token :: tokens) (before ++ (token.chars ++ rest))

/-! ## The first pass -/

theorem strip_start {c : Char} (uncommented : c ≠ '/') (rest : List Char) :
    stripJsoncComments .normal (c :: rest) =
      (stripJsoncComments (if c = '"' then .inString else .normal) rest).map (c :: ·) :=
  stripJsoncComments.eq_6 c rest (fun _ slash _ => uncommented slash) fun _ slash _ => uncommented slash

theorem strip_plain {chars : List Char} (plain : ∀ c ∈ chars, c ≠ '"' ∧ c ≠ '/') (rest : List Char) :
    stripJsoncComments .normal (chars ++ rest) = (stripJsoncComments .normal rest).map (chars ++ ·) := by
  induction chars with
  | nil => simp
  | cons c chars ih =>
    obtain ⟨⟨unquoted, uncommented⟩, others⟩ := List.forall_mem_cons.1 plain
    rw [List.cons_append, strip_start uncommented, if_neg unquoted, ih others, Option.map_map]
    rfl

/-- A line comment ends with its line, which is kept. -/
theorem strip_line {body : List Char} (single : '\n' ∉ body) (rest : List Char) :
    stripJsoncComments .lineComment (body ++ '\n' :: rest) = (stripJsoncComments .normal rest).map ('\n' :: ·) := by
  induction body with
  | nil => rfl
  | cons c body ih =>
    obtain ⟨other, single⟩ := List.ne_and_not_mem_of_not_mem_cons single
    rw [List.cons_append, stripJsoncComments, if_neg (Ne.symm other)]
    exact ih single

theorem strip_line_final {body : List Char} (single : '\n' ∉ body) :
    stripJsoncComments .lineComment body = some [] := by
  induction body with
  | nil => rfl
  | cons c body ih =>
    obtain ⟨other, single⟩ := List.ne_and_not_mem_of_not_mem_cons single
    rw [stripJsoncComments, if_neg (Ne.symm other)]
    exact ih single

/-- A block comment ends where a star is followed by a slash for the first time. -/
theorem strip_block {body : List Char} (opened : ¬ ['*', '/'] <:+: body) (rest : List Char) :
    stripJsoncComments .blockComment (body ++ '*' :: '/' :: rest) = stripJsoncComments .normal rest ∧
      (body.head? ≠ some '/' →
        stripJsoncComments .blockCommentMaybeEnd (body ++ '*' :: '/' :: rest) = stripJsoncComments .normal rest) := by
  induction body with
  | nil => exact ⟨rfl, fun _ => rfl⟩
  | cons c body ih =>
    have later : ¬ ['*', '/'] <:+: body := fun inside => opened (inside.trans (List.suffix_cons c body).isInfix)
    have starred : c = '*' → body.head? ≠ some '/' := by
      rintro rfl slash
      cases body with
      | nil => cases slash
      | cons d body =>
        obtain rfl : d = '/' := Option.some.inj slash
        exact opened ⟨[], body, rfl⟩
    obtain ⟨within, ending⟩ := ih later
    constructor
    · rw [List.cons_append, stripJsoncComments]
      split_ifs with star
      · exact ending (starred star)
      · exact within
    · intro unslashed
      rw [List.cons_append, stripJsoncComments]
      split_ifs with slash star
      · exact absurd (congrArg some slash) unslashed
      · exact ending (starred star)
      · exact within

theorem strip_pieces (body : List Piece) (rest : List Char) :
    stripJsoncComments .inString (body.flatMap Piece.chars ++ rest) =
      (stripJsoncComments .inString rest).map (body.flatMap Piece.chars ++ ·) := by
  induction body with
  | nil => simp
  | cons piece body ih =>
    rw [List.flatMap_cons, List.append_assoc]
    cases piece with
    | plain c ordinary =>
      obtain ⟨unquoted, unescaped, single⟩ := ordinary
      rw [Piece.chars, List.singleton_append, stripJsoncComments, if_neg single, if_neg unescaped, if_neg unquoted,
        ih, Option.map_map]
      rfl
    | escaped c =>
      have escape : stripJsoncComments .inString ('\\' :: c :: (body.flatMap Piece.chars ++ rest)) =
          ((stripJsoncComments .inString (body.flatMap Piece.chars ++ rest)).map (c :: ·)).map ('\\' :: ·) := rfl
      rw [Piece.chars, List.cons_append, List.singleton_append, escape, ih, Option.map_map, Option.map_map]
      rfl

theorem scalar_plain (text : Scalar) : ∀ c ∈ text.chars, c ≠ '"' ∧ c ≠ '/' := by
  intro c member
  have plain := text.plain c member
  constructor <;> (rintro rfl; revert plain; decide)

/-- Tokens are copied. -/
theorem strip_token (token : Token) (rest : List Char) :
    stripJsoncComments .normal (token.chars ++ rest) = (stripJsoncComments .normal rest).map (token.chars ++ ·) := by
  cases token with
  | scalar text => exact strip_plain (scalar_plain text) rest
  | literal body =>
    have closed : stripJsoncComments .inString ('"' :: rest) = (stripJsoncComments .normal rest).map ('"' :: ·) := rfl
    rw [Token.chars, List.cons_append, List.append_assoc, strip_start (by decide), if_pos rfl, strip_pieces,
      List.singleton_append, closed, Option.map_map, Option.map_map]
    refine congrArg (fun build => (stripJsoncComments .normal rest).map build) (funext fun text => ?_)
    simp
  | _ => exact strip_plain (by simp [Token.chars]) rest

/-- Of a gap its blanks are left. -/
theorem strip_trivia {gap : List Char} (trivia : Trivia gap) :
    ∃ blanks, Blank blanks ∧ ∀ rest, stripJsoncComments .normal (gap ++ rest) =
      (stripJsoncComments .normal rest).map (blanks ++ ·) := by
  induction trivia with
  | none => exact ⟨[], by simp [Blank], fun rest => by simp⟩
  | blank c gap white _ ih =>
    obtain ⟨blanks, blank, stripped⟩ := ih
    refine ⟨c :: blanks, List.forall_mem_cons.2 ⟨white, blank⟩, fun rest => ?_⟩
    have plain : ∀ d ∈ [c], d ≠ '"' ∧ d ≠ '/' := by
      intro d member
      rw [List.mem_singleton.1 member]
      constructor <;> (rintro rfl; revert white; decide)
    have kept := strip_plain plain (gap ++ rest)
    rw [List.singleton_append] at kept
    rw [List.cons_append, kept, stripped, Option.map_map]
    rfl
  | line body gap single _ ih =>
    obtain ⟨blanks, blank, stripped⟩ := ih
    refine ⟨'\n' :: blanks, List.forall_mem_cons.2 ⟨rfl, blank⟩, fun rest => ?_⟩
    rw [List.cons_append, List.cons_append, stripJsoncComments, List.append_assoc, List.cons_append, strip_line single,
      stripped, Option.map_map]
    rfl
  | block body gap opened _ ih =>
    obtain ⟨blanks, blank, stripped⟩ := ih
    refine ⟨blanks, blank, fun rest => ?_⟩
    rw [List.cons_append, List.cons_append, stripJsoncComments, List.append_assoc, List.cons_append, List.cons_append,
      (strip_block opened _).1]
    exact stripped rest

theorem strip_final {gap : List Char} (final : FinalTrivia gap) :
    ∃ blanks, Blank blanks ∧ stripJsoncComments .normal gap = some blanks := by
  cases final with
  | closed _ trivia =>
    obtain ⟨blanks, blank, stripped⟩ := strip_trivia trivia
    refine ⟨blanks, blank, ?_⟩
    have ended := stripped []
    rw [List.append_nil] at ended
    rw [ended]
    exact congrArg some (List.append_nil blanks)
  | line gap body trivia single =>
    obtain ⟨blanks, blank, stripped⟩ := strip_trivia trivia
    refine ⟨blanks, blank, ?_⟩
    rw [stripped, stripJsoncComments, strip_line_final single]
    exact congrArg some (List.append_nil blanks)

/-- The first pass leaves the tokens, with blanks between them. -/
theorem strip_spells {tokens : List Token} {text : List Char} (spells : Spells Trivia FinalTrivia tokens text) :
    ∃ stripped, stripJsoncComments .normal text = some stripped ∧ Spells Blank Blank tokens stripped := by
  induction spells with
  | done final =>
    obtain ⟨blanks, blank, stripped⟩ := strip_final final
    exact ⟨blanks, stripped, .done blank⟩
  | @next token tokens before rest parted _ ih =>
    obtain ⟨blanks, blank, skipped⟩ := strip_trivia parted
    obtain ⟨later, stripped, spells⟩ := ih
    refine ⟨blanks ++ (token.chars ++ later), ?_, .next blank spells⟩
    rw [skipped, strip_token, stripped]
    rfl

/-! ## The second pass -/

def Token.isCloser : Token → Bool
  | .closeBrace | .closeBracket => true
  | _ => false

/-- The tokens without the commas right before a closing brace or bracket. -/
def dropTrailing : List Token → List Token
  | [] => []
  | token :: rest =>
    match token with
    | .comma => if rest.head?.any Token.isCloser then dropTrailing rest else .comma :: dropTrailing rest
    | token => token :: dropTrailing rest

theorem isWhitespace_of_json {c : Char} (white : isJsonWhitespace c = true) : isWhitespace c = true := by
  simp only [isJsonWhitespace, Bool.or_eq_true, decide_eq_true_eq] at white
  rcases white with ((rfl | rfl) | rfl) | rfl <;> rfl

theorem dropWhile_blank {gap : List Char} (blank : Blank gap) (rest : List Char) :
    (gap ++ rest).dropWhile isWhitespace = rest.dropWhile isWhitespace :=
  List.dropWhile_append_of_pos fun c member => isWhitespace_of_json (blank c member)

theorem scalar_solid {c : Char} (plain : (c.isAlphanum || c = '+' || c = '-' || c = '.') = true) :
    isWhitespace c = false := by
  simp only [Bool.or_eq_true, decide_eq_true_eq] at plain
  rcases plain with ((alphanumeric | rfl) | rfl) | rfl
  · have above : 48 ≤ c.toNat ∧ c.toNat ≤ 122 := by
      have ranges : (decide (c.val ≥ 'A'.val ∧ c.val ≤ 'Z'.val) ||
        (decide (c.val ≥ 'a'.val) && decide (c.val ≤ 'z'.val)) ||
        (decide (c.val ≥ '0'.val) && decide (c.val ≤ '9'.val))) = true := alphanumeric
      simp only [Bool.or_eq_true, Bool.and_eq_true, decide_eq_true_eq, ge_iff_le, UInt32.le_iff_toNat_le] at ranges
      change 48 ≤ c.val.toNat ∧ c.val.toNat ≤ 122
      have digits : '0'.val.toNat = 48 ∧ '9'.val.toNat = 57 := ⟨rfl, rfl⟩
      have upper : 'A'.val.toNat = 65 ∧ 'Z'.val.toNat = 90 := ⟨rfl, rfl⟩
      have lower : 'a'.val.toNat = 97 ∧ 'z'.val.toNat = 122 := ⟨rfl, rfl⟩
      omega
    simp only [isWhitespace, Bool.or_eq_false_iff, Bool.and_eq_false_iff, decide_eq_false_iff_not]
    omega
  all_goals rfl

theorem scalar_open {c : Char} (plain : (c.isAlphanum || c = '+' || c = '-' || c = '.') = true) :
    isCloser c = false := by
  rw [isCloser, Bool.or_eq_false_iff, decide_eq_false_iff_not, decide_eq_false_iff_not]
  constructor <;> (rintro rfl; revert plain; decide)

/-- A token starts with a character that is no blank, and that closes something if the token does. -/
theorem token_starts (token : Token) : ∃ c rest, token.chars = c :: rest ∧ isWhitespace c = false ∧
    isCloser c = token.isCloser := by
  cases token with
  | scalar text =>
    obtain ⟨c, rest, chars⟩ := List.exists_cons_of_ne_nil text.filled
    have plain := text.plain c (chars ▸ List.mem_cons_self)
    exact ⟨c, rest, chars, scalar_solid plain, scalar_open plain⟩
  | literal body => exact ⟨'"', _, rfl, rfl, rfl⟩
  | _ => exact ⟨_, [], rfl, rfl, rfl⟩

/-- What closes next is the next token. -/
theorem closesNext_eq {tokens : List Token} {text : List Char} (spells : Spells Blank Blank tokens text) :
    closesNext text = tokens.head?.any Token.isCloser := by
  cases spells with
  | done blank =>
    have skipped := dropWhile_blank blank []
    rw [List.append_nil] at skipped
    rw [closesNext, skipped]
    rfl
  | @next token tokens before rest parted later =>
    obtain ⟨c, chars, starts, solid, closer⟩ := token_starts token
    rw [closesNext, dropWhile_blank parted, starts, List.cons_append, List.dropWhile_cons_of_neg (by simp [solid])]
    exact closer

theorem keep_plain {chars : List Char} (plain : ∀ c ∈ chars, c ≠ '"' ∧ c ≠ ',') (rest : List Char) :
    stripTrailingCommas false false (chars ++ rest) = chars ++ stripTrailingCommas false false rest := by
  induction chars with
  | nil => rfl
  | cons c chars ih =>
    obtain ⟨⟨unquoted, other⟩, others⟩ := List.forall_mem_cons.1 plain
    have kept : ¬ (decide (c = ',') && closesNext (chars ++ rest)) = true := by simp [other]
    rw [List.cons_append, stripTrailingCommas, if_neg Bool.false_ne_true, if_neg unquoted, if_neg kept, ih others]
    rfl

theorem keep_pieces (body : List Piece) (rest : List Char) :
    stripTrailingCommas true false (body.flatMap Piece.chars ++ rest) =
      body.flatMap Piece.chars ++ stripTrailingCommas true false rest := by
  induction body with
  | nil => rfl
  | cons piece body ih =>
    rw [List.flatMap_cons, List.append_assoc]
    cases piece with
    | plain c ordinary =>
      obtain ⟨unquoted, unescaped, -⟩ := ordinary
      rw [Piece.chars, List.singleton_append, stripTrailingCommas, if_pos rfl, if_neg Bool.false_ne_true,
        if_neg unescaped, decide_eq_true unquoted, ih]
      rfl
    | escaped c =>
      have escape : stripTrailingCommas true false ('\\' :: c :: (body.flatMap Piece.chars ++ rest)) =
          '\\' :: c :: stripTrailingCommas true false (body.flatMap Piece.chars ++ rest) := rfl
      rw [Piece.chars, List.cons_append, List.singleton_append, escape, ih]
      rfl

theorem keep_token {token : Token} (other : token ≠ .comma) (rest : List Char) :
    stripTrailingCommas false false (token.chars ++ rest) = token.chars ++ stripTrailingCommas false false rest := by
  cases token with
  | comma => exact absurd rfl other
  | scalar text =>
    refine keep_plain (fun c member => ⟨(scalar_plain text c member).1, ?_⟩) rest
    have plain := text.plain c member
    rintro rfl
    revert plain
    decide
  | literal body =>
    have opened (text : List Char) : stripTrailingCommas false false ('"' :: text) =
        '"' :: stripTrailingCommas true false text := rfl
    have closed : stripTrailingCommas true false ('"' :: rest) = '"' :: stripTrailingCommas false false rest := rfl
    rw [Token.chars, List.cons_append, List.append_assoc, opened, keep_pieces, List.singleton_append, closed,
      List.cons_append, List.append_assoc]
    rfl
  | _ => exact keep_plain (by simp [Token.chars]) rest

theorem Spells.prepend {tokens : List Token} {gap text : List Char} (blank : Blank gap)
    (spells : Spells Blank Blank tokens text) : Spells Blank Blank tokens (gap ++ text) := by
  have joined {first second : List Char} (left : Blank first) (right : Blank second) : Blank (first ++ second) :=
    fun c member => (List.mem_append.1 member).elim (left c) (right c)
  cases spells with
  | done final => exact .done (joined blank final)
  | next parted later =>
    rw [← List.append_assoc]
    exact .next (joined blank parted) later

/-- The second pass drops the commas right before what closes. -/
theorem commas_spells {tokens : List Token} {text : List Char} (spells : Spells Blank Blank tokens text) :
    Spells Blank Blank (dropTrailing tokens) (stripTrailingCommas false false text) := by
  have skipped {gap : List Char} (blank : Blank gap) (rest : List Char) :
      stripTrailingCommas false false (gap ++ rest) = gap ++ stripTrailingCommas false false rest := by
    refine keep_plain (fun c member => ?_) rest
    have white := blank c member
    constructor <;> (rintro rfl; revert white; decide)
  induction spells with
  | @done final blank =>
    have kept := skipped blank []
    rw [List.append_nil] at kept
    rw [kept, stripTrailingCommas, List.append_nil]
    exact .done blank
  | @next token tokens before rest parted later ih =>
    rw [skipped parted]
    by_cases comma : token = .comma
    · subst comma
      have next := closesNext_eq later
      rw [Token.chars, List.singleton_append, stripTrailingCommas, if_neg Bool.false_ne_true, if_neg (by decide),
        decide_eq_true rfl, Bool.true_and, next, dropTrailing]
      split_ifs with trailing
      · exact ih.prepend parted
      · exact .next parted ih
    · have kept : dropTrailing (token :: tokens) = token :: dropTrailing tokens := by
        cases token with
        | comma => exact absurd rfl comma
        | _ => rfl
      rw [keep_token comma, kept]
      exact .next parted ih

/-- A document starts with a token that closes nothing. -/
theorem tokens_open (loose : Bool) (doc : Doc) : ∃ token rest, doc.tokens loose = token :: rest ∧
    token.isCloser = false ∧ token ≠ .comma := by
  cases doc <;> exact ⟨_, _, rfl, rfl, by simp⟩

mutual
theorem dropTrailing_tokens (rest : List Token) : (doc : Doc) →
    dropTrailing (doc.tokens true ++ rest) = doc.tokens false ++ dropTrailing rest
  | .scalar _ => rfl
  | .literal _ => rfl
  | .array items trailing => congrArg (Token.openBracket :: ·) (dropTrailing_items rest trailing items)
  | .object fields trailing => congrArg (Token.openBrace :: ·) (dropTrailing_fields rest trailing fields)
theorem dropTrailing_items (rest : List Token) (trailing : Bool) : (items : List Doc) →
    dropTrailing (itemTokens true trailing items ++ rest) = itemTokens false trailing items ++ dropTrailing rest
  | [] => rfl
  | item :: items => by
    rw [itemTokens, itemTokens, List.append_assoc, dropTrailing_tokens _ item, dropTrailing_laterItems,
      List.append_assoc]
theorem dropTrailing_laterItems (rest : List Token) (trailing : Bool) : (items : List Doc) →
    dropTrailing (laterItems true trailing items ++ rest) = laterItems false trailing items ++ dropTrailing rest
  | [] => by cases trailing <;> rfl
  | item :: items => by
    obtain ⟨token, tokens, starts, opens, -⟩ := tokens_open true item
    have followed :
        ((item.tokens true ++ laterItems true trailing items) ++ rest).head?.any Token.isCloser = false := by
      rw [starts]
      exact opens
    rw [laterItems, laterItems, List.cons_append, dropTrailing, followed, if_neg Bool.false_ne_true, List.append_assoc,
      dropTrailing_tokens _ item, dropTrailing_laterItems, List.cons_append, List.append_assoc]
theorem dropTrailing_fields (rest : List Token) (trailing : Bool) : (fields : List (List Piece × Doc)) →
    dropTrailing (fieldTokens true trailing fields ++ rest) = fieldTokens false trailing fields ++ dropTrailing rest
  | [] => rfl
  | (name, child) :: fields => by
    have inside : dropTrailing ((child.tokens true ++ laterFields true trailing fields) ++ rest) =
        (child.tokens false ++ laterFields false trailing fields) ++ dropTrailing rest := by
      rw [List.append_assoc, dropTrailing_tokens _ child, dropTrailing_laterFields, List.append_assoc]
    exact congrArg (fun tokens => Token.literal name :: Token.colon :: tokens) inside
theorem dropTrailing_laterFields (rest : List Token) (trailing : Bool) : (fields : List (List Piece × Doc)) →
    dropTrailing (laterFields true trailing fields ++ rest) = laterFields false trailing fields ++ dropTrailing rest
  | [] => by cases trailing <;> rfl
  | (name, child) :: fields => by
    have inside : dropTrailing ((child.tokens true ++ laterFields true trailing fields) ++ rest) =
        (child.tokens false ++ laterFields false trailing fields) ++ dropTrailing rest := by
      rw [List.append_assoc, dropTrailing_tokens _ child, dropTrailing_laterFields, List.append_assoc]
    exact congrArg (fun tokens => Token.comma :: Token.literal name :: Token.colon :: tokens) inside
end

/-! ## Both passes -/

/-- What is left of a decorated document has its tokens and nothing but blanks between them, so that its strings are
as they were, and a parser for which blanks do not matter reads it as the document without the decoration. -/
theorem jsonc_strip_faithful {parse : String → Option Value}
    (insensitive : ∀ (doc : Doc) (first second : List Char), Spells Blank Blank (doc.tokens false) first →
      Spells Blank Blank (doc.tokens false) second → parse (String.ofList first) = parse (String.ofList second))
    {doc : Doc} {decorated plain : List Char} (decorates : Spells Trivia FinalTrivia (doc.tokens true) decorated)
    (undecorated : Spells Blank Blank (doc.tokens false) plain) :
    Spells Blank Blank (doc.tokens false) (stripJsonc (String.ofList decorated)).toList ∧
      parse (stripJsonc (String.ofList decorated)) = parse (String.ofList plain) := by
  obtain ⟨withoutComments, stripped, spells⟩ := strip_spells decorates
  have tokens : dropTrailing (doc.tokens true) = doc.tokens false := by
    have dropped := dropTrailing_tokens [] doc
    rwa [List.append_nil, dropTrailing, List.append_nil] at dropped
  have strict := commas_spells spells
  rw [tokens] at strict
  have result :
      stripJsonc (String.ofList decorated) = String.ofList (stripTrailingCommas false false withoutComments) := by
    rw [stripJsonc, String.toList_ofList, stripped]
  rw [result, String.toList_ofList]
  exact ⟨strict, insensitive doc _ _ strict undecorated⟩

/-! ## An array of one string -/

/-- Two slashes and a quotation mark. -/
def slashes : List Piece := [.plain '/' (by decide), .plain '/' (by decide), .escaped '"']

/-- Reads an array of this string. -/
def parseSlashes (text : String) : Option Value :=
  if text.toList.filter (fun c => !isJsonWhitespace c) = "[\"//\\\"\"]".toList then some (.array [.string "//\""])
  else none

theorem filter_blank {gap : List Char} (blank : Blank gap) : gap.filter (fun c => !isJsonWhitespace c) = [] := by
  refine List.filter_eq_nil_iff.2 fun c member => ?_
  rw [blank c member]
  exact Bool.false_ne_true

theorem filter_spells {tokens : List Token} {text : List Char} (spells : Spells Blank Blank tokens text) :
    text.filter (fun c => !isJsonWhitespace c) =
      (tokens.flatMap Token.chars).filter fun c => !isJsonWhitespace c := by
  induction spells with
  | done blank => exact filter_blank blank
  | next parted _ ih =>
    rw [List.filter_append, filter_blank parted, List.nil_append, List.filter_append, ih, List.flatMap_cons,
      List.filter_append]

theorem parseSlashes_insensitive (doc : Doc) (first second : List Char)
    (left : Spells Blank Blank (doc.tokens false) first) (right : Spells Blank Blank (doc.tokens false) second) :
    parseSlashes (String.ofList first) = parseSlashes (String.ofList second) := by
  unfold parseSlashes
  simp only [String.toList_ofList, filter_spells left, filter_spells right]

theorem jsonc_strip_slashes :
    parseSlashes (stripJsonc (String.ofList "[ /* \" */ \"//\\\"\" , // ]\n ]".toList)) =
      parseSlashes (String.ofList "[\"//\\\"\"]".toList) := by
  have space : Trivia [' '] := .blank ' ' _ rfl .none
  have quoted : Trivia [' ', '/', '*', ' ', '"', ' ', '*', '/', ' '] :=
    .blank ' ' _ rfl (.block [' ', '"', ' '] _ (by decide) space)
  have bracketed : Trivia [' ', '/', '/', ' ', ']', '\n', ' '] :=
    .blank ' ' _ rfl (.line [' ', ']'] _ (by decide) space)
  have ended : Spells Trivia FinalTrivia [] [] := .done (.closed [] .none)
  have closed := @Spells.next _ _ .closeBracket _ _ _ bracketed ended
  have loose := @Spells.next _ _ .comma _ _ _ space closed
  have inner := @Spells.next _ _ (.literal slashes) _ _ _ quoted loose
  have decorated := @Spells.next _ _ .openBracket _ _ _ .none inner
  have tight : Blank [] := fun c member => nomatch member
  have last := @Spells.next Blank Blank .closeBracket _ _ _ tight (.done tight)
  have plain := @Spells.next _ _ .openBracket _ _ _ tight (@Spells.next _ _ (.literal slashes) _ _ _ tight last)
  exact (@jsonc_strip_faithful _ parseSlashes_insensitive (.array [.literal slashes] true) _ _ decorated plain).2

end McpTracer.Proxy.Setup
