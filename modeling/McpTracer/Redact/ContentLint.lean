import McpTracer.Foundation.Words
import McpTracer.Json.Pointer
import McpTracer.Redact.Policy

/-! The lint of what is about to leave.

Masking by the names of keys leaves secrets that stand in texts. The lint looks for those that have a form of
their own, in all texts of a payload and in the command of the server.
-/

set_option autoImplicit false

namespace McpTracer.Redact
open McpTracer.Foundation McpTracer.Json

inductive SensitiveCategory where
  | bearerToken
  | urlQuerySecret
  | pemBlock
  | commandSecret
  deriving DecidableEq

def SensitiveCategory.asStr : SensitiveCategory → String
  | .bearerToken => "bearer_token"
  | .urlQuerySecret => "url_query_secret"
  | .pemBlock => "pem_block"
  | .commandSecret => "command_secret"

/-- The order in which the categories are declared. -/
def SensitiveCategory.rank : SensitiveCategory → Nat
  | .bearerToken => 0
  | .urlQuerySecret => 1
  | .pemBlock => 2
  | .commandSecret => 3

/-- Where a suspicious text is, and what kind it is of, without the text. -/
structure SensitiveContentFinding where
  pointer : String
  category : SensitiveCategory
  deriving DecidableEq

def SensitiveContentFinding.le (first second : SensitiveContentFinding) : Prop :=
  first.pointer < second.pointer ∨
    (first.pointer = second.pointer ∧ first.category.rank ≤ second.category.rank)

instance : DecidableRel SensitiveContentFinding.le :=
  fun first second => inferInstanceAs (Decidable (first.pointer < second.pointer ∨ _ ∧ _))

/-! ## Suspicious texts -/

def trimStart (text : List Char) : List Char := text.dropWhile isWhitespace

def trim (text : List Char) : List Char := (trimStart text).rdropWhile isWhitespace

/-- What comes before the first of a character, or everything. -/
def upTo (mark : Char) (text : List Char) : List Char := text.takeWhile fun c => c ≠ mark

/-- What comes after the first of a character. -/
def behind (mark : Char) (text : List Char) : List Char := (text.dropWhile fun c => c ≠ mark).drop 1

def isLongToken (rest : List Char) : Bool :=
  let token := trimStart rest
  8 ≤ (String.ofList token).utf8ByteSize && !token.contains '\n'

def isBearerToken (text : List Char) : Bool :=
  match (trimStart text).dropPrefix? "Bearer ".toList with
  | some rest => isLongToken rest
  | none =>
    match ((trimStart text).map Char.toLower).dropPrefix? "bearer ".toList with
    | some rest => isLongToken rest
    | none => false

def isPemBlock (text : List Char) : Bool := decide ("-----BEGIN ".toList <:+: text)

def isUrlQuerySecret (text : List Char) : Bool :=
  text.contains '?' && ((upTo '#' (behind '?' text)).splitOn '&').any fun pair =>
    let key := String.ofList (trim (upTo '=' pair))
    key ≠ "" && isSensitiveKey key

/-- A flag or a variable with its value, where the name is that of a secret. -/
def isSecretToken (token : List Char) : Bool :=
  let stripped := token.dropWhile fun c => c = '-'
  stripped.contains '=' && isSensitiveKey (String.ofList (upTo '=' stripped))

def isCommandSecret (command : String) : Bool := (words isAsciiWhitespace command.toList).any isSecretToken

/-! ## All texts of a payload -/

def lintText (pointer text : String) : List SensitiveContentFinding :=
  if text = redactedPlaceholder then []
  else
    (if isBearerToken text.toList then [⟨pointer, .bearerToken⟩] else []) ++
      (if isPemBlock text.toList then [⟨pointer, .pemBlock⟩] else []) ++
      if isUrlQuerySecret text.toList then [⟨pointer, .urlQuerySecret⟩] else []

mutual
def walkLint (path : List String) : Value → List SensitiveContentFinding
  | .string text => lintText (Pointer.text path) text
  | .object fields => walkLintFields path fields
  | .array items => walkLintItems path 0 items
  | _ => []
def walkLintFields (path : List String) : List (String × Value) → List SensitiveContentFinding
  | [] => []
  | (key, child) :: rest => walkLint (path ++ [key]) child ++ walkLintFields path rest
def walkLintItems (path : List String) (index : Nat) : List Value → List SensitiveContentFinding
  | [] => []
  | item :: rest => walkLint (path ++ [toString index]) item ++ walkLintItems path (index + 1) rest
end

def commandFindings (command : String) : List SensitiveContentFinding :=
  if isCommandSecret command then [⟨"/session/server_command", .commandSecret⟩] else []

def sensitiveContentLint (value : Value) (commandContext : Option String) : List SensitiveContentFinding :=
  ((walkLint [] value ++ commandContext.elim [] commandFindings).insertionSort SensitiveContentFinding.le).destutter
    (· ≠ ·)

/-! ## What is found -/

theorem mem_destutter_ne {A : Type} [DecidableEq A] {a : A} {list : List A} :
    a ∈ list.destutter (· ≠ ·) ↔ a ∈ list := by
  refine ⟨fun member => (List.destutter_sublist _ list).subset member, fun member => ?_⟩
  cases list with
  | nil => cases member
  | cons first rest =>
    rw [List.destutter_cons']
    induction rest generalizing first with
    | nil => exact member
    | cons next rest ih =>
      by_cases same : first = next
      · subst same
        rw [List.destutter'_cons_neg _ (not_not.2 rfl)]
        exact ih first (by simpa using member)
      · rw [List.destutter'_cons_pos _ same]
        rcases List.mem_cons.1 member with rfl | later
        · exact List.mem_cons_self
        · exact List.mem_cons_of_mem _ (ih next later)

theorem mem_sensitiveContentLint {value : Value} {commandContext : Option String} {finding : SensitiveContentFinding} :
    finding ∈ sensitiveContentLint value commandContext ↔
      finding ∈ walkLint [] value ∨ finding ∈ commandContext.elim [] commandFindings := by
  rw [sensitiveContentLint, mem_destutter_ne, List.mem_insertionSort, List.mem_append]

theorem category_of_flagged {flag : Bool} {pointer : String} {category : SensitiveCategory}
    {finding : SensitiveContentFinding} (found : finding ∈ if flag then [⟨pointer, category⟩] else []) :
    finding.category = category := by
  cases flag with
  | false => cases found
  | true => rw [List.mem_singleton.1 found]

theorem lintText_category {pointer text : String} {finding : SensitiveContentFinding}
    (found : finding ∈ lintText pointer text) : finding.category ≠ .commandSecret := by
  unfold lintText at found
  split at found
  · cases found
  rcases List.mem_append.1 found with found | found
  · rcases List.mem_append.1 found with found | found
    · rw [category_of_flagged found]
      decide
    · rw [category_of_flagged found]
      decide
  · rw [category_of_flagged found]
    decide

/-- No text of a payload is taken for a command. -/
theorem walkLint_category (value : Value) (path : List String) :
    ∀ finding ∈ walkLint path value, finding.category ≠ .commandSecret := by
  induction value using Value.children generalizing path with
  | string text => exact fun finding found => lintText_category found
  | array items ih =>
    rw [walkLint]
    generalize 0 = index
    induction items generalizing index with
    | nil => exact fun finding found => absurd found List.not_mem_nil
    | cons item rest later =>
      obtain ⟨here, others⟩ := List.forall_mem_cons.1 ih
      intro finding found
      rcases List.mem_append.1 found with first | found
      · exact here _ finding first
      · exact later others (index + 1) finding found
  | object fields ih =>
    rw [walkLint]
    induction fields with
    | nil => exact fun finding found => absurd found List.not_mem_nil
    | cons field rest later =>
      obtain ⟨here, others⟩ := List.forall_mem_cons.1 ih
      intro finding found
      rcases List.mem_append.1 found with first | found
      · exact here _ finding first
      · exact later others finding found
  | _ => exact fun finding found => absurd found List.not_mem_nil

/-- The lint reports a secret in a command exactly if the command has one. -/
theorem reports_commandSecret_iff (value : Value) (command : String) :
    (∃ finding ∈ sensitiveContentLint value (some command), finding.category = .commandSecret) ↔
      isCommandSecret command = true := by
  constructor
  · rintro ⟨finding, found, category⟩
    rcases mem_sensitiveContentLint.1 found with inside | inside
    · exact absurd category (walkLint_category value [] finding inside)
    · by_contra none
      change finding ∈ commandFindings command at inside
      rw [commandFindings, if_neg none] at inside
      cases inside
  · intro secret
    refine ⟨⟨"/session/server_command", .commandSecret⟩, mem_sensitiveContentLint.2 (.inr ?_), rfl⟩
    change _ ∈ commandFindings command
    rw [commandFindings, if_pos secret]
    exact List.mem_singleton_self _

end McpTracer.Redact
