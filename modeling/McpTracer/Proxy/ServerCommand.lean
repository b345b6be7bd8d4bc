import McpTracer.Redact.ContentLint
import McpTracer.Storage.DerivedIndex
import McpTracer.Storage.Transfer

/-! The command of the server, as it is stored and as it is exported.

The recorder masks the command argument by argument and joins what it has. The lint takes it apart at every
blank, and looks at names only: a name whose value has been masked looks to it like one whose value has not.
-/

set_option autoImplicit false

namespace McpTracer.Proxy
open McpTracer.Foundation McpTracer.Json McpTracer.Redact McpTracer.Storage

/-! ## The stored command -/

/-- An argument that assigns a value to the name of a secret, with the value masked. -/
def maskedAssignment (arg : String) : Option String :=
  if arg.toList.contains '=' && isSensitiveKey (String.ofList (upTo '=' arg.toList)) then
    some (String.ofList (upTo '=' arg.toList) ++ "=" ++ redactedPlaceholder)
  else none

/-- A flag that is named as a secret, whose value is the next argument. -/
def announcesSecret (arg : String) : Bool := arg.toList.head? = some '-' && isSensitiveKey arg

def renderArguments (redactNext : Bool) : List String → List String
  | [] => []
  | arg :: rest =>
    if redactNext then redactedPlaceholder :: renderArguments false rest
    else
      match maskedAssignment arg with
      | some masked => masked :: renderArguments false rest
      | none => arg :: renderArguments (announcesSecret arg) rest

def redactServerCommand (serverArgs : List String) : String := " ".intercalate (renderArguments false serverArgs)

/-! ## The lint of a document -/

def lintSensitiveContent (document : MtraceDocument) : List SensitiveContentFinding :=
  (document.messages.flatMap fun message =>
    (sensitiveContentLint message.payload none).map fun finding =>
      { finding with pointer := s!"/messages/{message.seq}{finding.pointer}" }) ++
  sensitiveContentLint .null (some document.session.serverCommand)

inductive ArtifactError where
  | unsupportedRedaction (value : String)
  | conflictingOptions
  | store (error : StoreError)
  | transfer (error : TransferError)
  /-- What the lint has found. -/
  | sensitiveContent (findings : Nat)
  | encoding (message : String)
  deriving DecidableEq

def forceDefaultRedaction : Option String → Except ArtifactError Bool
  | none => .ok false
  | some "default" => .ok true
  | some value => .error (.unsupportedRedaction value)

def lintGate (allowSensitiveContent : Bool) (document : MtraceDocument) : Except ArtifactError Unit :=
  let findings := lintSensitiveContent document
  if findings = [] ∨ allowSensitiveContent = true then .ok () else .error (.sensitiveContent findings.length)

/-- The artifact of a session; its encoding is a parameter. -/
def buildValidatedArtifact (codec : Codec) (encode : MtraceDocument → Except String (List UInt8)) (db : Database)
    (sessionId : String) (redact : Option String) (allowUnredacted allowSensitiveContent : Bool) (nowNs : Int)
    (exporter : String) : Except ArtifactError (MtraceDocument × List UInt8) := do
  let force ← forceDefaultRedaction redact
  if force && allowUnredacted then .error .conflictingOptions
  else
    let _ ← (db.getRedactionPolicy sessionId).mapError .store
    let document ← (exportMtraceDocument codec db sessionId ⟨force, allowUnredacted⟩ nowNs exporter).mapError .transfer
    lintGate allowSensitiveContent document
    let bytes ← (encode document).mapError .encoding
    return (document, bytes)

/-! ## What the lint makes of a stored command -/

/-- A name with the placeholder for its value. -/
def holdsPlaceholder (token : List Char) : Bool :=
  token.contains '=' && behind '=' token = redactedPlaceholder.toList

/-- The arguments that are not masked whole, as the values of the flags before them. -/
def shownArguments (redactNext : Bool) : List String → List String
  | [] => []
  | arg :: rest =>
    if redactNext then shownArguments false rest
    else arg :: shownArguments ((maskedAssignment arg).isNone && announcesSecret arg) rest

/-- What is left of an argument, when it is masked or when it is not, has a word that names a secret and has the
placeholder for its value. -/
def leavesPlaceholder (arg : String) : Bool :=
  if arg.toList.contains '=' && isSensitiveKey (String.ofList (upTo '=' arg.toList)) then
    isSensitiveKey (String.ofList (lastWord isAsciiWhitespace (upTo '=' arg.toList)))
  else (words isAsciiWhitespace arg.toList).any fun token => isSecretToken token && holdsPlaceholder token

/-- No argument has a blank in it. -/
def Unspaced (serverArgs : List String) : Prop := ∀ arg ∈ serverArgs, ∀ c ∈ arg.toList, isWhitespace c = false

/-- The command that is stored for some arguments passes the lint, as far as the recorder's placeholder goes. -/
structure PassesLint (serverArgs : List String) : Prop where
  placeholders : ∀ token ∈ words isAsciiWhitespace (redactServerCommand serverArgs).toList,
    holdsPlaceholder token = true → isSecretToken token = false
  silent : Unspaced serverArgs →
    ∀ value, ∀ finding ∈ sensitiveContentLint value (some (redactServerCommand serverArgs)),
      finding.category ≠ .commandSecret
  /-- So what an export is refused for is in a message. -/
  exported : Unspaced serverArgs → ∀ codec encode db sessionId redact allowUnredacted nowNs exporter session findings,
    Database.getSessionSummary db sessionId = .ok session →
    session.serverCommand = redactServerCommand serverArgs →
    buildValidatedArtifact codec encode db sessionId redact allowUnredacted false nowNs exporter =
      .error (.sensitiveContent findings) →
    ∃ force document, exportMtraceDocument codec db sessionId ⟨force, allowUnredacted⟩ nowNs exporter = .ok document ∧
      ∃ message ∈ document.messages, sensitiveContentLint message.payload none ≠ []

/-! ## Names and values -/

section
variable {mark : Char}

theorem not_mem_upTo (text : List Char) : mark ∉ upTo mark text := by
  intro member
  have other := List.mem_takeWhile_imp member
  simp at other

theorem upTo_append {front : List Char} (early : mark ∉ front) (back : List Char) :
    upTo mark (front ++ mark :: back) = front := by
  have plain : ∀ c ∈ front, decide (c ≠ mark) = true := fun c member => decide_eq_true fun same => early (same ▸ member)
  rw [upTo, List.takeWhile_append_of_pos plain, List.takeWhile_cons_of_neg (by simp), List.append_nil]

theorem behind_append {front : List Char} (early : mark ∉ front) (back : List Char) :
    behind mark (front ++ mark :: back) = back := by
  have plain : ∀ c ∈ front, decide (c ≠ mark) = true := fun c member => decide_eq_true fun same => early (same ▸ member)
  rw [behind, List.dropWhile_append_of_pos plain, List.dropWhile_cons_of_neg (by simp), List.drop_one, List.tail_cons]

end

theorem normalizeKey_dash (rest : List Char) :
    normalizeKey (String.ofList ('-' :: rest)) = normalizeKey (String.ofList rest) := by
  rw [normalizeKey, normalizeKey, String.toList_ofList, String.toList_ofList, List.filter_cons_of_neg (by decide)]

/-- The dashes before a name do not matter. -/
theorem isSecretToken_eq (token : List Char) :
    isSecretToken token = (token.contains '=' && isSensitiveKey (String.ofList (upTo '=' token))) := by
  induction token with
  | nil => rfl
  | cons c rest ih =>
    by_cases dash : c = '-'
    · subst dash
      have same : isSensitiveKey (String.ofList (upTo '=' ('-' :: rest))) =
          isSensitiveKey (String.ofList (upTo '=' rest)) := by
        rw [upTo, List.takeWhile_cons_of_pos (by decide), isSensitiveKey, normalizeKey_dash]
        rfl
      have names : ('-' :: rest).contains '=' = rest.contains '=' := by simp
      rw [same, names, ← ih, isSecretToken, List.dropWhile_cons_of_pos (by decide)]
      rfl
    · rw [isSecretToken, List.dropWhile_cons_of_neg (by simpa using dash)]

/-! ## One argument -/

/-- What is stored for an argument that is not masked whole. -/
def rendered (arg : String) : String := (maskedAssignment arg).getD arg

theorem placeholder_plain : ∀ c ∈ '=' :: redactedPlaceholder.toList, isAsciiWhitespace c = false := by
  simp [redactedPlaceholder, isAsciiWhitespace]

theorem isSecretToken_unassigned {token : List Char} (unassigned : '=' ∉ token) : isSecretToken token = false := by
  rw [isSecretToken_eq, List.contains_eq_mem, decide_eq_false unassigned, Bool.false_and]

theorem isSecretToken_assigned {name : List Char} (plain : '=' ∉ name) (value : List Char) :
    isSecretToken (name ++ '=' :: value) = isSensitiveKey (String.ofList name) := by
  have assigned : (name ++ '=' :: value).contains '=' = true := by simp
  rw [isSecretToken_eq, assigned, upTo_append plain, Bool.true_and]

theorem holdsPlaceholder_assigned {name : List Char} (plain : '=' ∉ name) :
    holdsPlaceholder (name ++ '=' :: redactedPlaceholder.toList) = true := by
  have assigned : (name ++ '=' :: redactedPlaceholder.toList).contains '=' = true := by simp
  rw [holdsPlaceholder, assigned, behind_append plain, Bool.true_and, decide_eq_true rfl]

theorem maskedAssignment_eq_some_iff {arg masked : String} : maskedAssignment arg = some masked ↔
    (arg.toList.contains '=' && isSensitiveKey (String.ofList (upTo '=' arg.toList))) = true ∧
      masked = String.ofList (upTo '=' arg.toList) ++ "=" ++ redactedPlaceholder := by
  rw [maskedAssignment, Option.ite_none_right_eq_some, Option.some.injEq]
  exact and_congr_right fun _ => eq_comm

theorem toList_masked (name : List Char) : (String.ofList name ++ "=" ++ redactedPlaceholder).toList =
    name ++ '=' :: redactedPlaceholder.toList := by
  rw [String.toList_append, String.toList_append, String.toList_ofList, List.append_assoc]
  rfl

/-- An argument leaves a flagged placeholder exactly if one of its words is such. -/
theorem leavesPlaceholder_iff (arg : String) : leavesPlaceholder arg = true ↔
    ∃ token ∈ words isAsciiWhitespace (rendered arg).toList,
      isSecretToken token = true ∧ holdsPlaceholder token = true := by
  unfold leavesPlaceholder rendered
  cases masked : maskedAssignment arg with
  | none =>
    have shown : ¬ (arg.toList.contains '=' && isSensitiveKey (String.ofList (upTo '=' arg.toList))) = true := by
      intro secret
      rw [maskedAssignment, if_pos secret] at masked
      cases masked
    rw [if_neg shown, Option.getD_none, List.any_eq_true]
    simp only [Bool.and_eq_true]
  | some text =>
    obtain ⟨secret, rfl⟩ := maskedAssignment_eq_some_iff.1 masked
    obtain ⟨others, inside, parted⟩ :=
      @words_append _ isAsciiWhitespace (upTo '=' arg.toList) _ (List.cons_ne_nil _ _) placeholder_plain
    have plain : '=' ∉ lastWord isAsciiWhitespace (upTo '=' arg.toList) :=
      fun member => not_mem_upTo _ ((List.rtakeWhile_suffix _ _).subset member)
    rw [if_pos secret, Option.getD_some, toList_masked, parted]
    constructor
    · intro names
      refine ⟨_, List.mem_append_right _ List.mem_cons_self, ?_, holdsPlaceholder_assigned plain⟩
      rwa [isSecretToken_assigned plain]
    · rintro ⟨token, member, flagged, -⟩
      rcases List.mem_append.1 member with early | last
      · have unassigned : '=' ∉ token := fun assigned => not_mem_upTo _ (inside token early '=' assigned)
        rw [isSecretToken_unassigned unassigned] at flagged
        cases flagged
      · rwa [List.mem_singleton.1 last, isSecretToken_assigned plain] at flagged

theorem words_plain {text : List Char} (plain : ∀ c ∈ text, isAsciiWhitespace c = false) {token : List Char}
    (member : token ∈ words isAsciiWhitespace text) : token = text := by
  by_cases filled : text = []
  · subst filled
    rw [words_nil] at member
    cases member
  · rw [words_singleton filled plain] at member
    exact List.mem_singleton.1 member

/-- In the words of an argument without blanks, only a masked value follows the name of a secret. -/
theorem holdsPlaceholder_of_secret {arg : String} (plain : ∀ c ∈ arg.toList, isAsciiWhitespace c = false)
    {token : List Char} (member : token ∈ words isAsciiWhitespace (rendered arg).toList)
    (flagged : isSecretToken token = true) : holdsPlaceholder token = true := by
  unfold rendered at member
  cases masked : maskedAssignment arg with
  | none =>
    rw [masked, Option.getD_none] at member
    obtain rfl := words_plain plain member
    rw [isSecretToken_eq] at flagged
    rw [maskedAssignment, if_pos flagged] at masked
    cases masked
  | some text =>
    obtain ⟨-, rfl⟩ := maskedAssignment_eq_some_iff.1 masked
    rw [masked, Option.getD_some, toList_masked] at member
    have plainText : ∀ c ∈ upTo '=' arg.toList ++ '=' :: redactedPlaceholder.toList, isAsciiWhitespace c = false := by
      intro c inside
      rcases List.mem_append.1 inside with inside | inside
      · exact plain c ((List.takeWhile_prefix _).subset inside)
      · exact placeholder_plain c inside
    rw [words_plain plainText member]
    exact holdsPlaceholder_assigned (not_mem_upTo _)

/-! ## All arguments -/

theorem words_redactServerCommand (serverArgs : List String) :
    words isAsciiWhitespace (redactServerCommand serverArgs).toList =
      (renderArguments false serverArgs).flatMap fun arg => words isAsciiWhitespace arg.toList := by
  have blank : isAsciiWhitespace ' ' = true := rfl
  rw [redactServerCommand, String.toList_intercalate]
  exact (words_intercalate blank _).trans (List.flatMap_map _ _ _)

/-- What is stored is the placeholder, or comes from an argument that is not masked whole. -/
theorem mem_renderArguments {redactNext : Bool} {serverArgs : List String} {text : String}
    (member : text ∈ renderArguments redactNext serverArgs) :
    text = redactedPlaceholder ∨ ∃ arg ∈ shownArguments redactNext serverArgs, text = rendered arg := by
  induction serverArgs generalizing redactNext with
  | nil => cases member
  | cons arg rest ih =>
    cases redactNext with
    | true =>
      rcases List.mem_cons.1 member with rfl | later
      · exact .inl rfl
      · exact ih later
    | false =>
      have later {next : Bool} (found : text ∈ renderArguments next rest)
          (follows : ((maskedAssignment arg).isNone && announcesSecret arg) = next) :
          text = redactedPlaceholder ∨ ∃ arg' ∈ shownArguments false (arg :: rest), text = rendered arg' := by
        rcases ih found with same | ⟨other, inside, same⟩
        · exact .inl same
        · refine .inr ⟨other, List.mem_cons_of_mem _ ?_, same⟩
          rwa [follows]
      rw [renderArguments, if_neg Bool.false_ne_true] at member
      cases masked : maskedAssignment arg with
      | some assignment =>
        rw [masked] at member
        rcases List.mem_cons.1 member with rfl | found
        · refine .inr ⟨arg, List.mem_cons_self, ?_⟩
          rw [rendered, masked, Option.getD_some]
        · exact later found (by rw [masked]; rfl)
      | none =>
        rw [masked] at member
        rcases List.mem_cons.1 member with rfl | found
        · refine .inr ⟨text, List.mem_cons_self, ?_⟩
          rw [rendered, masked, Option.getD_none]
        · exact later found (by rw [masked]; rfl)

theorem rendered_mem_renderArguments {redactNext : Bool} {serverArgs : List String} {arg : String}
    (member : arg ∈ shownArguments redactNext serverArgs) : rendered arg ∈ renderArguments redactNext serverArgs := by
  induction serverArgs generalizing redactNext with
  | nil => cases member
  | cons first rest ih =>
    cases redactNext with
    | true => exact List.mem_cons_of_mem _ (ih member)
    | false =>
      rw [renderArguments, if_neg Bool.false_ne_true]
      rcases List.mem_cons.1 member with rfl | later
      · unfold rendered
        cases maskedAssignment arg with
        | some masked => exact List.mem_cons_self
        | none => exact List.mem_cons_self
      · cases masked : maskedAssignment first with
        | some assignment =>
          rw [masked] at later
          exact List.mem_cons_of_mem _ (ih later)
        | none =>
          rw [masked] at later
          exact List.mem_cons_of_mem _ (ih later)

theorem mem_shownArguments {redactNext : Bool} {serverArgs : List String} {arg : String}
    (member : arg ∈ shownArguments redactNext serverArgs) : arg ∈ serverArgs := by
  induction serverArgs generalizing redactNext with
  | nil => cases member
  | cons first rest ih =>
    cases redactNext with
    | true => exact List.mem_cons_of_mem _ (ih member)
    | false =>
      rcases List.mem_cons.1 member with rfl | later
      · exact List.mem_cons_self
      · exact List.mem_cons_of_mem _ (ih later)

/-- A flagged word of the stored command comes from an argument that is not masked whole. -/
theorem secret_of_command {serverArgs : List String} {token : List Char}
    (member : token ∈ words isAsciiWhitespace (redactServerCommand serverArgs).toList)
    (flagged : isSecretToken token = true) :
    ∃ arg ∈ shownArguments false serverArgs, token ∈ words isAsciiWhitespace (rendered arg).toList := by
  rw [words_redactServerCommand] at member
  obtain ⟨text, stored, inside⟩ := List.mem_flatMap.1 member
  rcases mem_renderArguments stored with rfl | ⟨arg, shown, rfl⟩
  · have unassigned : '=' ∉ redactedPlaceholder.toList := by simp [redactedPlaceholder]
    have plain : ∀ c ∈ redactedPlaceholder.toList, isAsciiWhitespace c = false :=
      fun c here => placeholder_plain c (List.mem_cons_of_mem _ here)
    rw [words_plain plain inside, isSecretToken_unassigned unassigned] at flagged
    cases flagged
  · exact ⟨arg, shown, inside⟩

theorem placeholders_iff (serverArgs : List String) :
    (∀ token ∈ words isAsciiWhitespace (redactServerCommand serverArgs).toList,
      holdsPlaceholder token = true → isSecretToken token = false) ↔
    ∀ arg ∈ shownArguments false serverArgs, leavesPlaceholder arg = false := by
  constructor
  · intro passes arg shown
    by_contra leaves
    obtain ⟨token, member, flagged, holds⟩ := (leavesPlaceholder_iff arg).1 (Bool.of_not_eq_false leaves)
    have stored : token ∈ words isAsciiWhitespace (redactServerCommand serverArgs).toList := by
      rw [words_redactServerCommand]
      exact List.mem_flatMap.2 ⟨rendered arg, rendered_mem_renderArguments shown, member⟩
    rw [passes token stored holds] at flagged
    cases flagged
  · intro none token member holds
    by_contra flagged
    have secret := Bool.of_not_eq_false flagged
    obtain ⟨arg, shown, inside⟩ := secret_of_command member secret
    have leaves := (leavesPlaceholder_iff arg).2 ⟨token, inside, secret, holds⟩
    rw [none arg shown] at leaves
    cases leaves

/-- Without blanks in the arguments only the placeholder can be flagged. -/
theorem isCommandSecret_unspaced {serverArgs : List String} (unspaced : Unspaced serverArgs)
    (placeholders : ∀ token ∈ words isAsciiWhitespace (redactServerCommand serverArgs).toList,
      holdsPlaceholder token = true → isSecretToken token = false) :
    isCommandSecret (redactServerCommand serverArgs) = false := by
  rw [isCommandSecret, List.any_eq_false]
  intro token member flagged
  obtain ⟨arg, shown, inside⟩ := secret_of_command member flagged
  have plain : ∀ c ∈ arg.toList, isAsciiWhitespace c = false := by
    intro c here
    by_contra blank
    have white := unspaced arg (mem_shownArguments shown) c here
    rw [isWhitespace_of_ascii (Bool.of_not_eq_false blank)] at white
    cases white
  rw [placeholders token member (holdsPlaceholder_of_secret plain inside flagged)] at flagged
  cases flagged

/-! ## The export -/

theorem exportMtraceDocument_serverCommand {codec : Codec} {db : Database} {sessionId : String}
    {options : ExportOptions} {nowNs : Int} {exporter : String} {document : MtraceDocument} {session : SessionRow}
    (found : db.getSessionSummary sessionId = .ok session)
    (exported : exportMtraceDocument codec db sessionId options nowNs exporter = .ok document) :
    document.session.serverCommand = session.serverCommand := by
  unfold exportMtraceDocument at exported
  split_ifs at exported
  obtain ⟨summary, same, exported⟩ := bind_eq_ok_iff.1 exported
  obtain rfl := Except.ok.inj (found.symm.trans (mapError_eq_ok_iff.1 same))
  simp only [bind_eq_ok_iff, pure_eq_ok_iff] at exported
  obtain ⟨_, -, _, -, _, -, _, -, _, -, rfl⟩ := exported
  rfl

/-- A document that is refused for what it contains has been exported, and the lint has found something. -/
theorem buildValidatedArtifact_refused {codec : Codec} {encode : MtraceDocument → Except String (List UInt8)}
    {db : Database} {sessionId : String} {redact : Option String} {allowUnredacted : Bool} {nowNs : Int}
    {exporter : String} {findings : Nat}
    (refused : buildValidatedArtifact codec encode db sessionId redact allowUnredacted false nowNs exporter =
      .error (.sensitiveContent findings)) :
    ∃ force document, exportMtraceDocument codec db sessionId ⟨force, allowUnredacted⟩ nowNs exporter = .ok document ∧
      lintSensitiveContent document ≠ [] := by
  unfold buildValidatedArtifact at refused
  rcases bind_eq_error_iff.1 refused with unknown | ⟨force, -, refused⟩
  · unfold forceDefaultRedaction at unknown
    split at unknown <;> cases unknown
  split_ifs at refused
  · cases refused
  rcases bind_eq_error_iff.1 refused with missing | ⟨_, -, refused⟩
  · obtain ⟨_, -, impossible⟩ := mapError_eq_error_iff.1 missing
    cases impossible
  rcases bind_eq_error_iff.1 refused with failed | ⟨document, exported, refused⟩
  · obtain ⟨_, -, impossible⟩ := mapError_eq_error_iff.1 failed
    cases impossible
  refine ⟨force, document, mapError_eq_ok_iff.1 exported, fun clean => ?_⟩
  rcases bind_eq_error_iff.1 refused with gated | ⟨_, -, refused⟩
  · rw [lintGate, if_pos (.inl clean)] at gated
    cases gated
  rcases bind_eq_error_iff.1 refused with unencoded | ⟨_, -, impossible⟩
  · obtain ⟨_, -, impossible⟩ := mapError_eq_error_iff.1 unencoded
    cases impossible
  · cases impossible

/-- If the command is not flagged, a message is. -/
theorem message_of_refused {document : MtraceDocument} (flagged : lintSensitiveContent document ≠ [])
    (silent : isCommandSecret document.session.serverCommand = false) :
    ∃ message ∈ document.messages, sensitiveContentLint message.payload none ≠ [] := by
  by_contra clean
  push Not at clean
  refine flagged ?_
  have command : sensitiveContentLint .null (some document.session.serverCommand) = [] := by
    change List.destutter _ (List.insertionSort _ (commandFindings document.session.serverCommand)) = []
    rw [commandFindings, silent]
    rfl
  rw [lintSensitiveContent, command, List.append_nil, List.flatMap_eq_nil_iff]
  intro message member
  rw [clean message member, List.map_nil]

/-- The stored command passes the lint exactly if no argument that is shown leaves a placeholder for the value of a
name that the lint looks for. -/
theorem passes_lint_iff (serverArgs : List String) :
    PassesLint serverArgs ↔ ∀ arg ∈ shownArguments false serverArgs, leavesPlaceholder arg = false := by
  refine ⟨fun passes => (placeholders_iff serverArgs).1 passes.placeholders, fun none => ?_⟩
  have placeholders := (placeholders_iff serverArgs).2 none
  refine ⟨placeholders, fun unspaced value finding found category => ?_, ?_⟩
  · have secret := (reports_commandSecret_iff value _).1 ⟨finding, found, category⟩
    rw [isCommandSecret_unspaced unspaced placeholders] at secret
    cases secret
  · intro unspaced codec encode db sessionId redact allowUnredacted nowNs exporter session findings found command
      refused
    obtain ⟨force, document, exported, flagged⟩ := buildValidatedArtifact_refused refused
    refine ⟨force, document, exported, message_of_refused flagged ?_⟩
    rw [exportMtraceDocument_serverCommand found exported, command]
    exact isCommandSecret_unspaced unspaced placeholders

/-- The value of a flag is masked as it is stored, and the lint finds its name. -/
theorem masked_flag_reported : ¬ PassesLint ["server", "--api-key=sk-live"] := by
  intro passes
  have leaves := (placeholders_iff _).1 passes.placeholders "--api-key=sk-live" (by decide +kernel)
  revert leaves
  decide +kernel

end McpTracer.Proxy
