import McpTracer.Foundation.Xml
import McpTracer.Model.Assertions

/-! The outcomes of assertions for the readers of a build.

JUnit takes an XML document with one test case for each outcome, GitHub one line for each. Both texts hold
descriptions and reasons with parts of what was recorded.
-/

set_option autoImplicit false

namespace McpTracer.Proxy.CiFormats
open McpTracer.Foundation McpTracer.Model

def escapeXmlChar (c : Char) : List Char :=
  if c = '&' then "&amp;".toList
  else if c = '<' then "&lt;".toList
  else if c = '>' then "&gt;".toList
  else if c = '"' then "&quot;".toList
  else if c = '\'' then "&apos;".toList
  else [c]

def escapeXml (input : String) : String := String.ofList (input.toList.flatMap escapeXmlChar)

/-- The reason that is shown for a failure. -/
def shownReason (result : AssertionResult) : String := result.reason.getD "assertion failed"

def junitFailure (result : AssertionResult) : String :=
  if result.passed then "" else "    <failure message=\"" ++ escapeXml (shownReason result) ++ "\"/>\n"

def junitCase (result : AssertionResult) : String :=
  "  <testcase name=\"" ++ escapeXml result.description ++ "\" classname=\"mcptracer.assert\">\n" ++
    junitFailure result ++ "  </testcase>\n"

def failures (results : List AssertionResult) : Nat := results.countP fun result => !result.passed

def assertionResultsToJunit (results : List AssertionResult) (suiteName : String) : String :=
  "<?xml version=\"1.0\" encoding=\"UTF-8\"?>\n" ++ "<testsuite name=\"" ++ escapeXml suiteName ++ "\" tests=\"" ++
    toString results.length ++ "\" failures=\"" ++ toString (failures results) ++ "\">\n" ++
    String.join (results.map junitCase) ++ "</testsuite>\n"

def replaceChar (c : Char) (text : List Char) (input : List Char) : List Char :=
  input.flatMap fun d => if d = c then text else [d]

def githubEscape (input : String) : String :=
  String.ofList (replaceChar '\n' "%0A".toList (replaceChar '\r' "%0D".toList
    (replaceChar '%' "%25".toList input.toList)))

def githubLine (result : AssertionResult) : String :=
  if result.passed then "::notice::PASS " ++ githubEscape result.description ++ "\n"
  else "::error::FAIL " ++ githubEscape result.description ++ " - " ++ githubEscape (shownReason result) ++ "\n"

def assertionResultsToGithubAnnotations (results : List AssertionResult) : String :=
  String.join (results.map githubLine)

/-! ## What the readers are told -/

/-- A test case tells an outcome. -/
structure TellsCase (result : AssertionResult) (testcase : Xml.Node) : Prop where
  name : testcase.name = "testcase".toList
  description : testcase.valueOf "name".toList = some result.description.toList
  passed : result.passed = true → testcase.elements = []
  failed : result.passed = false → ∃ failure, testcase.elements = [failure] ∧ failure.name = "failure".toList ∧
    failure.valueOf "message".toList = some (shownReason result).toList

/-- A document is well formed, and tells all outcomes and how many there are. -/
def JunitTells (results : List AssertionResult) (text : String) : Prop :=
  ∃ suite, Xml.parse text = some suite ∧ suite.name = "testsuite".toList ∧
    suite.valueOf "tests".toList = some (toString results.length).toList ∧
    suite.valueOf "failures".toList = some (toString (failures results)).toList ∧
    List.Forall₂ TellsCase results suite.elements

/-- How the message of a workflow command is read. -/
def githubUnescape : List Char → List Char
  | [] => []
  | '%' :: '2' :: '5' :: rest => '%' :: githubUnescape rest
  | '%' :: '0' :: 'D' :: rest => '\r' :: githubUnescape rest
  | '%' :: '0' :: 'A' :: rest => '\n' :: githubUnescape rest
  | c :: rest => c :: githubUnescape rest

/-- An outcome as a line tells it. -/
def lineTold (result : AssertionResult) : String :=
  if result.passed then "::notice::PASS " ++ result.description
  else "::error::FAIL " ++ result.description ++ " - " ++ shownReason result

/-- A text is one line for each outcome, and each is read as what it tells. -/
def AnnotationsTell (results : List AssertionResult) (text : String) : Prop :=
  ∃ lines : List (List Char), text.toList = lines.flatMap (· ++ ['\n']) ∧
    (∀ line ∈ lines, '\n' ∉ line ∧ '\r' ∉ line) ∧
    List.Forall₂ (fun result line => githubUnescape line = (lineTold result).toList) results lines

/-- Every character may stand in a document, and in the value of an attribute it is read as itself. -/
def Verbatim (text : String) : Prop :=
  ∀ c ∈ text.toList, Xml.isXmlChar c = true ∧ c ≠ '\t' ∧ c ≠ '\n' ∧ c ≠ '\r'

/-! ## Annotations -/

def githubEscapeChar (c : Char) : List Char :=
  if c = '%' then "%25".toList
  else if c = '\r' then "%0D".toList
  else if c = '\n' then "%0A".toList
  else [c]

/-- What one replacement writes is left alone by the next. -/
theorem githubEscape_toList (input : String) :
    (githubEscape input).toList = input.toList.flatMap githubEscapeChar := by
  rw [githubEscape, String.toList_ofList, replaceChar, replaceChar, replaceChar, List.flatMap_assoc,
    List.flatMap_assoc]
  refine List.flatMap_congr fun c _ => ?_
  rw [githubEscapeChar]
  by_cases percent : c = '%'
  · rw [if_pos percent, if_pos percent]
    decide
  · rw [if_neg percent, if_neg percent, List.flatMap_singleton]
    by_cases carriage : c = '\r'
    · rw [if_pos carriage, if_pos carriage]
      decide
    · rw [if_neg carriage, if_neg carriage, List.flatMap_singleton]

theorem githubUnescape_cons {c : Char} (other : c ≠ '%') (rest : List Char) :
    githubUnescape (c :: rest) = c :: githubUnescape rest := by
  rw [githubUnescape] <;> exact fun _ percent => absurd percent other

theorem githubUnescape_plain {first : List Char} (plain : '%' ∉ first) (rest : List Char) :
    githubUnescape (first ++ rest) = first ++ githubUnescape rest := by
  induction first with
  | nil => rfl
  | cons c first ih =>
    obtain ⟨other, plain⟩ := not_or.1 (List.mem_cons.not.1 plain)
    rw [List.cons_append, githubUnescape_cons (Ne.symm other), ih plain, List.cons_append]

theorem githubUnescape_escape (text rest : List Char) :
    githubUnescape (text.flatMap githubEscapeChar ++ rest) = text ++ githubUnescape rest := by
  induction text with
  | nil => rfl
  | cons c text ih =>
    rw [List.flatMap_cons, List.append_assoc, List.cons_append, ← ih, githubEscapeChar]
    by_cases percent : c = '%'
    · subst percent
      rfl
    · rw [if_neg percent]
      split_ifs with carriage feed
      · subst carriage
        rfl
      · subst feed
        rfl
      · exact githubUnescape_cons percent _

theorem not_mem_githubEscape (text : List Char) :
    '\n' ∉ text.flatMap githubEscapeChar ∧ '\r' ∉ text.flatMap githubEscapeChar := by
  have each (c : Char) : '\n' ∉ githubEscapeChar c ∧ '\r' ∉ githubEscapeChar c := by
    rw [githubEscapeChar]
    split_ifs with percent carriage feed
    · decide
    · decide
    · decide
    · simp only [List.mem_singleton]
      exact ⟨Ne.symm feed, Ne.symm carriage⟩
  simp only [List.mem_flatMap, not_exists, not_and]
  exact ⟨fun c _ => (each c).1, fun c _ => (each c).2⟩

/-- A line without its end. -/
def lineChars (result : AssertionResult) : List Char :=
  if result.passed then "::notice::PASS ".toList ++ result.description.toList.flatMap githubEscapeChar
  else "::error::FAIL ".toList ++ (result.description.toList.flatMap githubEscapeChar ++
    (" - ".toList ++ (shownReason result).toList.flatMap githubEscapeChar))

theorem githubLine_toList (result : AssertionResult) : (githubLine result).toList = lineChars result ++ ['\n'] := by
  rw [githubLine, lineChars]
  split_ifs
  · rw [String.toList_append, String.toList_append, githubEscape_toList]
    rfl
  · simp only [String.toList_append, githubEscape_toList, List.append_assoc]
    rfl

theorem annotations_tell (results : List AssertionResult) :
    AnnotationsTell results (assertionResultsToGithubAnnotations results) := by
  refine ⟨results.map lineChars, ?_, ?_, ?_⟩
  · rw [assertionResultsToGithubAnnotations, String.toList_join, List.flatMap_map, List.flatMap_map]
    exact List.flatMap_congr fun result _ => githubLine_toList result
  · simp only [List.forall_mem_map]
    intro result _
    obtain ⟨description, reason⟩ := And.intro (not_mem_githubEscape result.description.toList)
      (not_mem_githubEscape (shownReason result).toList)
    rw [lineChars]
    split_ifs
    · exact ⟨by simp [description.1], by simp [description.2]⟩
    · exact ⟨by simp [description.1, reason.1], by simp [description.2, reason.2]⟩
  · rw [List.forall₂_map_right_iff, List.forall₂_same]
    intro result _
    rw [lineChars, lineTold]
    split_ifs
    · rw [githubUnescape_plain (by decide), ← List.append_nil (List.flatMap _ _), githubUnescape_escape,
        String.toList_append, githubUnescape, List.append_nil]
    · rw [githubUnescape_plain (by decide), githubUnescape_escape, githubUnescape_plain (by decide),
        ← List.append_nil (List.flatMap githubEscapeChar (shownReason result).toList), githubUnescape_escape,
        githubUnescape, List.append_nil]
      simp only [String.toList_append, List.append_assoc]

/-! ## The document -/

theorem escapeXmlChar_cases (c : Char) : c ∈ ['&', '<', '>', '"', '\''] ∨
    escapeXmlChar c = [c] ∧ c ≠ '&' ∧ c ≠ '<' ∧ c ≠ '"' := by
  by_cases special : c ∈ ['&', '<', '>', '"', '\'']
  · exact .inl special
  · simp only [List.mem_cons, List.not_mem_nil, or_false, not_or] at special
    obtain ⟨ampersand, less, greater, quotation, apostrophe⟩ := special
    refine .inr ⟨?_, ampersand, less, quotation⟩
    rw [escapeXmlChar, if_neg ampersand, if_neg less, if_neg greater, if_neg quotation, if_neg apostrophe]

theorem writesValue_escapeXmlChar : Xml.WritesValue escapeXmlChar where
  lineFeed := by decide
  carriageReturn := by decide
  others c feed carriage := by
    rcases escapeXmlChar_cases c with special | ⟨single, -⟩
    · simp only [List.mem_cons, List.not_mem_nil, or_false] at special
      rcases special with rfl | rfl | rfl | rfl | rfl <;> decide
    · rw [single]
      simp only [List.mem_singleton]
      exact ⟨List.cons_ne_nil _ _, Ne.symm feed, Ne.symm carriage⟩
  reads name attributes key value stack root c := by
    rcases escapeXmlChar_cases c with special | ⟨single, ampersand, less, quotation⟩
    · simp only [List.mem_cons, List.not_mem_nil, or_false] at special
      rcases special with rfl | rfl | rfl | rfl | rfl <;> rfl
    · rw [single, Xml.run, List.foldlM_cons]
      cases known : Xml.isXmlChar c with
      | false =>
        rw [Xml.step_eq_none known]
        rfl
      | true =>
        rw [Xml.step, known]
        simp [ampersand, less, quotation]

/-- Every character of what is shown of an outcome may stand in a document. -/
def known (result : AssertionResult) : Bool :=
  result.description.toList.all Xml.isXmlChar && (result.passed || (shownReason result).toList.all Xml.isXmlChar)

def failureNodes (result : AssertionResult) : List Xml.Node :=
  if result.passed then []
  else "    ".toList.map .char ++ [.element "failure".toList
    [("message".toList, Xml.attributeValue (shownReason result).toList)] [], .char '\n']

def caseNode (result : AssertionResult) : Xml.Node :=
  .element "testcase".toList [("name".toList, Xml.attributeValue result.description.toList),
    ("classname".toList, "mcptracer.assert".toList)] (.char '\n' :: failureNodes result ++ "  ".toList.map .char)

/-- What the loop adds to the children of the suite. -/
def caseNodes (result : AssertionResult) : List Xml.Node := [.char ' ', .char ' ', caseNode result, .char '\n']

theorem escapeXml_toList (input : String) : (escapeXml input).toList = input.toList.flatMap escapeXmlChar := by
  rw [escapeXml, String.toList_ofList]

theorem junitFailure_toList {result : AssertionResult} (failed : result.passed = false) :
    (junitFailure result).toList = "    <failure message=\"".toList ++
      ((shownReason result).toList.flatMap escapeXmlChar ++ "\"/>\n".toList) := by
  rw [junitFailure, failed, if_neg Bool.false_ne_true]
  simp only [String.toList_append, escapeXml_toList, List.append_assoc]

theorem junitCase_toList (result : AssertionResult) : (junitCase result).toList = "  <testcase name=\"".toList ++
    (result.description.toList.flatMap escapeXmlChar ++ ("\" classname=\"mcptracer.assert\">\n".toList ++
      ((junitFailure result).toList ++ "  </testcase>\n".toList))) := by
  unfold junitCase
  simp only [String.toList_append, escapeXml_toList, List.append_assoc]

theorem read_failure (result : AssertionResult) (parent : Xml.Unclosed) (stack : List Xml.Unclosed)
    (rest : List Char) :
    Xml.read ⟨.content 0, parent :: stack, none⟩ ((junitFailure result).toList ++ rest) =
      if result.passed || (shownReason result).toList.all Xml.isXmlChar then
        Xml.read ⟨.content 0, parent.add (failureNodes result) :: stack, none⟩ rest
      else none := by
  cases passed : result.passed with
  | true =>
    rw [junitFailure, failureNodes, passed, Xml.Unclosed.add]
    simp
  | false =>
    have opens : Xml.run ⟨.content 0, parent :: stack, none⟩ "    <failure message=\"".toList =
        some ⟨.value ⟨some "failure".toList, []⟩ "message".toList '"' [],
          (((parent.add [.char ' ']).add [.char ' ']).add [.char ' ']).add [.char ' '] :: stack, none⟩ := rfl
    have closes (parent : Xml.Unclosed) (value : List Char) :
        Xml.run ⟨.value ⟨some "failure".toList, []⟩ "message".toList '"' value, parent :: stack, none⟩
          "\"/>\n".toList = some ⟨.content 0, (parent.add [.element "failure".toList
            [("message".toList, value)] []]).add [.char '\n'] :: stack, none⟩ := rfl
    rw [junitFailure_toList passed, List.append_assoc, Xml.read_literal (by decide), opens, Option.bind_some,
      List.append_assoc, writesValue_escapeXmlChar.read_flatMap (by decide), Xml.read_literal (by decide), closes,
      Option.bind_some, failureNodes, passed]
    simp only [Xml.Unclosed.add_add]
    rfl

theorem read_case (result : AssertionResult) (suite : Xml.Unclosed) (rest : List Char) :
    Xml.read ⟨.content 0, [suite], none⟩ ((junitCase result).toList ++ rest) =
      if known result then Xml.read ⟨.content 0, [suite.add (caseNodes result)], none⟩ rest else none := by
  have opens : Xml.run ⟨.content 0, [suite], none⟩ "  <testcase name=\"".toList =
      some ⟨.value ⟨some "testcase".toList, []⟩ "name".toList '"' [],
        [(suite.add [.char ' ']).add [.char ' ']], none⟩ := rfl
  have described (suite : Xml.Unclosed) (value : List Char) :
      Xml.run ⟨.value ⟨some "testcase".toList, []⟩ "name".toList '"' value, [suite], none⟩
        "\" classname=\"mcptracer.assert\">\n".toList =
          some ⟨.content 0, [⟨"testcase".toList, [("name".toList, value), ("classname".toList,
            "mcptracer.assert".toList)], [.char '\n']⟩, suite], none⟩ := rfl
  have closes (suite : Xml.Unclosed) (attributes : Xml.Attributes) (children : List Xml.Node) :
      Xml.run ⟨.content 0, [⟨"testcase".toList, attributes, children⟩, suite], none⟩ "  </testcase>\n".toList =
        some ⟨.content 0, [(suite.add [.element "testcase".toList attributes
          (children ++ [.char ' '] ++ [.char ' '])]).add [.char '\n']], none⟩ := rfl
  rw [junitCase_toList, List.append_assoc, Xml.read_literal (by decide), opens, Option.bind_some, List.append_assoc,
    List.append_assoc, writesValue_escapeXmlChar.read_flatMap (by decide), known]
  cases result.description.toList.all Xml.isXmlChar with
  | false => rfl
  | true =>
    rw [if_pos rfl, Bool.true_and, Xml.read_literal (by decide), described, Option.bind_some, List.append_assoc,
      read_failure]
    split_ifs
    · rw [Xml.read_literal (by decide), Xml.Unclosed.add, closes, Option.bind_some, List.append_assoc]
      simp only [Xml.Unclosed.add_add]
      rfl
    · rfl

theorem read_cases (results : List AssertionResult) (suite : Xml.Unclosed) (rest : List Char) :
    Xml.read ⟨.content 0, [suite], none⟩ (results.flatMap (fun result => (junitCase result).toList) ++ rest) =
      if results.all known then Xml.read ⟨.content 0, [suite.add (results.flatMap caseNodes)], none⟩ rest
      else none := by
  induction results generalizing suite with
  | nil => rw [List.flatMap_nil, List.flatMap_nil, Xml.Unclosed.add, List.append_nil]; rfl
  | cons result results ih =>
    rw [List.flatMap_cons, List.append_assoc, read_case, List.all_cons, List.flatMap_cons]
    cases known result with
    | false => rfl
    | true => rw [if_pos rfl, ih, Xml.Unclosed.add_add, Bool.true_and]

theorem mem_digits {c : Char} (digit : c.isDigit = true) : c ∈ "0123456789".toList := by
  have bounds : 48 ≤ c.toNat ∧ c.toNat ≤ 57 := by
    simpa [Char.isDigit, UInt32.le_iff_toNat_le] using digit
  have same : c = Char.ofNat c.toNat := (Char.ofNat_toNat c).symm
  obtain ⟨lower, upper⟩ := bounds
  rw [same]
  interval_cases c.toNat <;> decide

/-- A decimal numeral is written as it is, and read as it is. -/
theorem digits_kept (n : Nat) : (toString n).toList.flatMap escapeXmlChar = (toString n).toList ∧
    (toString n).toList.all Xml.isXmlChar = true ∧ Xml.attributeValue (toString n).toList = (toString n).toList := by
  have digits : ∀ c ∈ (toString n).toList, c ∈ "0123456789".toList := by
    intro c member
    have shown : (toString n).toList = Nat.toDigits 10 n := Nat.toList_repr
    rw [shown] at member
    exact mem_digits (Nat.isDigit_of_mem_toDigits (by decide) (by decide) member)
  have plain : ("0123456789".toList.all fun c => escapeXmlChar c == [c] && Xml.isXmlChar c &&
      (c != '\t' && c != '\n' && c != '\r')) = true := by decide
  have each (c : Char) (member : c ∈ (toString n).toList) : escapeXmlChar c = [c] ∧ Xml.isXmlChar c = true ∧
      c ≠ '\t' ∧ c ≠ '\n' ∧ c ≠ '\r' := by
    simpa [and_assoc] using List.all_eq_true.1 plain c (digits c member)
  refine ⟨?_, ?_, ?_⟩
  · exact (List.flatMap_congr fun c member => (each c member).1).trans (List.flatMap_singleton' _)
  · exact List.all_eq_true.2 fun c member => (each c member).2.1
  · exact Xml.attributeValue_eq_self_iff.2 fun c member => (each c member).2.2

theorem junit_toList (results : List AssertionResult) (suiteName : String) :
    (assertionResultsToJunit results suiteName).toList = "<?xml version=\"1.0\" encoding=\"UTF-8\"?>\n".toList ++
      ("<testsuite name=\"".toList ++ (suiteName.toList.flatMap escapeXmlChar ++ ("\" tests=\"".toList ++
        ((toString results.length).toList.flatMap escapeXmlChar ++ ("\" failures=\"".toList ++
          ((toString (failures results)).toList.flatMap escapeXmlChar ++ ("\">\n".toList ++
            (results.flatMap (fun result => (junitCase result).toList) ++ "</testsuite>\n".toList)))))))) := by
  unfold assertionResultsToJunit
  simp only [String.toList_append, escapeXml_toList, (digits_kept _).1, String.toList_join, List.flatMap_map,
    List.append_assoc]

/-- The root of the document that is read. -/
def suiteNode (results : List AssertionResult) (suiteName : String) : Xml.Node :=
  .element "testsuite".toList [("name".toList, Xml.attributeValue suiteName.toList),
    ("tests".toList, (toString results.length).toList), ("failures".toList, (toString (failures results)).toList)]
    (.char '\n' :: results.flatMap caseNodes)

theorem parse_junit (results : List AssertionResult) (suiteName : String) :
    Xml.parse (assertionResultsToJunit results suiteName) =
      if suiteName.toList.all Xml.isXmlChar && results.all known then some (suiteNode results suiteName) else none := by
  have declares : Xml.run .initial "<?xml version=\"1.0\" encoding=\"UTF-8\"?>\n".toList =
      some ⟨.content 0, [], none⟩ := by rfl
  have opens : Xml.run ⟨.content 0, [], none⟩ "<testsuite name=\"".toList =
      some ⟨.value ⟨some "testsuite".toList, []⟩ "name".toList '"' [], [], none⟩ := rfl
  have named (value : List Char) : Xml.run ⟨.value ⟨some "testsuite".toList, []⟩ "name".toList '"' value, [], none⟩
      "\" tests=\"".toList = some ⟨.value ⟨some "testsuite".toList, [("name".toList, value)]⟩ "tests".toList '"' [],
        [], none⟩ := rfl
  have counted (first second : List Char) :
      Xml.run ⟨.value ⟨some "testsuite".toList, [("name".toList, first)]⟩ "tests".toList '"' second, [], none⟩
        "\" failures=\"".toList = some ⟨.value ⟨some "testsuite".toList, [("name".toList, first),
          ("tests".toList, second)]⟩ "failures".toList '"' [], [], none⟩ := rfl
  have begins (first second third : List Char) :
      Xml.run ⟨.value ⟨some "testsuite".toList, [("name".toList, first), ("tests".toList, second)]⟩
        "failures".toList '"' third, [], none⟩ "\">\n".toList =
          some ⟨.content 0, [⟨"testsuite".toList, [("name".toList, first), ("tests".toList, second),
            ("failures".toList, third)], [.char '\n']⟩], none⟩ := rfl
  have closes (attributes : Xml.Attributes) (children : List Xml.Node) :
      Xml.run ⟨.content 0, [⟨"testsuite".toList, attributes, children⟩], none⟩ "</testsuite>\n".toList =
        some ⟨.content 0, [], some (.element "testsuite".toList attributes children)⟩ := rfl
  rw [Xml.parse, junit_toList, Xml.read_literal (by decide), declares, Option.bind_some,
    Xml.read_literal (by decide), opens, Option.bind_some, writesValue_escapeXmlChar.read_flatMap (by decide)]
  cases suiteName.toList.all Xml.isXmlChar with
  | false => rfl
  | true =>
    rw [if_pos rfl, Xml.read_literal (by decide), named, Option.bind_some,
      writesValue_escapeXmlChar.read_flatMap (by decide), (digits_kept _).2.1, if_pos rfl, (digits_kept _).2.2,
      Xml.read_literal (by decide), counted, Option.bind_some,
      writesValue_escapeXmlChar.read_flatMap (by decide), (digits_kept _).2.1, if_pos rfl, (digits_kept _).2.2,
      Xml.read_literal (by decide), begins, Option.bind_some, read_cases, Bool.true_and]
    cases results.all known with
    | false => rfl
    | true =>
      rw [if_pos rfl, if_pos rfl, ← List.append_nil "</testsuite>\n".toList, Xml.read_literal (by decide),
        Xml.Unclosed.add, closes, Option.bind_some]
      rfl

/-! ## When the document tells the outcomes -/

theorem elements_caseNode (result : AssertionResult) : (caseNode result).elements =
    if result.passed then [] else [.element "failure".toList
      [("message".toList, Xml.attributeValue (shownReason result).toList)] []] := by
  rw [caseNode, failureNodes]
  cases result.passed <;> rfl

theorem elements_suiteNode (results : List AssertionResult) (suiteName : String) :
    (suiteNode results suiteName).elements = results.map caseNode := by
  have cases_ : (results.flatMap caseNodes).filter Xml.Node.isElement = results.map caseNode := by
    induction results with
    | nil => rfl
    | cons result results ih =>
      rw [List.flatMap_cons, List.filter_append, ih]
      rfl
  exact cases_

theorem tellsCase_caseNode_iff {result : AssertionResult} : TellsCase result (caseNode result) ↔
    Xml.attributeValue result.description.toList = result.description.toList ∧
      (result.passed = false → Xml.attributeValue (shownReason result).toList = (shownReason result).toList) := by
  constructor
  · rintro ⟨-, description, -, failed⟩
    refine ⟨Option.some.inj description, fun failing => ?_⟩
    obtain ⟨failure, only, -, message⟩ := failed failing
    rw [elements_caseNode, failing, if_neg Bool.false_ne_true, List.singleton_inj] at only
    rw [← only] at message
    exact Option.some.inj message
  · rintro ⟨description, reason⟩
    refine ⟨rfl, congrArg some description, fun passing => ?_, fun failing => ?_⟩
    · rw [elements_caseNode, passing, if_pos rfl]
    · have only := elements_caseNode result
      rw [failing, if_neg Bool.false_ne_true] at only
      exact ⟨_, only, rfl, congrArg some (reason failing)⟩

theorem verbatim_iff {text : String} : Verbatim text ↔
    text.toList.all Xml.isXmlChar = true ∧ Xml.attributeValue text.toList = text.toList := by
  rw [Xml.attributeValue_eq_self_iff, List.all_eq_true, ← forall₂_and]
  rfl

/-- The line for GitHub always tells its outcome. The document does when every character of a shown text may
stand in it and is read from the value of an attribute as itself. -/
theorem ci_renderings_tell_iff (results : List AssertionResult) (suiteName : String) :
    JunitTells results (assertionResultsToJunit results suiteName) ∧
        AnnotationsTell results (assertionResultsToGithubAnnotations results) ↔
      (∀ c ∈ suiteName.toList, Xml.isXmlChar c = true) ∧ ∀ result ∈ results,
        Verbatim result.description ∧ (result.passed = false → Verbatim (shownReason result)) := by
  rw [and_iff_left (annotations_tell results)]
  constructor
  · rintro ⟨suite, parsed, -, -, -, tells⟩
    rw [parse_junit] at parsed
    split_ifs at parsed with readable
    · obtain rfl := Option.some.inj parsed
      obtain ⟨suiteKnown, casesKnown⟩ := Bool.and_eq_true_iff.1 readable
      rw [elements_suiteNode, List.forall₂_map_right_iff, List.forall₂_same] at tells
      refine ⟨List.all_eq_true.1 suiteKnown, fun result member => ?_⟩
      obtain ⟨description, reason⟩ := tellsCase_caseNode_iff.1 (tells result member)
      obtain ⟨descriptionKnown, reasonKnown⟩ := Bool.and_eq_true_iff.1 (List.all_eq_true.1 casesKnown result member)
      refine ⟨verbatim_iff.2 ⟨descriptionKnown, description⟩, fun failing => ?_⟩
      rw [failing, Bool.false_or] at reasonKnown
      exact verbatim_iff.2 ⟨reasonKnown, reason failing⟩
  · rintro ⟨suiteKnown, verbatim⟩
    have readable : (suiteName.toList.all Xml.isXmlChar && results.all known) = true := by
      refine Bool.and_eq_true_iff.2 ⟨List.all_eq_true.2 suiteKnown, List.all_eq_true.2 fun result member => ?_⟩
      obtain ⟨description, reason⟩ := verbatim result member
      rw [known, (verbatim_iff.1 description).1, Bool.true_and]
      cases passed : result.passed with
      | true => rfl
      | false => exact (verbatim_iff.1 (reason passed)).1
    refine ⟨suiteNode results suiteName, by rw [parse_junit, if_pos readable], rfl, rfl, rfl, ?_⟩
    rw [elements_suiteNode, List.forall₂_map_right_iff, List.forall₂_same]
    exact fun result member => tellsCase_caseNode_iff.2 ⟨(verbatim_iff.1 (verbatim result member).1).2,
      fun failing => (verbatim_iff.1 ((verbatim result member).2 failing)).2⟩

/-- A reason that a server coloured for a terminal. -/
def coloured : AssertionResult := ⟨"no errors", false, some "\x1b[31mrefused"⟩

/-- The document for this reason is not well formed: it holds the escape character as it is. -/
theorem junit_coloured_unreadable : ¬(JunitTells [coloured] (assertionResultsToJunit [coloured] "sess-1") ∧
    AnnotationsTell [coloured] (assertionResultsToGithubAnnotations [coloured])) := by
  rintro ⟨⟨suite, parsed, -⟩, -⟩
  have refused : ("sess-1".toList.all Xml.isXmlChar && [coloured].all known) = false := by decide
  rw [parse_junit, refused] at parsed
  cases parsed

end McpTracer.Proxy.CiFormats
