import McpTracer.Foundation.Ascent
import Mathlib.Data.List.DropRight

/-! The URL a request is forwarded to: the path of the request below the path of the configured target.

The proxy joins the two paths as text. The URL it sets the joined path on reads this text again, with its
own notion of segments: a backslash parts them as a slash does, and a dot may be percent-encoded.
-/

set_option autoImplicit false

namespace McpTracer.Proxy
open McpTracer.Foundation

/-! ## Text of a URL -/

def isSlash (c : Char) : Bool := c = '/' || c = '\\'

def isTabOrNewline (c : Char) : Bool := c = '\t' || c = '\n' || c = '\r'

/-- The path percent-encode set: controls, what is not ASCII, and ten characters more. -/
def inPathSet (c : Char) : Bool :=
  c.toNat < 0x20 || 0x7e < c.toNat ||
    [0x20, 0x22, 0x23, 0x3c, 0x3e, 0x3f, 0x5e, 0x60, 0x7b, 0x7d].contains c.toNat

/-- The special-query percent-encode set. -/
def inSpecialQuerySet (c : Char) : Bool :=
  c.toNat < 0x20 || 0x7e < c.toNat || [0x20, 0x22, 0x23, 0x27, 0x3c, 0x3e].contains c.toNat

def hexDigit (n : Nat) : Char := if n < 10 then Char.ofNat (0x30 + n) else Char.ofNat (0x37 + n)

def percentEncodeByte (byte : UInt8) : List Char := ['%', hexDigit (byte.toNat / 16), hexDigit (byte.toNat % 16)]

def utf8PercentEncode (set : Char → Bool) (text : List Char) : List Char :=
  text.flatMap fun c => if set c then (String.utf8EncodeChar c).flatMap percentEncodeByte else [c]

def isSingleDot (segment : List Char) : Bool :=
  [".".toList, "%2e".toList].contains (segment.map Char.toLower)

def isDoubleDot (segment : List Char) : Bool :=
  ["..".toList, ".%2e".toList, "%2e.".toList, "%2e%2e".toList].contains (segment.map Char.toLower)

/-- What stands between two slashes in the path of a URL. -/
structure IsSegment (text : List Char) : Prop where
  plain : ∀ c ∈ text, inPathSet c = false ∧ isSlash c = false
  notSingle : isSingleDot text = false
  notDouble : isDoubleDot text = false

inductive UrlScheme where
  | http
  | https
  deriving DecidableEq

/-- A URL of one of the two schemes; its path has at least one segment, which may be empty. -/
structure Url where
  scheme : UrlScheme
  username : String
  password : Option String
  host : Option String
  port : Option Nat
  path : List (List Char)
  query : Option (List Char)
  fragment : Option (List Char)
  nonempty : path ≠ []
  segments : ∀ segment ∈ path, IsSegment segment

/-- What the URL parser returns. Of other schemes nothing is read but that they are other schemes. -/
inductive ParsedUrl where
  | web (url : Url)
  | other (scheme : String)

/-! ## Setting a path -/

def dropSlash : List Char → List Char
  | [] => []
  | c :: rest => if isSlash c then rest else c :: rest

/-- The segments of a text, before any dot is read. -/
def pathBuffers (text : List Char) : List (List Char) :=
  ((dropSlash (text.filter fun c => !isTabOrNewline c)).splitOnP isSlash).map (utf8PercentEncode inPathSet)

def segmentStep (buffer : List Char) : PathStep (List Char) :=
  if isDoubleDot buffer then .up else if isSingleDot buffer then .stay else .down buffer

/-- A path that ends with dots ends with a slash. -/
def pathSteps (buffers : List (List Char)) : List (PathStep (List Char)) :=
  buffers.map segmentStep ++
    if buffers.getLast?.any fun last => isDoubleDot last || isSingleDot last then [.down []] else []

def parsePath (text : List Char) : List (List Char) := walkFrom [] (pathSteps (pathBuffers text))

theorem isSegment_nil : IsSegment [] where
  plain := by simp
  notSingle := by decide +kernel
  notDouble := by decide +kernel

theorem hexDigit_plain : ∀ n < 16, inPathSet (hexDigit n) = false ∧ isSlash (hexDigit n) = false := by
  decide +kernel

theorem percentEncodeByte_plain {byte : UInt8} {c : Char} (member : c ∈ percentEncodeByte byte) :
    inPathSet c = false ∧ isSlash c = false := by
  have small : byte.toNat < 256 := byte.toNat_lt
  simp only [percentEncodeByte, List.mem_cons, List.not_mem_nil, or_false] at member
  rcases member with rfl | rfl | rfl
  · decide +kernel
  · exact hexDigit_plain _ (by omega)
  · exact hexDigit_plain _ (by omega)

theorem utf8PercentEncode_plain {text : List Char} (unparted : ∀ c ∈ text, isSlash c = false) {c : Char}
    (member : c ∈ utf8PercentEncode inPathSet text) : inPathSet c = false ∧ isSlash c = false := by
  obtain ⟨original, inside, member⟩ := List.mem_flatMap.1 member
  cases encoded : inPathSet original with
  | true =>
    rw [encoded, if_pos rfl] at member
    obtain ⟨byte, _, member⟩ := List.mem_flatMap.1 member
    exact percentEncodeByte_plain member
  | false =>
    rw [encoded, if_neg Bool.false_ne_true, List.mem_singleton] at member
    exact member ▸ ⟨encoded, unparted original inside⟩

theorem not_isSlash_of_mem_splitOnP {text piece : List Char} (member : piece ∈ text.splitOnP isSlash) :
    ∀ c ∈ piece, isSlash c = false := by
  induction text generalizing piece with
  | nil =>
    rw [List.splitOnP_nil, List.mem_singleton] at member
    simp [member]
  | cons first rest ih =>
    rw [List.splitOnP_cons_eq_if_modifyHead] at member
    split_ifs at member with parts
    · rcases List.mem_cons.1 member with rfl | later
      · simp
      · exact ih later
    · obtain ⟨next, others, whole⟩ := List.exists_cons_of_ne_nil (List.splitOnP_ne_nil isSlash rest)
      rw [whole, List.modifyHead_cons, List.mem_cons] at member
      have nextUnparted := ih (whole ▸ List.mem_cons_self : next ∈ _)
      rcases member with rfl | later
      · simpa [parts] using nextUnparted
      · exact ih (whole ▸ List.mem_cons_of_mem next later)

theorem isSegment_of_down_mem_pathSteps {text name : List Char} (member : .down name ∈ pathSteps (pathBuffers text)) :
    IsSegment name := by
  rcases List.mem_append.1 member with inside | closing
  · obtain ⟨buffer, found, same⟩ := List.mem_map.1 inside
    obtain ⟨piece, cut, rfl⟩ := List.mem_map.1 found
    unfold segmentStep at same
    split_ifs at same with double single
    cases same
    exact ⟨fun c => utf8PercentEncode_plain (not_isSlash_of_mem_splitOnP cut), by simpa using single, by simpa using double⟩
  · split_ifs at closing with dots
    · rw [List.mem_singleton, PathStep.down.injEq] at closing
      exact closing ▸ isSegment_nil
    · cases closing

theorem pathBuffers_ne_nil (text : List Char) : pathBuffers text ≠ [] := by
  simp [pathBuffers, List.splitOnP_ne_nil]

theorem walkFrom_pathSteps_ne_nil (place : List (List Char)) {buffers : List (List Char)} (some : buffers ≠ []) :
    walkFrom place (pathSteps buffers) ≠ [] := by
  rw [pathSteps, walkFrom_append]
  split_ifs with dots
  · simp [PathStep.from]
  · -- The last segment is no dots, so the walk ends by going down into it.
    obtain ⟨others, last, rfl⟩ := List.eq_nil_or_concat' buffers |>.resolve_left some
    have lastStep : segmentStep last = .down last := by
      simp only [List.getLast?_append, List.getLast?_singleton, Option.some_or, Option.any_some, Bool.or_eq_true,
        not_or] at dots
      rw [segmentStep, if_neg dots.1, if_neg dots.2]
    simp [walkFrom_append, lastStep, PathStep.from]

/-- Only the path of the URL changes, and it stays one. -/
def Url.setPath (url : Url) (text : List Char) : Url where
  scheme := url.scheme
  username := url.username
  password := url.password
  host := url.host
  port := url.port
  path := parsePath text
  query := url.query
  fragment := url.fragment
  nonempty := walkFrom_pathSteps_ne_nil [] (pathBuffers_ne_nil text)
  segments := fun _ member => isSegment_of_down_mem_pathSteps ((mem_walkFrom member).resolve_left List.not_mem_nil)

def Url.setQuery (url : Url) (query : Option (List Char)) : Url :=
  { url with query := query.map fun text => utf8PercentEncode inSpecialQuerySet (text.filter fun c => !isTabOrNewline c) }

def Url.pathText (url : Url) : List Char := url.path.flatMap ('/' :: ·)

/-! ## The target of a request -/

def parseTarget (parse : String → Option ParsedUrl) (raw : String) : Except String Url :=
  match parse raw with
  | none => .error "--target must be an absolute URL"
  | some (.other _) => .error "--target must use the http or https scheme"
  | some (.web target) =>
    if target.host.isNone then .error "--target must include a host"
    else if target.username ≠ "" ∨ target.password.isSome ∨ target.query.isSome ∨ target.fragment.isSome then
      .error "--target cannot contain user info, query parameters, or a fragment"
    else .ok target

structure Uri where
  path : List Char
  query : Option (List Char)

def targetUrl (base : Url) (incoming : Uri) : Except String Url :=
  if (incoming.path.splitOn '/').any fun segment => segment = "..".toList then
    .error "request path cannot contain parent-directory segments"
  else
    let basePath := base.pathText.rdropWhile fun c => c = '/'
    let incomingPath := incoming.path.dropWhile fun c => c = '/'
    let path :=
      if incomingPath.isEmpty then
        if basePath.isEmpty then ['/'] else basePath
      else if basePath.isEmpty || basePath = ['/'] then '/' :: incomingPath
      else basePath ++ '/' :: incomingPath
    .ok ((base.setPath path).setQuery incoming.query)

/-! ## What the joined path is read as -/

/-- The segments of the target, but for the slashes it ends with. -/
def Url.endpoint (url : Url) : List (List Char) := url.path.rdropWhile List.isEmpty

theorem Url.endpoint_segments (url : Url) : ∀ segment ∈ url.endpoint, IsSegment segment :=
  fun segment member => url.segments segment ((List.rdropWhile_prefix _ _).mem member)

theorem IsSegment.ne_slash {segment : List Char} (formed : IsSegment segment) : ∀ c ∈ segment, c ≠ '/' := by
  rintro c member rfl
  exact absurd (formed.plain _ member).2 (by decide)

theorem rdropWhile_flatMap_slash {segments : List (List Char)} (formed : ∀ segment ∈ segments, IsSegment segment) :
    (segments.flatMap ('/' :: ·)).rdropWhile (fun c => c = '/') =
      (segments.rdropWhile List.isEmpty).flatMap ('/' :: ·) := by
  induction segments using List.reverseRecOn with
  | nil => rfl
  | append_singleton others last ih =>
    have others_formed : ∀ segment ∈ others, IsSegment segment := fun segment member =>
      formed segment (List.mem_append_left _ member)
    rw [List.flatMap_append, List.flatMap_singleton]
    cases last using List.reverseRecOn with
    | nil => simp [ih others_formed]
    | append_singleton front c =>
      have differs : c ≠ '/' := (formed _ (List.mem_append_right _ List.mem_cons_self)).ne_slash c (by simp)
      have text : others.flatMap ('/' :: ·) ++ '/' :: (front ++ [c]) =
          (others.flatMap ('/' :: ·) ++ '/' :: front) ++ [c] := by simp
      have kept : (others ++ [front ++ [c]]).rdropWhile List.isEmpty = others ++ [front ++ [c]] :=
        List.rdropWhile_concat_neg _ _ _ (by simp)
      rw [text, kept, List.flatMap_append, List.flatMap_singleton, text]
      exact List.rdropWhile_concat_neg _ _ _ (by simpa using differs)

theorem utf8PercentEncode_segment {segment : List Char} (formed : IsSegment segment) :
    utf8PercentEncode inPathSet segment = segment := by
  have plain : ∀ c ∈ segment, (if inPathSet c then (String.utf8EncodeChar c).flatMap percentEncodeByte else [c]) =
      [c] := fun c member => if_neg (by simp [(formed.plain c member).1])
  rw [utf8PercentEncode, List.flatMap_congr plain, List.flatMap_singleton']

theorem segmentStep_segment {segment : List Char} (formed : IsSegment segment) : segmentStep segment = .down segment := by
  rw [segmentStep, formed.notDouble, formed.notSingle, if_neg Bool.false_ne_true, if_neg Bool.false_ne_true]

theorem not_isTabOrNewline {c : Char} (plain : inPathSet c = false) : isTabOrNewline c = false := by
  by_contra control
  simp only [isTabOrNewline, Bool.not_eq_false, Bool.or_eq_true, decide_eq_true_eq] at control
  rcases control with (rfl | rfl) | rfl <;> revert plain <;> decide +kernel

theorem filter_segments {segments : List (List Char)} (formed : ∀ segment ∈ segments, IsSegment segment) :
    (segments.flatMap ('/' :: ·)).filter (fun c => !isTabOrNewline c) = segments.flatMap ('/' :: ·) := by
  refine List.filter_eq_self.2 fun c member => ?_
  obtain ⟨segment, found, inside⟩ := List.mem_flatMap.1 member
  rcases List.mem_cons.1 inside with rfl | inside
  · decide +kernel
  · rw [not_isTabOrNewline ((formed segment found).plain c inside).1, Bool.not_false]

theorem splitOnP_segments {segments : List (List Char)} (formed : ∀ segment ∈ segments, IsSegment segment)
    (rest : List Char) :
    (dropSlash (segments.flatMap ('/' :: ·) ++ '/' :: rest)).splitOnP isSlash = segments ++ rest.splitOnP isSlash := by
  induction segments with
  | nil => rfl
  | cons segment others ih =>
    obtain ⟨segmentFormed, othersFormed⟩ := List.forall_mem_cons.1 formed
    have onward : ∃ more, others.flatMap ('/' :: ·) ++ '/' :: rest = '/' :: more := by
      cases others <;> simp
    obtain ⟨more, whole⟩ := onward
    have joined : dropSlash ((segment :: others).flatMap ('/' :: ·) ++ '/' :: rest) = segment ++ '/' :: more := by
      rw [List.flatMap_cons, List.append_assoc, whole]
      rfl
    have further := ih othersFormed
    rw [whole] at further
    rw [joined, List.splitOnP_append_cons_of_forall_mem (fun c member => (segmentFormed.plain c member).2) '/' rfl,
      List.cons_append, ← further]
    rfl

theorem pathBuffers_join {segments : List (List Char)} (formed : ∀ segment ∈ segments, IsSegment segment)
    (rest : List Char) :
    pathBuffers (segments.flatMap ('/' :: ·) ++ '/' :: rest) = segments ++ pathBuffers ('/' :: rest) := by
  have encoded : segments.map (utf8PercentEncode inPathSet) = segments :=
    (List.map_congr_left fun segment member => utf8PercentEncode_segment (formed segment member)).trans (List.map_id' _)
  have slash : ∀ text : List Char, ('/' :: text).filter (fun c => !isTabOrNewline c) =
      '/' :: text.filter fun c => !isTabOrNewline c := fun text => rfl
  rw [pathBuffers, List.filter_append, filter_segments formed, slash, splitOnP_segments formed, List.map_append,
    encoded, pathBuffers, slash]
  rfl

theorem pathBuffers_segment {segment : List Char} (formed : IsSegment segment) :
    pathBuffers ('/' :: segment) = [segment] := by
  have kept := @filter_segments [segment] fun other member => List.mem_singleton.1 member ▸ formed
  rw [List.flatMap_singleton] at kept
  have unparted : segment.splitOnP isSlash = [segment] :=
    List.splitOnP_eq_singleton fun c member => (formed.plain c member).2
  have dropped : dropSlash ('/' :: segment) = segment := rfl
  rw [pathBuffers, kept, dropped, unparted, List.map_singleton, utf8PercentEncode_segment formed]

theorem map_segmentStep {segments : List (List Char)} (formed : ∀ segment ∈ segments, IsSegment segment) :
    segments.map segmentStep = segments.map .down :=
  List.map_congr_left fun segment member => segmentStep_segment (formed segment member)

theorem pathSteps_segments {segments : List (List Char)} (formed : ∀ segment ∈ segments, IsSegment segment) :
    pathSteps segments = segments.map .down := by
  have undotted : ¬(segments.getLast?.any fun last => isDoubleDot last || isSingleDot last) = true := by
    cases last : segments.getLast? with
    | none => simp
    | some segment =>
      have found := formed segment (List.mem_of_getLast? last)
      simp [found.notDouble, found.notSingle]
  rw [pathSteps, map_segmentStep formed, if_neg undotted, List.append_nil]

theorem pathSteps_append {segments : List (List Char)} (formed : ∀ segment ∈ segments, IsSegment segment)
    {buffers : List (List Char)} (some : buffers ≠ []) :
    pathSteps (segments ++ buffers) = segments.map .down ++ pathSteps buffers := by
  obtain ⟨others, last, rfl⟩ := (List.eq_nil_or_concat' buffers).resolve_left some
  simp [pathSteps, map_segmentStep formed]

theorem parsePath_join {segments : List (List Char)} (formed : ∀ segment ∈ segments, IsSegment segment)
    (rest : List Char) :
    parsePath (segments.flatMap ('/' :: ·) ++ '/' :: rest) =
      walkFrom segments (pathSteps (pathBuffers ('/' :: rest))) := by
  rw [parsePath, pathBuffers_join formed, pathSteps_append formed (pathBuffers_ne_nil _), walkFrom_append, walkFrom_down,
    List.nil_append]

theorem parsePath_segments {segments : List (List Char)} (formed : ∀ segment ∈ segments, IsSegment segment)
    (some : segments ≠ []) : parsePath (segments.flatMap ('/' :: ·)) = segments := by
  obtain ⟨others, last, rfl⟩ := (List.eq_nil_or_concat' segments).resolve_left some
  have othersFormed : ∀ segment ∈ others, IsSegment segment := fun segment member =>
    formed segment (List.mem_append_left _ member)
  have lastFormed : ∀ segment ∈ [last], IsSegment segment := fun segment member =>
    formed segment (List.mem_append_right _ member)
  rw [List.flatMap_append, List.flatMap_singleton, parsePath_join othersFormed,
    pathBuffers_segment (lastFormed last List.mem_cons_self), pathSteps_segments lastFormed]
  exact walkFrom_down others [last]

/-- How the path of a request is walked, from wherever it starts. -/
def Uri.steps (incoming : Uri) : List (PathStep (List Char)) :=
  let incomingPath := incoming.path.dropWhile fun c => c = '/'
  if incomingPath.isEmpty then [] else pathSteps (pathBuffers ('/' :: incomingPath))

/-- Scheme, credentials, host and port are those of the base, and the path is at its endpoint or below it. -/
structure Url.StaysAt (base target : Url) : Prop where
  scheme : target.scheme = base.scheme
  username : target.username = base.username
  password : target.password = base.password
  host : target.host = base.host
  port : target.port = base.port
  path : base.endpoint <+: target.path

/-- A path without the slashes it ends with is not a single slash. -/
theorem Url.endpoint_text_ne (url : Url) : url.endpoint.flatMap ('/' :: ·) ≠ ['/'] := by
  intro single
  cases endpoint : url.endpoint with
  | nil => simp [endpoint] at single
  | cons first others =>
    simp only [endpoint, List.flatMap_cons, List.cons_append, List.cons.injEq, true_and, List.append_eq_nil_iff,
      List.flatMap_eq_nil_iff, List.cons_ne_nil, imp_false] at single
    obtain rfl : others = [] := List.eq_nil_iff_forall_not_mem.2 single.2
    have last : ∀ some : url.endpoint ≠ [], ¬(url.endpoint.getLast some).isEmpty = true :=
      List.rdropWhile_last_not List.isEmpty url.path
    rw [endpoint] at last
    exact last (by simp) (by simp [single.1])

theorem targetUrl_path {base target : Url} {incoming : Uri} (forwarded : targetUrl base incoming = .ok target) :
    target.path = if base.endpoint = [] ∧ incoming.steps = [] then [[]] else walkFrom base.endpoint incoming.steps := by
  have trimmed : base.pathText.rdropWhile (fun c => c = '/') = base.endpoint.flatMap ('/' :: ·) :=
    rdropWhile_flatMap_slash base.segments
  have formed := base.endpoint_segments
  have notSlash := base.endpoint_text_ne
  unfold targetUrl at forwarded
  split_ifs at forwarded
  rw [trimmed] at forwarded
  cases forwarded
  change parsePath _ = _
  cases rest : incoming.path.dropWhile fun c => c = '/' with
  | nil =>
    have unmoved : incoming.steps = [] := by simp [Uri.steps, rest]
    rw [unmoved, walkFrom_nil, List.isEmpty_nil, if_pos rfl]
    cases endpoint : base.endpoint with
    | nil => decide +kernel
    | cons first others =>
      rw [endpoint] at formed
      simpa using parsePath_segments formed (by simp)
  | cons c more =>
    have moved : incoming.steps = pathSteps (pathBuffers ('/' :: c :: more)) := by simp [Uri.steps, rest]
    have some : incoming.steps ≠ [] := fun none =>
      walkFrom_pathSteps_ne_nil [] (pathBuffers_ne_nil ('/' :: c :: more)) (by rw [← moved, none, walkFrom_nil])
    have walked := parsePath_join formed (c :: more)
    have below : ¬(base.endpoint = [] ∧ incoming.steps = []) := fun both => some both.2
    rw [if_neg below, moved, ← walked]
    simp only [List.isEmpty_cons, Bool.false_eq_true, if_false, notSlash, decide_false, Bool.or_false]
    cases base.endpoint <;> rfl

/-- The guard and the joining only look at slashes, so whether the target stays depends on where the steps lead. -/
theorem target_stays_iff (parse : String → Option ParsedUrl) {raw : String} {base target : Url} {incoming : Uri}
    (_accepted : parseTarget parse raw = .ok base) (forwarded : targetUrl base incoming = .ok target) :
    base.StaysAt target ↔ (ascent incoming.steps).Reenters base.endpoint := by
  rw [← prefix_walkFrom_iff]
  have path := targetUrl_path forwarded
  have onlyPath : base.StaysAt target ↔ base.endpoint <+: target.path := by
    unfold targetUrl at forwarded
    split_ifs at forwarded
    cases forwarded
    exact ⟨Url.StaysAt.path, fun below => ⟨rfl, rfl, rfl, rfl, rfl, below⟩⟩
  rw [onlyPath, path]
  split_ifs with root
  · simp [root.1]
  · rfl

/-- Without dots for the parent, in any of their spellings, no request leaves the endpoint. -/
theorem target_stays_of_no_parent {base target : Url} {incoming : Uri} (never : PathStep.up ∉ incoming.steps)
    (forwarded : targetUrl base incoming = .ok target) : base.endpoint <+: target.path := by
  rw [targetUrl_path forwarded]
  split_ifs with root
  · simp [root.1]
  · exact prefix_walkFrom_of_never_up base.endpoint never

/-! ## A configured endpoint -/

def exampleUrl : Url where
  scheme := .https
  username := ""
  password := none
  host := some "example.test"
  port := none
  path := ["mcp".toList]
  query := none
  fragment := none
  nonempty := by simp
  segments := fun segment member => by
    rw [List.mem_singleton.1 member]
    exact ⟨by simp [inPathSet, isSlash], by decide +kernel, by decide +kernel⟩

def parseExample (raw : String) : Option ParsedUrl :=
  if raw = "https://example.test/mcp" then some (.web exampleUrl) else none

theorem target_stays_extra :
    exampleUrl.StaysAt ((exampleUrl.setPath "/mcp/extra".toList).setQuery none) ↔
      (ascent (Uri.steps ⟨"/extra".toList, none⟩)).Reenters exampleUrl.endpoint :=
  target_stays_iff parseExample (rfl : parseTarget parseExample "https://example.test/mcp" = .ok exampleUrl) rfl

/-- Percent-encoded dots pass the guard, and lead above the endpoint. -/
theorem encoded_dots_leave : ∃ target,
    parseTarget parseExample "https://example.test/mcp" = .ok exampleUrl ∧
      targetUrl exampleUrl ⟨"/%2e%2e/admin".toList, none⟩ = .ok target ∧ target.path = ["admin".toList] ∧
        ¬exampleUrl.StaysAt target :=
  ⟨(exampleUrl.setPath "/mcp/%2e%2e/admin".toList).setQuery none, rfl, rfl, by decide +kernel, fun stays =>
    absurd stays.path (by decide +kernel)⟩

end McpTracer.Proxy
