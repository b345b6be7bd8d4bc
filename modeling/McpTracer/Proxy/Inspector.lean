import Mathlib.Data.List.DropRight
import McpTracer.Foundation.IpAddress

/-! The guard of the inspector.

Requests to the inspector pass a check of their Host and Origin, and of the session token where their path is
of the API. The pages and the API are behind it: only the API reads the database.
-/

set_option autoImplicit false

namespace McpTracer.Proxy.Inspector

open McpTracer.Foundation

/-! ## Requests and responses -/

abbrev HeaderValue : Type := List UInt8

structure Request where
  method : String
  path : String
  query : Option String
  headers : List (String × HeaderValue)
  body : List UInt8

structure Response where
  status : Nat
  headers : List (String × String)
  body : List UInt8
  deriving DecidableEq

def utf8 (text : String) : List UInt8 := text.toUTF8.toList

namespace Request

/-- The values of a header, by its lowercase name. -/
def getAll (request : Request) (name : String) : List HeaderValue :=
  (request.headers.filter fun header => header.1 = name).map Prod.snd

end Request

namespace Response

def insert (response : Response) (name value : String) : Response :=
  { response with headers := response.headers.filter (fun header => header.1 ≠ name) ++ [(name, value)] }

def text (status : Nat) (body : String) : Response :=
  ⟨status, [("content-type", "text/plain; charset=utf-8")], utf8 body⟩

end Response

def isVisibleAscii (byte : UInt8) : Bool := (32 ≤ byte && byte < 127) || byte = 9

/-- The text of a header value, if it is visible ASCII. -/
def toStr (value : HeaderValue) : Option String :=
  if value.all isVisibleAscii then some (String.ofList (value.map fun byte => Char.ofNat byte.toNat)) else none

def eqIgnoreAsciiCase (a b : String) : Bool := a.toList.map Char.toLower = b.toList.map Char.toLower

def stripPrefix (start text : String) : Option String :=
  if start.toList <+: text.toList then some (String.ofList (text.toList.drop start.toList.length)) else none

/-! ## Authorities -/

/-- What `Authority` answers: its host, and its port if that is a number. -/
structure Authority where
  host : String
  portU16 : Option UInt16

/-- An unsigned number in decimal digits, with or without a plus sign. -/
def readU16 (text : String) : Option UInt16 :=
  let digits :=
    match text.toList with
    | '+' :: rest => rest
    | digits => digits
  if digits = [] || !digits.all Char.isDigit then none
  else
    let value := digits.foldl (fun sum c => sum * 10 + (c.toNat - '0'.toNat)) 0
    if value < 65536 then some (UInt16.ofNat value) else none

def authorityText (userinfo : Option String) (host : String) (port : Option String) : String :=
  userinfo.elim "" (· ++ "@") ++ host ++ port.elim "" (":" ++ ·)

def isDelimiter (c : Char) : Bool := c = ':' || c = '@' || c = '[' || c = ']'

/-- A host is a name without delimiters, or a literal in brackets. -/
def IsHost (host : List Char) : Prop :=
  (∀ c ∈ host, isDelimiter c = false) ∨
    ∃ literal, host = '[' :: (literal ++ [']']) ∧ ∀ c ∈ literal, c ≠ '[' ∧ c ≠ ']'

/-- What the parser of authorities accepts is an authority, and it answers for its parts. -/
def FollowsGrammar (parse : String → Option Authority) : Prop :=
  ∀ text authority, parse text = some authority → ∃ userinfo port,
    text = authorityText userinfo authority.host port ∧ IsHost authority.host.toList ∧
      authority.portU16 = port.bind readU16

/-! ## The guard -/

structure SocketAddr where
  ip : IpAddr
  port : UInt16

structure InspectorSecurity where
  listen : SocketAddr
  token : String

def isBracket (c : Char) : Bool := c = '[' || c = ']'

def trimBrackets (text : List Char) : List Char := (text.dropWhile isBracket).rdropWhile isBracket

section
variable (parse : String → Option Authority)

def permitsAuthority (security : InspectorSecurity) (host : String) : Bool :=
  match parse host with
  | none => false
  | some authority =>
    let listen := security.listen
    -- `Authority` also accepts userinfo and ports that are no numbers.
    if host.toList.contains '@' || (authority.portU16.isNone && host ≠ authority.host) ||
        authority.portU16.getD 80 ≠ listen.port then
      false
    else if eqIgnoreAsciiCase authority.host "localhost" then listen.ip.isLoopback
    else
      match IpAddr.parse (trimBrackets authority.host.toList) with
      | none => false
      | some ip => ip = listen.ip || (listen.ip.isUnspecified && !ip.isUnspecified && ip.isIpv4 == listen.ip.isIpv4)

def singleHeader (request : Request) (name : String) : Option String :=
  match request.getAll name with
  | [value] => toStr value
  | _ => none

def originAllowed (request : Request) (host : Option String) : Bool :=
  (request.getAll "origin").isEmpty ||
    (singleHeader request "origin").any fun origin =>
      host.any fun host => eqIgnoreAsciiCase origin ("http://" ++ host)

def isApi (path : String) : Bool := path = "/api" || "/api/".toList <+: path.toList

def contentSecurityPolicy : String :=
  "default-src 'none'; script-src 'self'; style-src 'self'; connect-src 'self'; base-uri 'none'; " ++
    "frame-ancestors 'none'; form-action 'none'"

/-- What every response is given. -/
def secured (response : Response) : Response :=
  (((response.insert "cache-control" "no-store").insert "referrer-policy" "no-referrer").insert
    "x-content-type-options" "nosniff").insert "content-security-policy" contentSecurityPolicy

def protectInspector (security : InspectorSecurity) (next : Request → Response) (request : Request) : Response :=
  let host := singleHeader request "host"
  secured <|
    if !host.any (permitsAuthority parse security) || !originAllowed request host then
      .text 403 "Inspector Host or Origin is not allowed"
    else if isApi request.path &&
        (singleHeader request "authorization").bind (stripPrefix "Bearer ") ≠ some security.token then
      (Response.text 401 "Open the inspector link printed by mcptracer").insert "www-authenticate" "Bearer"
    else next request

end

/-! ## Routes -/

inductive Page where
  | index
  | appJs
  | appCss
  | apiSessions
  | apiSessionDetail
  | apiSessionExport
  | apiDiff

/-- A segment of a route: a text, or what stands for any text that is not empty. -/
inductive Segment where
  | literal (text : String)
  | parameter

def Segment.accepts : Segment → List Char → Bool
  | .literal expected, text => text = expected.toList
  | .parameter, text => !text.isEmpty

def routes : List (List Segment × Page) := [
  ([.literal ""], .index),
  ([.literal "session", .parameter], .index),
  ([.literal "diff", .parameter, .parameter], .index),
  ([.literal "app.js"], .appJs),
  ([.literal "app.css"], .appCss),
  ([.literal "api", .literal "sessions"], .apiSessions),
  ([.literal "api", .literal "sessions", .parameter], .apiSessionDetail),
  ([.literal "api", .literal "sessions", .parameter, .literal "export"], .apiSessionExport),
  ([.literal "api", .literal "diff", .parameter, .parameter], .apiDiff)]

def acceptsAll : List Segment → List (List Char) → Bool
  | [], [] => true
  | segment :: segments, text :: texts => segment.accepts text && acceptsAll segments texts
  | _, _ => false

/-- Paths are matched as they are written, segment by segment. -/
def route (path : String) : Option Page :=
  match path.toList with
  | '/' :: rest => (routes.find? fun entry => acceptsAll entry.1 (rest.splitOn '/')).map Prod.snd
  | _ => none

structure InspectorAssets where
  indexHtml : List UInt8
  appJs : List UInt8
  appCss : List UInt8

/-- The handlers of the API: what they answer is up to the database and the request. -/
structure InspectorApi (Database : Type) where
  sessions : Database → Request → Response
  sessionDetail : Database → Request → Response
  sessionExport : Database → Request → Response
  diff : Database → Request → Response

section
variable {Database : Type} (assets : InspectorAssets) (api : InspectorApi Database)

def handle (database : Database) (request : Request) : Page → Response
  | .index => ⟨200, [("content-type", "text/html; charset=utf-8")], assets.indexHtml⟩
  | .appJs => ⟨200, [("content-type", "application/javascript")], assets.appJs⟩
  | .appCss => ⟨200, [("content-type", "text/css")], assets.appCss⟩
  | .apiSessions => api.sessions database request
  | .apiSessionDetail => api.sessionDetail database request
  | .apiSessionExport => api.sessionExport database request
  | .apiDiff => api.diff database request

/-- `get` handlers answer HEAD requests too, without a body. -/
def inspectorRoutes (database : Database) (request : Request) : Response :=
  match route request.path with
  | none => ⟨404, [], []⟩
  | some page =>
    if request.method = "GET" then handle assets api database request page
    else if request.method = "HEAD" then { handle assets api database request page with body := [] }
    else ⟨405, [("allow", "GET,HEAD")], []⟩

def inspectorRouter (parse : String → Option Authority) (security : InspectorSecurity) (database : Database) :
    Request → Response :=
  protectInspector parse security (inspectorRoutes assets api database)

end

/-! ## What is admitted -/

def hostText (name : String) (port : Option String) : String := name ++ port.elim "" (":" ++ ·)

/-- The name is a literal of the address, in brackets or not. -/
def IsLiteral (name : String) (ip : IpAddr) : Prop :=
  IpAddr.parse name.toList = some ip ∨
    ∃ literal, name.toList = '[' :: (literal ++ [']']) ∧ IpAddr.parse literal = some ip

/-- The address that is listened on, or where that is unspecified a specified one of its family. -/
def TrustedIp (listen ip : IpAddr) : Prop :=
  ip = listen ∨ (listen.isUnspecified = true ∧ ip.isUnspecified = false ∧ ip.isIpv4 = listen.isIpv4)

def TrustedName (listen : IpAddr) (name : String) : Prop :=
  (eqIgnoreAsciiCase name "localhost" = true ∧ listen.isLoopback = true) ∨
    ∃ ip, IsLiteral name ip ∧ TrustedIp listen ip

/-- A trusted name, and the port that is listened on, which may be left out if it is 80. -/
def TrustedHost (listen : SocketAddr) (host : String) : Prop :=
  ∃ name port, host = hostText name port ∧ IsHost name.toList ∧ port.elim (some 80) readU16 = some listen.port ∧
    TrustedName listen.ip name

/-- The header is there once and has this text. -/
def HasHeader (request : Request) (name text : String) : Prop :=
  ∃ value, request.getAll name = [value] ∧ toStr value = some text

structure Admitted (security : InspectorSecurity) (request : Request) : Prop where
  token : HasHeader request "authorization" ("Bearer " ++ security.token)
  host : ∃ host, HasHeader request "host" host ∧ TrustedHost security.listen host ∧
    (request.getAll "origin" = [] ∨
      ∃ origin, HasHeader request "origin" origin ∧ eqIgnoreAsciiCase origin ("http://" ++ host) = true)

/-- Names of domains, other than those that read as IPv4 addresses. -/
structure IsDomain (name : String) : Prop where
  characters : ∀ c ∈ name.toList, c.isAlphanum ∨ c = '-' ∨ c = '_' ∨ c = '.'
  named : ∃ c ∈ name.toList, ¬ IpAddr.IsDotted c

/-! ### Headers -/

section
variable {request : Request} {name text : String}

theorem singleHeader_eq_some_iff : singleHeader request name = some text ↔ HasHeader request name text := by
  unfold singleHeader HasHeader
  split
  · rename_i value only
    constructor
    · intro read
      exact ⟨value, only, read⟩
    · rintro ⟨other, same, read⟩
      cases only.symm.trans same
      exact read
  · rename_i several
    constructor
    · nofun
    · rintro ⟨value, only, -⟩
      exact absurd only (several value)

theorem stripPrefix_eq_some {start rest : String} (stripped : stripPrefix start text = some rest) :
    text = start ++ rest := by
  obtain ⟨⟨behind, whole⟩, same⟩ := Option.ite_none_right_eq_some.1 stripped
  cases same
  apply String.toList_injective
  rw [String.toList_append, String.toList_ofList, ← whole, List.drop_left]

end

/-! ### Hosts -/

theorem rdropWhile_of_none {text : List Char} (without : ∀ c ∈ text, isBracket c = false) :
    text.rdropWhile isBracket = text := by
  refine List.rdropWhile_eq_self_iff.2 fun filled => ?_
  rw [without _ (List.getLast_mem filled)]
  exact Bool.false_ne_true

theorem trimBrackets_of_none {text : List Char} (without : ∀ c ∈ text, isBracket c = false) :
    trimBrackets text = text := by
  have kept : text.dropWhile isBracket = text := by
    cases text with
    | nil => rfl
    | cons c rest => exact List.dropWhile_cons_of_neg (by simp [without c List.mem_cons_self])
  rw [trimBrackets, kept, rdropWhile_of_none without]

theorem trimBrackets_literal {literal : List Char} (without : ∀ c ∈ literal, isBracket c = false) :
    trimBrackets ('[' :: (literal ++ [']'])) = literal := by
  rw [trimBrackets, List.dropWhile_cons_of_pos rfl]
  cases literal with
  | nil => rfl
  | cons c rest =>
      rw [List.cons_append, List.dropWhile_cons_of_neg (by simp [without c List.mem_cons_self]), ← List.cons_append,
        List.rdropWhile_concat_pos _ _ _ rfl, rdropWhile_of_none without]

/-- Trimming a host leaves what is in its brackets, so what is parsed is the literal. -/
theorem isLiteral_of_trimmed {name : String} {ip : IpAddr} (host : IsHost name.toList)
    (parsed : IpAddr.parse (trimBrackets name.toList) = some ip) : IsLiteral name ip := by
  rcases host with plain | ⟨literal, bracketed, inside⟩
  · rw [trimBrackets_of_none] at parsed
    · exact .inl parsed
    · intro c member
      have undelimited := plain c member
      simp only [isDelimiter, Bool.or_eq_false_iff] at undelimited
      simp [isBracket, undelimited]
  · rw [bracketed, trimBrackets_literal] at parsed
    · exact .inr ⟨literal, bracketed, parsed⟩
    · intro c member
      simp [isBracket, inside c member]

section
variable {parse : String → Option Authority} (follows : FollowsGrammar parse) {security : InspectorSecurity}

/-- An authority without an at sign has no userinfo. -/
theorem hostText_of_authorityText {userinfo port : Option String} {name : String}
    (without : '@' ∉ (authorityText userinfo name port).toList) :
    authorityText userinfo name port = hostText name port := by
  cases userinfo with
  | none => simp [authorityText, hostText]
  | some userinfo => simp [authorityText] at without

/-- A port that is no number makes the host differ from the name. -/
theorem port_of_hostText {name : String} {port : Option String} {portU16 : Option UInt16}
    (read : portU16 = port.bind readU16) (fits : portU16 = none → hostText name port = name) :
    portU16.getD 80 = (port.elim (some 80) readU16).getD 80 ∧ (port.elim (some 80) readU16).isSome := by
  cases port with
  | none =>
      subst read
      exact ⟨rfl, rfl⟩
  | some port =>
      rw [Option.bind_some] at read
      subst read
      cases number : readU16 port with
      | some value => exact ⟨by simp [number], by simp [number]⟩
      | none =>
          have longer := congrArg (fun text : String => text.toList.length) (fits number)
          simp [hostText] at longer

include follows in
theorem trustedHost_of_permits {host : String} (permitted : permitsAuthority parse security host = true) :
    TrustedHost security.listen host := by
  unfold permitsAuthority at permitted
  split at permitted
  · cases permitted
  rename_i authority parsed
  obtain ⟨userinfo, port, rfl, shape, read⟩ := follows _ _ parsed
  dsimp only at permitted
  split at permitted
  · cases permitted
  rename_i checked
  simp only [Bool.or_eq_true, not_or, Bool.and_eq_true, not_and, decide_eq_true_eq, not_not] at checked
  obtain ⟨⟨unnamed, numbered⟩, listens⟩ := checked
  have whole : authorityText userinfo authority.host port = hostText authority.host port :=
    hostText_of_authorityText (by simpa using unnamed)
  obtain ⟨same, known⟩ := port_of_hostText read fun none => whole ▸ numbered (by rw [none]; rfl)
  obtain ⟨value, port_⟩ := Option.isSome_iff_exists.1 known
  -- The name is what the parser calls the host, so nothing of the text is left unchecked.
  refine ⟨authority.host, port, whole, shape, ?_, ?_⟩
  · rw [port_] at same ⊢
    rw [← listens, same]
    rfl
  · split at permitted
    · rename_i localhost
      exact .inl ⟨localhost, permitted⟩
    · split at permitted
      · cases permitted
      · rename_i ip literal
        refine .inr ⟨ip, isLiteral_of_trimmed shape literal, ?_⟩
        simpa [TrustedIp, and_assoc] using permitted

end

/-! ### Domain names -/

theorem takeWhile_hostText {name : String} (plain : ∀ c ∈ name.toList, c ≠ ':') (port : Option String) :
    (hostText name port).toList.takeWhile (· ≠ ':') = name.toList := by
  have all : ∀ c ∈ name.toList, decide (c ≠ ':') = true := fun c inside => decide_eq_true (plain c inside)
  cases port with
  | none => simpa [hostText, List.takeWhile_eq_self_iff] using plain
  | some port =>
      have text : (hostText name (some port)).toList = name.toList ++ ':' :: port.toList := by simp [hostText]
      rw [text, List.takeWhile_append_of_pos all]
      simp

namespace IsDomain
variable {name : String} (domain : IsDomain name)

include domain in
theorem undelimited {c : Char} (inside : c ∈ name.toList) : isDelimiter c = false := by
  rcases domain.characters c inside with plain | rfl | rfl | rfl
  · by_contra delimiter
    simp only [isDelimiter, Bool.not_eq_false, Bool.or_eq_true, decide_eq_true_eq] at delimiter
    rcases delimiter with ((rfl | rfl) | rfl) | rfl <;> exact absurd plain (by decide)
  all_goals rfl

include domain in
/-- A domain name is no literal: a literal has brackets, or a colon, or digits and dots only. -/
theorem not_isLiteral (ip : IpAddr) : ¬ IsLiteral name ip := by
  rintro (parsed | ⟨literal, bracketed, -⟩)
  · rcases IpAddr.characters_of_parse parsed with colon | dotted
    · exact absurd (domain.undelimited colon) (by decide)
    · obtain ⟨c, inside, other⟩ := domain.named
      exact other (dotted c inside)
  · have bracket : '[' ∈ name.toList := by
      rw [bracketed]
      exact List.mem_cons_self
    exact absurd (domain.undelimited bracket) (by decide)

include domain in
/-- The host that is trusted is the domain name in front of the port. -/
theorem localhost_of_trusted {listen : SocketAddr} {port : Option String}
    (trusted : TrustedHost listen (hostText name port)) : eqIgnoreAsciiCase name "localhost" = true := by
  obtain ⟨other, otherPort, whole, shape, -, named⟩ := trusted
  have plain : ∀ c ∈ name.toList, c ≠ ':' := by
    rintro c inside rfl
    exact absurd (domain.undelimited inside) (by decide)
  have same : name = other := by
    have start := takeWhile_hostText plain port
    rcases shape with bare | ⟨literal, bracketed, -⟩
    · have otherPlain : ∀ c ∈ other.toList, c ≠ ':' := by
        rintro c inside rfl
        exact absurd (bare _ inside) (by decide)
      rw [whole, takeWhile_hostText otherPlain] at start
      exact (String.toList_injective start).symm
    · have bracket : '[' ∈ name.toList := by
        rw [← start, whole, hostText, String.toList_append, bracketed]
        simp
      exact absurd (domain.undelimited bracket) (by decide)
  subst same
  rcases named with ⟨localhost, -⟩ | ⟨ip, literal, -⟩
  · exact localhost
  · exact absurd literal (domain.not_isLiteral ip)

end IsDomain

/-! ### Routes -/

def Page.isApi : Page → Bool
  | .index | .appJs | .appCss => false
  | .apiSessions | .apiSessionDetail | .apiSessionExport | .apiDiff => true

/-- Routes to the API have `api` for their first segment, and another behind it. -/
theorem routes_api : ∀ entry ∈ routes, entry.2.isApi = true →
    ∃ second rest, entry.1 = .literal "api" :: second :: rest := by
  intro entry member api
  simp only [routes, List.mem_cons, List.not_mem_nil, or_false] at member
  rcases member with rfl | rfl | rfl | rfl | rfl | rfl | rfl | rfl | rfl
  all_goals first
    | exact ⟨_, _, rfl⟩
    | cases api

theorem isApi_of_route {path : String} {page : Page} (found : route path = some page) (api : page.isApi = true) :
    isApi path = true := by
  unfold route at found
  split at found
  · rename_i rest text
    obtain ⟨⟨pattern, target⟩, matched, rfl⟩ := Option.map_eq_some_iff.1 found
    have accepted := List.find?_some matched
    obtain ⟨second, others, rfl⟩ := routes_api _ (List.mem_of_find?_eq_some matched) api
    have joined : ['/'].intercalate (rest.splitOn '/') = rest := List.intercalate_splitOn '/'
    cases split : rest.splitOn '/' with
    | nil =>
        rw [split] at accepted
        cases accepted
    | cons first texts =>
        cases texts with
        | nil =>
            rw [split] at accepted
            simp [acceptsAll] at accepted
        | cons next texts =>
            rw [split] at accepted joined
            -- The path is what its segments are joined to, so it starts as the guard expects.
            have api : first = "api".toList := by
              simp only [acceptsAll, Segment.accepts, Bool.and_eq_true, decide_eq_true_eq] at accepted
              exact accepted.1
            rw [List.intercalate_cons_cons, api] at joined
            have front : "/api/".toList <+: path.toList := by
              rw [text, ← joined]
              exact ⟨['/'].intercalate (next :: texts), by simp⟩
            rw [isApi, Bool.or_eq_true]
            exact .inr (decide_eq_true front)
  · cases found

section
variable {Database : Type} (assets : InspectorAssets) (api : InspectorApi Database)

/-- Outside of the API nothing that is answered is up to the database. -/
theorem inspectorRoutes_of_not_api {request : Request} (outside : isApi request.path = false)
    (first second : Database) : inspectorRoutes assets api first request = inspectorRoutes assets api second request := by
  unfold inspectorRoutes
  split
  · rfl
  · rename_i page found
    have same : handle assets api first request page = handle assets api second request page := by
      cases inside : page.isApi with
      | false => cases page <;> first | rfl | cases inside
      | true =>
          rw [isApi_of_route found inside] at outside
          cases outside
    rw [same]

end

/-! ## The guard is enough -/

section
variable {parse : String → Option Authority} (follows : FollowsGrammar parse) {security : InspectorSecurity}
  {Database : Type} (assets : InspectorAssets) (api : InspectorApi Database) {request : Request}

theorem originAllowed_iff {host : String} : originAllowed request (some host) = true ↔
    request.getAll "origin" = [] ∨
      ∃ origin, HasHeader request "origin" origin ∧ eqIgnoreAsciiCase origin ("http://" ++ host) = true := by
  simp only [originAllowed, Bool.or_eq_true, List.isEmpty_iff, Option.any_eq_true, Option.any_some,
    singleHeader_eq_some_iff]

include follows in
/-- What the guard lets through to the database is admitted. -/
theorem admitted_of_passed {host : String} (here : singleHeader request "host" = some host)
    (permitted : permitsAuthority parse security host = true) (origin : originAllowed request (some host) = true)
    (token : (singleHeader request "authorization").bind (stripPrefix "Bearer ") = some security.token) :
    Admitted security request := by
  refine ⟨?_, host, singleHeader_eq_some_iff.1 here, trustedHost_of_permits follows permitted,
    originAllowed_iff.1 origin⟩
  obtain ⟨text, read, stripped⟩ := Option.bind_eq_some_iff.1 token
  rw [← stripPrefix_eq_some stripped]
  exact singleHeader_eq_some_iff.1 read

include follows in
theorem inspectorRouter_of_not_admitted (refused : ¬ Admitted security request) (first second : Database) :
    inspectorRouter assets api parse security first request =
      inspectorRouter assets api parse security second request := by
  simp only [inspectorRouter, protectInspector]
  split
  · rfl
  rename_i checked
  split
  · rfl
  rename_i authorized
  cases inside : isApi request.path with
  | false => rw [inspectorRoutes_of_not_api assets api inside first second]
  | true =>
      refine absurd ?_ refused
      cases here : singleHeader request "host" with
      | none => simp [here] at checked
      | some host =>
          have passed : permitsAuthority parse security host = true ∧ originAllowed request (some host) = true := by
            simpa [here] using checked
          exact admitted_of_passed follows here passed.1 passed.2 (by simpa [inside] using authorized)

include follows in
/-- Without the token, a trusted Host and no foreign Origin, the database cannot be told from any other. -/
theorem inspector_reveals_nothing (security : InspectorSecurity) :
    (∀ request, ¬ Admitted security request → ∀ first second : Database,
      inspectorRouter assets api parse security first request =
        inspectorRouter assets api parse security second request) ∧
    ∀ name port, IsDomain name → permitsAuthority parse security (hostText name port) = true →
      eqIgnoreAsciiCase name "localhost" = true := by
  constructor
  · intro request refused first second
    exact inspectorRouter_of_not_admitted follows assets api refused first second
  · intro name port domain permitted
    exact domain.localhost_of_trusted (trustedHost_of_permits follows permitted)

end

/-! ### A parser and a session -/

/-- Authorities that are a name with or without a port. -/
def plainAuthority (text : String) : Option Authority :=
  let name := text.toList.takeWhile (· ≠ ':')
  let behind := text.toList.dropWhile (· ≠ ':')
  if name.any isDelimiter then none
  else
    match behind with
    | [] => some ⟨String.ofList name, none⟩
    | _ :: port => some ⟨String.ofList name, readU16 (String.ofList port)⟩

theorem followsGrammar_plainAuthority : FollowsGrammar plainAuthority := by
  intro text authority parsed
  unfold plainAuthority at parsed
  dsimp only at parsed
  split at parsed
  · cases parsed
  rename_i plain
  have undelimited : ∀ c ∈ text.toList.takeWhile (· ≠ ':'), isDelimiter c = false := by
    simpa using plain
  have whole : text.toList.takeWhile (· ≠ ':') ++ text.toList.dropWhile (· ≠ ':') = text.toList :=
    List.takeWhile_append_dropWhile
  split at parsed
  · rename_i behind
    cases parsed
    refine ⟨none, none, ?_, .inl (by simpa using undelimited), rfl⟩
    apply String.toList_injective
    rw [behind, List.append_nil] at whole
    simpa [authorityText] using whole.symm
  · rename_i colon port behind
    cases parsed
    refine ⟨none, some (String.ofList port), ?_, .inl (by simpa using undelimited), rfl⟩
    apply String.toList_injective
    have separator : colon = ':' := by
      have head := List.head?_dropWhile_not (· ≠ ':') text.toList
      rw [behind] at head
      simpa using head
    rw [behind, separator] at whole
    simpa [authorityText] using whole.symm

def exampleSecurity : InspectorSecurity where
  listen := ⟨.localhost, 4317⟩
  token := "c0ffee"

def exampleAssets : InspectorAssets := ⟨[], [], []⟩

/-- A database that says whether it has a session. -/
def exampleApi : InspectorApi Bool where
  sessions found _ := .text 200 (if found then "[1]" else "[]")
  sessionDetail _ _ := .text 404 "unknown session"
  sessionExport _ _ := .text 404 "unknown session"
  diff _ _ := .text 404 "unknown session"

def sessionsRequest (authorization : List HeaderValue) (origin : String) : Request where
  method := "GET"
  path := "/api/sessions"
  query := none
  headers := [("host", utf8 "127.0.0.1:4317"), ("origin", utf8 origin)] ++ authorization.map fun value =>
    ("authorization", value)
  body := []

theorem inspector_reveals_nothing_withoutToken :
    let request := sessionsRequest [] "http://127.0.0.1:4317"
    ¬ Admitted exampleSecurity request ∧
      inspectorRouter exampleAssets exampleApi plainAuthority exampleSecurity true request =
        inspectorRouter exampleAssets exampleApi plainAuthority exampleSecurity false request := by
  have refused : ¬ Admitted exampleSecurity (sessionsRequest [] "http://127.0.0.1:4317") := by
    rintro ⟨⟨value, only, -⟩, -⟩
    have none : (sessionsRequest [] "http://127.0.0.1:4317").getAll "authorization" = [] := by decide +kernel
    cases none.symm.trans only
  exact ⟨refused, (inspector_reveals_nothing followsGrammar_plainAuthority exampleAssets exampleApi
    exampleSecurity).1 _ refused true false⟩

/-- The Origin of a request that is answered need not be written as the Host is. -/
theorem origin_in_capitals :
    let request := sessionsRequest [utf8 "Bearer c0ffee"] "HTTP://127.0.0.1:4317"
    FollowsGrammar plainAuthority ∧ request.getAll "host" = [utf8 "127.0.0.1:4317"] ∧
      request.getAll "origin" ≠ [utf8 ("http://" ++ "127.0.0.1:4317")] ∧
      inspectorRouter exampleAssets exampleApi plainAuthority exampleSecurity true request ≠
        inspectorRouter exampleAssets exampleApi plainAuthority exampleSecurity false request := by
  refine ⟨followsGrammar_plainAuthority, ?_, ?_, ?_⟩
  · decide +kernel
  · decide +kernel
  · decide +kernel

end McpTracer.Proxy.Inspector
