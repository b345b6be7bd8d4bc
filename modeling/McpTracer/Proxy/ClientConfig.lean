import McpTracer.Foundation.Outcome
import McpTracer.Json.Members
import McpTracer.Model.Assertions
import McpTracer.Proxy.Jsonc
import McpTracer.Proxy.Setup

/-! Setup puts the recorder in front of the servers of a client configuration.

A configuration is a tree, in JSON or in TOML, with a table of servers under a key of the client. A server
with a command runs as a process, and only its command and its arguments are rewritten. What runs under the
recorder already is left as it is, so that a second run finds nothing to do.
-/

set_option autoImplicit false

namespace McpTracer.Proxy.Setup
open McpTracer.Foundation McpTracer.Json
open McpTracer.Model (TomlValue)

/-! ## Configuration trees -/

def tomlStr : TomlValue → Option String
  | .string s => some s
  | _ => none

def tomlArray : TomlValue → Option (List TomlValue)
  | .array items => some items
  | _ => none

def tomlTable : TomlValue → Option (List (String × TomlValue))
  | .table entries => some entries
  | _ => none

/-- The nodes of a tree that setup reads and writes, and what it says of a server that it cannot wrap. -/
structure ConfigFormat (V : Type) where
  string : String → V
  array : List V → V
  table : List (String × V) → V
  asStr : V → Option String
  asArray : V → Option (List V)
  asTable : V → Option (List (String × V))
  asStr_string : ∀ s, asStr (string s) = some s
  asArray_array : ∀ items, asArray (array items) = some items
  asTable_eq_some_iff : ∀ v entries, asTable v = some entries ↔ v = table entries
  mustBeTable : String → String
  commandMustBeString : String
  argsMustBeStrings : String

def jsonFormat : ConfigFormat Value where
  string := .string
  array := .array
  table := .object
  asStr := Value.asStr
  asArray := Value.asArray
  asTable := Value.asObject
  asStr_string _ := rfl
  asArray_array _ := rfl
  asTable_eq_some_iff v entries := by cases v <;> simp [Value.asObject]
  mustBeTable name := s!"MCP server `{name}` must be an object"
  commandMustBeString := "MCP server `command` must be a string"
  argsMustBeStrings := "MCP server `args` must be an array of strings"

def tomlFormat : ConfigFormat TomlValue where
  string := .string
  array := .array
  table := .table
  asStr := tomlStr
  asArray := tomlArray
  asTable := tomlTable
  asStr_string _ := rfl
  asArray_array _ := rfl
  asTable_eq_some_iff v entries := by cases v <;> simp [tomlTable]
  mustBeTable name := s!"Codex MCP server `{name}` must be a table"
  commandMustBeString := "Codex MCP server `command` must be a string"
  argsMustBeStrings := "Codex MCP server `args` must be an array of strings"

/-! ## Command lines -/

/-- What setup takes from its libraries, with the paths of the platform. -/
structure ConfigTools (Path : Type) where
  fileName : String → Option String
  toStr : Path → Option String
  jsonFromStr : String → Option Value
  jsonToStringPretty : Value → String
  tomlFromStr : String → Option TomlValue
  tomlToStringPretty : TomlValue → Except String String

/-- What a configuration is wrapped with. -/
structure Recorder (Path : Type) where
  client : SetupClient
  mcptracerCommand : String
  dbPath : Option Path

section
variable {Path V : Type} (tools : ConfigTools Path) (format : ConfigFormat V) (recorder : Recorder Path)

def wrappedArgs (command : String) (args : List String) : Except String (List String) := do
  let database ← match recorder.dbPath with
    | none => pure []
    | some path => do
      let path ← require (tools.toStr path) "database path cannot be represented in client config"
      pure ["--db", path]
  return database ++ ["record", "--client", recorder.client.displayName, "--", command] ++ args

def isMcptracerRecordWrapper (command : String) (args : List String) : Bool :=
  let executable := String.ofList (((tools.fileName command).getD command).toList.map Char.toLower)
  let commandIndex := if args.head? = some "--db" ∧ 3 ≤ args.length then 2 else 0
  ["mcptracer", "mcptracer.exe"].contains executable && args[commandIndex]? == some "record" &&
    args[commandIndex + 1]? == some "--client"

def ConfigFormat.args (value : Option V) : Except String (List String) :=
  match value with
  | none => .ok []
  | some value => do
    let items ← require (format.asArray value) format.argsMustBeStrings
    items.mapM fun item => require (format.asStr item) format.argsMustBeStrings

def jsonArgs : Option Value → Except String (List String) := jsonFormat.args

def tomlArgs : Option TomlValue → Except String (List String) := tomlFormat.args

/-! ## Wrapping -/

/-- The members of a server that has a command, and whether they were rewritten. -/
def wrapServer (server : List (String × V)) : Except String (List (String × V) × Bool) := do
  let command ← require ((server.lookup "command").bind format.asStr) format.commandMustBeString
  let args ← format.args (server.lookup "args")
  if isMcptracerRecordWrapper tools command args then return (server, false)
  let wrapped ← wrappedArgs tools recorder command args
  let server := SortedMap.insert "command" (format.string recorder.mcptracerCommand) server
  return (SortedMap.insert "args" (format.array (wrapped.map format.string)) server, true)

def wrapJsonServer : List (String × Value) → Except String (List (String × Value) × Bool) :=
  wrapServer tools jsonFormat recorder

def wrapTomlServer : List (String × TomlValue) → Except String (List (String × TomlValue) × Bool) :=
  wrapServer tools tomlFormat recorder

/-- One round of the loop: the server afterwards, and what it adds to either count. -/
def visitServer (name : String) (server : V) : Except String (V × Nat × Nat) := do
  let entries ← require (format.asTable server) (format.mustBeTable name)
  if (entries.lookup "command").isNone then return (server, 0, 0)
  let (entries, rewritten) ← wrapServer tools format recorder entries
  return (format.table entries, 1, rewritten.toNat)

def visitServers : List (String × V) → Except String (List (String × V) × Nat × Nat)
  | [] => .ok ([], 0, 0)
  | (name, server) :: rest => do
    let (server, seen, rewritten) ← visitServer tools format recorder name server
    let (rest, total, wrapped) ← visitServers rest
    return ((name, server) :: rest, seen + total, rewritten + wrapped)

/-- What is under a key is replaced in place. -/
def putUnder (key : String) (value : V) (entries : List (String × V)) : List (String × V) :=
  entries.map fun entry => (entry.1, if entry.1 = key then value else entry.2)

def wrapUnder (key missing : String) (root : List (String × V)) : Except String (V × Nat × Nat) := do
  let servers ← require ((root.lookup key).bind format.asTable) missing
  let (servers, total, wrapped) ← visitServers tools format recorder servers
  return (format.table (putUnder key (format.table servers) root), total, wrapped)

end

def SetupClient.jsonServerKey : SetupClient → Option String
  | .claudeDesktop | .claudeCode | .cursor => some "mcpServers"
  | .vscode => some "servers"
  | .codex => none

section
variable {Path : Type} (tools : ConfigTools Path)

/-- A text is read as JSON with comments only when it is not read as it is. -/
def readJsonConfig (text : String) : Option Value :=
  (tools.jsonFromStr text).or (tools.jsonFromStr (stripJsonc text))

/-- The text that is written, how many servers run as a process, and how many were rewritten. -/
def injectJsonWithDb (original : String) (client : SetupClient) (mcptracerCommand : String) (dbPath : Option Path) :
    Except String (String × Nat × Nat) := do
  let root ← require (readJsonConfig tools original) "refusing to modify an invalid JSON MCP configuration"
  let root ← require root.asObject "JSON MCP configuration must be an object"
  -- The source panics here; it calls this for no client without a key.
  let serverKey ← require client.jsonServerKey "non-Codex clients have a JSON server key"
  let (root, total, wrapped) ← wrapUnder tools jsonFormat ⟨client, mcptracerCommand, dbPath⟩ serverKey
    s!"JSON MCP configuration must contain an object `{serverKey}`" root
  return (tools.jsonToStringPretty root ++ "\n", total, wrapped)

def injectTomlWithDb (original : String) (client : SetupClient) (mcptracerCommand : String) (dbPath : Option Path) :
    Except String (String × Nat × Nat) := do
  let missing := "Codex configuration must contain a `[mcp_servers]` table"
  let root ← require (tools.tomlFromStr original) "refusing to modify an invalid TOML MCP configuration"
  let root ← require (tomlTable root) missing
  let (root, total, wrapped) ← wrapUnder tools tomlFormat ⟨client, mcptracerCommand, dbPath⟩ "mcp_servers" missing root
  let text ← tools.tomlToStringPretty root
  return (text, total, wrapped)

end

/-! ## What changes -/

section
variable {Path V : Type} (tools : ConfigTools Path) (format : ConfigFormat V) (recorder : Recorder Path)

/-- The command line of a server that runs as a process. -/
def ConfigFormat.launch (server : V) : Option (String × List String) := do
  let entries ← format.asTable server
  let command ← (entries.lookup "command").bind format.asStr
  let args ← (format.args (entries.lookup "args")).toOption
  return (command, args)

def ConfigFormat.isStdio (server : V) : Bool :=
  (format.asTable server).any fun entries => (entries.lookup "command").isSome

/-- A server runs as a process, and not yet under the recorder. -/
def isUnwrapped (server : V) : Bool :=
  (format.launch server).any fun launch => !isMcptracerRecordWrapper tools launch.1 launch.2

/-- The arguments that name a database, where there is one. -/
inductive DatabaseArgs : Option Path → List String → Prop
  | none : DatabaseArgs none []
  | some {path : Path} {text : String} (shown : tools.toStr path = some text) :
      DatabaseArgs (some path) ["--db", text]

/-- A server that ran this command line runs it under the recorder, and is otherwise the same. -/
structure Wrapped (command : String) (args : List String) (before after : List (String × V)) : Prop where
  runs : after.lookup "command" = some (format.string recorder.mcptracerCommand)
  args : ∃ database, DatabaseArgs tools recorder.dbPath database ∧
    after.lookup "args" = some (format.array ((database ++
      ["record", "--client", recorder.client.displayName, "--"] ++ command :: args).map format.string))
  others : ∀ key, key ≠ "command" → key ≠ "args" → after.lookup key = before.lookup key

inductive ServerChange (before after : V) : Prop
  | kept (rest : isUnwrapped tools format before = false) (same : after = before)
  | wrapped {entries newEntries : List (String × V)} {command : String} {args : List String}
      (fresh : isUnwrapped tools format before = true) (launch : format.launch before = some (command, args))
      (was : before = format.table entries) (becomes : after = format.table newEntries)
      (wraps : Wrapped tools format recorder command args entries newEntries)

/-- Only servers change, and only those that are not wrapped. -/
structure WrapsOnly (key : String) (input output : V) (total wrapped : Nat) : Prop where
  changes : ∃ root newRoot servers newServers, input = format.table root ∧ output = format.table newRoot ∧
    newRoot.map Prod.fst = root.map Prod.fst ∧ (∀ other ≠ key, newRoot.lookup other = root.lookup other) ∧
    root.lookup key = some (format.table servers) ∧ newRoot.lookup key = some (format.table newServers) ∧
    List.Forall₂ (fun before after => after.1 = before.1 ∧ ServerChange tools format recorder before.2 after.2)
      servers newServers ∧
    total = servers.countP (fun server => format.isStdio server.2) ∧
    wrapped = servers.countP fun server => isUnwrapped tools format server.2

end

section
variable {Path V : Type} {tools : ConfigTools Path} {format : ConfigFormat V} {recorder : Recorder Path}

/-- A command that is named as the recorder. -/
def IsRecorder (tools : ConfigTools Path) (command : String) : Prop :=
  tools.fileName command = some "mcptracer" ∨ tools.fileName command = some "mcptracer.exe"

theorem asTable_table (format : ConfigFormat V) (entries : List (String × V)) :
    format.asTable (format.table entries) = some entries :=
  (format.asTable_eq_some_iff _ _).2 rfl

theorem args_array (format : ConfigFormat V) (items : List String) :
    format.args (some (format.array (items.map format.string))) = .ok items := by
  rw [ConfigFormat.args, format.asArray_array, require_some]
  change (items.map format.string).mapM (fun item => require (format.asStr item) format.argsMustBeStrings) = _
  induction items with
  | nil => rfl
  | cons item items ih =>
    rw [List.map_cons, List.mapM_cons, format.asStr_string, require_some, ih]
    rfl

/-! ## One server -/

theorem wrappedArgs_eq_ok_iff {command : String} {args wrapped : List String} :
    wrappedArgs tools recorder command args = .ok wrapped ↔ ∃ database, DatabaseArgs tools recorder.dbPath database ∧
      wrapped = (database ++ ["record", "--client", recorder.client.displayName, "--"]) ++ command :: args := by
  rw [wrappedArgs]
  cases recorder.dbPath with
  | none =>
    constructor
    · intro found
      exact ⟨[], .none, by simpa using (Except.ok.inj found).symm⟩
    · rintro ⟨_, ⟨⟩, rfl⟩
      simp
  | some path =>
    simp only [bind_eq_ok_iff, require_eq_ok_iff, pure_eq_ok_iff]
    constructor
    · rintro ⟨text, shown, _, rfl, rfl⟩
      exact ⟨_, .some shown, by simp⟩
    · rintro ⟨_, named, rfl⟩
      cases named with
      | @some _ text shown => exact ⟨text, shown, _, rfl, by simp⟩

/-- What setup writes it recognizes, with a database and without one. -/
theorem isMcptracerRecordWrapper_wrapped {command : String} (named : IsRecorder tools command) {dbPath : Option Path}
    {database rest : List String} (shown : DatabaseArgs tools dbPath database) :
    isMcptracerRecordWrapper tools command (database ++ "record" :: "--client" :: rest) = true := by
  have executable : ["mcptracer", "mcptracer.exe"].contains
      (String.ofList (((tools.fileName command).getD command).toList.map Char.toLower)) = true := by
    rcases named with named | named <;> rw [named, Option.getD_some] <;> decide
  rw [isMcptracerRecordWrapper, executable]
  cases shown <;> simp

theorem wrapServer_eq_ok_iff {entries newEntries : List (String × V)} {rewritten : Bool} :
    wrapServer tools format recorder entries = .ok (newEntries, rewritten) ↔
      ∃ command args, (entries.lookup "command").bind format.asStr = some command ∧
        format.args (entries.lookup "args") = .ok args ∧
        (isMcptracerRecordWrapper tools command args = true ∧ newEntries = entries ∧ rewritten = false ∨
          isMcptracerRecordWrapper tools command args = false ∧ rewritten = true ∧
            ∃ wrapped, wrappedArgs tools recorder command args = .ok wrapped ∧
              newEntries = SortedMap.insert "args" (format.array (wrapped.map format.string))
                (SortedMap.insert "command" (format.string recorder.mcptracerCommand) entries)) := by
  simp only [wrapServer, bind_eq_ok_iff, require_eq_ok_iff]
  refine exists_congr fun command => ?_
  constructor
  · rintro ⟨reads, args, list, done⟩
    refine ⟨args, reads, list, ?_⟩
    split_ifs at done with wrapper
    · cases done
      exact .inl ⟨wrapper, rfl, rfl⟩
    · obtain ⟨wrapped, made, done⟩ := bind_eq_ok_iff.1 done
      cases done
      exact .inr ⟨Bool.eq_false_iff.2 wrapper, rfl, wrapped, made, rfl⟩
  · rintro ⟨args, reads, list, ⟨wrapper, rfl, rfl⟩ | ⟨fresh, rfl, wrapped, made, rfl⟩⟩
    · exact ⟨reads, args, list, by rw [if_pos wrapper]; rfl⟩
    · exact ⟨reads, args, list, by rw [fresh, if_neg Bool.false_ne_true, made]; rfl⟩

theorem launch_table {entries : List (String × V)} {command : String} {args : List String}
    (reads : (entries.lookup "command").bind format.asStr = some command)
    (list : format.args (entries.lookup "args") = .ok args) :
    format.launch (format.table entries) = some (command, args) := by
  rw [ConfigFormat.launch, asTable_table]
  change ((entries.lookup "command").bind format.asStr).bind _ = _
  rw [reads, list]
  rfl

theorem isStdio_table {entries : List (String × V)} {command : String}
    (reads : (entries.lookup "command").bind format.asStr = some command) :
    format.isStdio (format.table entries) = true := by
  obtain ⟨value, found, -⟩ := Option.bind_eq_some_iff.1 reads
  rw [ConfigFormat.isStdio, asTable_table, Option.any_some, found]
  rfl

theorem isUnwrapped_of_launch {server : V} {command : String} {args : List String}
    (launch : format.launch server = some (command, args)) :
    isUnwrapped tools format server = !isMcptracerRecordWrapper tools command args := by
  rw [isUnwrapped, launch]
  rfl

/-- The members of a wrapped server, which are read back as the command line of the recorder. -/
theorem wrapServer_wrapped (format : ConfigFormat V) (entries : List (String × V))
    (named : IsRecorder tools recorder.mcptracerCommand) {command : String} {args wrapped : List String}
    (made : wrappedArgs tools recorder command args = .ok wrapped) :
    let newEntries := SortedMap.insert "args" (format.array (wrapped.map format.string))
      (SortedMap.insert "command" (format.string recorder.mcptracerCommand) entries)
    Wrapped tools format recorder command args entries newEntries ∧
      (newEntries.lookup "command").bind format.asStr = some recorder.mcptracerCommand ∧
      format.args (newEntries.lookup "args") = .ok wrapped ∧
      isMcptracerRecordWrapper tools recorder.mcptracerCommand wrapped = true := by
  obtain ⟨database, shown, rfl⟩ := wrappedArgs_eq_ok_iff.1 made
  intro newEntries
  have runs : newEntries.lookup "command" = some (format.string recorder.mcptracerCommand) := by
    rw [lookup_insert, if_neg (by decide), lookup_insert, if_pos rfl]
  have list : newEntries.lookup "args" = some (format.array (((database ++
      ["record", "--client", recorder.client.displayName, "--"]) ++ command :: args).map format.string)) := by
    rw [lookup_insert, if_pos rfl]
  refine ⟨⟨runs, ⟨database, shown, list⟩, fun key command args => ?_⟩, ?_, ?_, ?_⟩
  · rw [lookup_insert, if_neg args, lookup_insert, if_neg command]
  · rw [runs, Option.bind_some, format.asStr_string]
  · rw [list, args_array]
  · rw [List.append_assoc]
    exact isMcptracerRecordWrapper_wrapped named shown

/-- One round: what changes, what is counted, and that another run would leave the server as it is now. -/
theorem visitServer_spec (named : IsRecorder tools recorder.mcptracerCommand) {name : String} {server after : V}
    {seen rewritten : Nat} (done : visitServer tools format recorder name server = .ok (after, seen, rewritten)) :
    ServerChange tools format recorder server after ∧ seen = (format.isStdio server).toNat ∧
      rewritten = (isUnwrapped tools format server).toNat ∧
      visitServer tools format recorder name after = .ok (after, seen, 0) := by
  obtain ⟨entries, table, done⟩ := bind_eq_ok_iff.1 done
  obtain rfl := (format.asTable_eq_some_iff _ _).1 (require_eq_ok_iff.1 table)
  split_ifs at done with remote
  · -- A server without a command is on another machine.
    cases done
    rw [Option.isNone_iff_eq_none] at remote
    have process : format.isStdio (format.table entries) = false := by
      rw [ConfigFormat.isStdio, asTable_table, Option.any_some, remote]
      rfl
    have unwrapped : isUnwrapped tools format (format.table entries) = false := by
      have launch : format.launch (format.table entries) = none := by
        rw [ConfigFormat.launch, asTable_table]
        change ((entries.lookup "command").bind format.asStr).bind _ = _
        rw [remote]
        rfl
      rw [isUnwrapped, launch]
      rfl
    refine ⟨.kept unwrapped rfl, by rw [process]; rfl, by rw [unwrapped]; rfl, ?_⟩
    rw [visitServer, asTable_table, require_some]
    exact if_pos (Option.isNone_iff_eq_none.2 remote)
  · have again {newEntries : List (String × V)} {command : String} {args : List String}
        (reads : (newEntries.lookup "command").bind format.asStr = some command)
        (list : format.args (newEntries.lookup "args") = .ok args)
        (wrapper : isMcptracerRecordWrapper tools command args = true) :
        visitServer tools format recorder name (format.table newEntries) = .ok (format.table newEntries, 1, 0) := by
      have known : wrapServer tools format recorder newEntries = .ok (newEntries, false) :=
        wrapServer_eq_ok_iff.2 ⟨command, args, reads, list, .inl ⟨wrapper, rfl, rfl⟩⟩
      obtain ⟨value, found, -⟩ := Option.bind_eq_some_iff.1 reads
      rw [visitServer, asTable_table, require_some]
      change (if (newEntries.lookup "command").isNone then _ else _) = _
      rw [found, Option.isNone_some, if_neg Bool.false_ne_true, known]
      rfl
    obtain ⟨⟨newEntries, changed⟩, wraps, done⟩ := bind_eq_ok_iff.1 done
    cases done
    obtain ⟨command, args, reads, list, ⟨wrapper, rfl, rfl⟩ | ⟨fresh, rfl, wrapped, made, rfl⟩⟩ :=
      wrapServer_eq_ok_iff.1 wraps
    · have unwrapped : isUnwrapped tools format (format.table newEntries) = false := by
        rw [isUnwrapped_of_launch (launch_table reads list), wrapper]
        rfl
      exact ⟨.kept unwrapped rfl, by rw [isStdio_table reads]; rfl, by rw [unwrapped], again reads list wrapper⟩
    · have launch := launch_table reads list
      have unwrapped : isUnwrapped tools format (format.table entries) = true := by
        rw [isUnwrapped_of_launch launch, fresh]
        rfl
      obtain ⟨change, runs, list, wrapper⟩ := wrapServer_wrapped format entries named made
      exact ⟨.wrapped unwrapped launch rfl rfl change, by rw [isStdio_table reads]; rfl, by rw [unwrapped],
        again runs list wrapper⟩

/-! ## All servers -/

theorem visitServers_spec (named : IsRecorder tools recorder.mcptracerCommand) {servers newServers : List (String × V)}
    {total wrapped : Nat} (done : visitServers tools format recorder servers = .ok (newServers, total, wrapped)) :
    List.Forall₂ (fun before after => after.1 = before.1 ∧ ServerChange tools format recorder before.2 after.2)
        servers newServers ∧
      total = servers.countP (fun server => format.isStdio server.2) ∧
      wrapped = servers.countP (fun server => isUnwrapped tools format server.2) ∧
      visitServers tools format recorder newServers = .ok (newServers, total, 0) := by
  induction servers generalizing newServers total wrapped with
  | nil =>
    cases done
    exact ⟨.nil, rfl, rfl, rfl⟩
  | cons entry rest ih =>
    obtain ⟨name, server⟩ := entry
    obtain ⟨⟨after, seen, rewritten⟩, one, done⟩ := bind_eq_ok_iff.1 done
    obtain ⟨⟨others, more, further⟩, all, done⟩ := bind_eq_ok_iff.1 done
    cases done
    obtain ⟨change, rfl, rfl, again⟩ := visitServer_spec named one
    obtain ⟨changes, rfl, rfl, later⟩ := ih all
    refine ⟨.cons ⟨rfl, change⟩ changes, ?_, ?_, ?_⟩
    · rw [List.countP_cons, Nat.add_comm]
      cases format.isStdio server <;> rfl
    · rw [List.countP_cons, Nat.add_comm]
      cases isUnwrapped tools format server <;> rfl
    · rw [visitServers, again]
      change (visitServers tools format recorder others >>= _) = _
      rw [later]
      rfl

theorem lookup_putUnder (key other : String) (value : V) (entries : List (String × V)) :
    (putUnder key value entries).lookup other =
      if other = key then (entries.lookup other).map fun _ => value else entries.lookup other := by
  induction entries with
  | nil => simp [putUnder]
  | cons entry rest ih =>
    obtain ⟨name, child⟩ := entry
    rw [putUnder, List.map_cons, List.lookup_cons, List.lookup_cons, ← putUnder, ih]
    by_cases here : other = name
    · subst here
      rw [beq_self_eq_true]
      split_ifs <;> rfl
    · rw [beq_eq_false_iff_ne.2 here]

theorem putUnder_putUnder (key : String) (first second : V) (entries : List (String × V)) :
    putUnder key second (putUnder key first entries) = putUnder key second entries := by
  rw [putUnder, putUnder, putUnder, List.map_map]
  refine List.map_congr_left fun entry _ => ?_
  by_cases here : entry.1 = key <;> simp [here]

theorem wrapUnder_spec (named : IsRecorder tools recorder.mcptracerCommand) {key missing : String}
    {root : List (String × V)} {output : V} {total wrapped : Nat}
    (done : wrapUnder tools format recorder key missing root = .ok (output, total, wrapped)) :
    WrapsOnly tools format recorder key (format.table root) output total wrapped ∧
      ∃ newRoot, output = format.table newRoot ∧
        wrapUnder tools format recorder key missing newRoot = .ok (output, total, 0) := by
  obtain ⟨servers, found, done⟩ := bind_eq_ok_iff.1 done
  obtain ⟨⟨newServers, seen, rewritten⟩, visited, done⟩ := bind_eq_ok_iff.1 done
  cases done
  obtain ⟨value, there, table⟩ := Option.bind_eq_some_iff.1 (require_eq_ok_iff.1 found)
  obtain rfl := (format.asTable_eq_some_iff _ _).1 table
  obtain ⟨changes, stdio, unwrapped, again⟩ := visitServers_spec named visited
  have put : (putUnder key (format.table newServers) root).lookup key = some (format.table newServers) := by
    rw [lookup_putUnder, if_pos rfl, there]
    rfl
  refine ⟨⟨root, _, servers, newServers, rfl, rfl, ?_, fun other differs => ?_, there, put, changes, stdio, unwrapped⟩,
    _, rfl, ?_⟩
  · rw [putUnder, List.map_map]
    rfl
  · rw [lookup_putUnder, if_neg differs]
  · rw [wrapUnder, put, Option.bind_some, asTable_table, require_some]
    change (visitServers tools format recorder newServers >>= _) = _
    rw [again]
    exact congrArg (fun root => Except.ok (format.table root, total, 0)) (putUnder_putUnder key _ _ root)

end

/-! ## Whole configurations -/

/-- What is written is what was read, with the recorder in front of every server that ran without it. A text that
reads as what was written is left as it is. -/
theorem setup_wraps_only {Path : Type} (tools : ConfigTools Path) (client : SetupClient) {mcptracerCommand : String}
    (named : IsRecorder tools mcptracerCommand) (dbPath : Option Path) (original text : String) (total wrapped : Nat) :
    (injectJsonWithDb tools original client mcptracerCommand dbPath = .ok (text, total, wrapped) →
      ∃ key input output, client.jsonServerKey = some key ∧ readJsonConfig tools original = some input ∧
        text = tools.jsonToStringPretty output ++ "\n" ∧
        WrapsOnly tools jsonFormat ⟨client, mcptracerCommand, dbPath⟩ key input output total wrapped ∧
        ∀ again, readJsonConfig tools again = some output →
          injectJsonWithDb tools again client mcptracerCommand dbPath = .ok (text, total, 0)) ∧
    (injectTomlWithDb tools original client mcptracerCommand dbPath = .ok (text, total, wrapped) →
      ∃ input output, tools.tomlFromStr original = some input ∧ tools.tomlToStringPretty output = .ok text ∧
        WrapsOnly tools tomlFormat ⟨client, mcptracerCommand, dbPath⟩ "mcp_servers" input output total wrapped ∧
        ∀ again, tools.tomlFromStr again = some output →
          injectTomlWithDb tools again client mcptracerCommand dbPath = .ok (text, total, 0)) := by
  constructor
  · intro done
    obtain ⟨input, reads, done⟩ := bind_eq_ok_iff.1 done
    obtain ⟨root, object, done⟩ := bind_eq_ok_iff.1 done
    obtain ⟨key, keyed, done⟩ := bind_eq_ok_iff.1 done
    obtain ⟨⟨output, seen, rewritten⟩, wraps, done⟩ := bind_eq_ok_iff.1 done
    cases done
    obtain rfl := (jsonFormat.asTable_eq_some_iff _ _).1 (require_eq_ok_iff.1 object)
    obtain ⟨only, newRoot, rfl, again⟩ := wrapUnder_spec named wraps
    refine ⟨key, _, _, require_eq_ok_iff.1 keyed, require_eq_ok_iff.1 reads, rfl, only, fun text reread => ?_⟩
    exact bind_eq_ok_iff.2 ⟨_, require_eq_ok_iff.2 reread, bind_eq_ok_iff.2 ⟨newRoot, rfl, bind_eq_ok_iff.2 ⟨key, keyed,
      bind_eq_ok_iff.2 ⟨_, again, rfl⟩⟩⟩⟩
  · intro done
    obtain ⟨input, reads, done⟩ := bind_eq_ok_iff.1 done
    obtain ⟨root, table, done⟩ := bind_eq_ok_iff.1 done
    obtain ⟨⟨output, seen, rewritten⟩, wraps, done⟩ := bind_eq_ok_iff.1 done
    obtain ⟨text, prints, done⟩ := bind_eq_ok_iff.1 done
    cases done
    obtain rfl := (tomlFormat.asTable_eq_some_iff _ _).1 (require_eq_ok_iff.1 table)
    obtain ⟨only, newRoot, rfl, again⟩ := wrapUnder_spec named wraps
    refine ⟨_, _, require_eq_ok_iff.1 reads, prints, only, fun text reread => ?_⟩
    exact bind_eq_ok_iff.2 ⟨_, require_eq_ok_iff.2 reread, bind_eq_ok_iff.2 ⟨newRoot, rfl,
      bind_eq_ok_iff.2 ⟨_, again, bind_eq_ok_iff.2 ⟨_, prints, rfl⟩⟩⟩⟩

/-! ## A server of files -/

/-- The last component of a path, unless this leads upwards. -/
def unixFileName (path : String) : Option String :=
  (((path.toList.splitOnP (· == '/')).filter fun part => part ≠ [] ∧ part ≠ ['.']).getLast?.filter
    fun part => part ≠ ['.', '.']).map String.ofList

/-- A configuration of one server with this command line. -/
def oneServer {V : Type} (format : ConfigFormat V) (key command : String) (args : List String) : V :=
  format.table [(key, format.table [("files", format.table
    [("args", format.array (args.map format.string)), ("command", format.string command)])])]

def filesArgs : List String := ["--db", "/tmp/traces.db", "record", "--client", "cursor", "--", "npx", "files"]

def codexArgs : List String := ["record", "--client", "codex", "--", "npx", "files"]

def filesJson : String := "\x7b\"mcpServers\":\x7b\"files\":\x7b\"args\":[\"files\"],\"command\":\"npx\"\x7d\x7d\x7d"

def filesWrappedJson : String :=
  "\x7b\n  \"mcpServers\": \x7b\n    \"files\": \x7b\n      \"args\": [\n        \"--db\",\n" ++
  "        \"/tmp/traces.db\",\n        \"record\",\n        \"--client\",\n        \"cursor\",\n" ++
  "        \"--\",\n        \"npx\",\n        \"files\"\n      ],\n" ++
  "      \"command\": \"/usr/bin/mcptracer\"\n    \x7d\n  \x7d\n\x7d"

def filesToml : String := "[mcp_servers.files]\nargs = [\"files\"]\ncommand = \"npx\"\n"

def filesWrappedToml : String :=
  "[mcp_servers.files]\nargs = [\n    \"record\",\n    \"--client\",\n    \"codex\",\n    \"--\",\n" ++
  "    \"npx\",\n    \"files\",\n]\ncommand = \"/usr/bin/mcptracer\"\n"

/-- Reads the configuration of the server and writes it when it is wrapped. -/
def filesTools : ConfigTools String where
  fileName := unixFileName
  toStr := some
  jsonFromStr text :=
    if text = filesJson then some (oneServer jsonFormat "mcpServers" "npx" ["files"])
    else if text = filesWrappedJson ++ "\n" then
      some (oneServer jsonFormat "mcpServers" "/usr/bin/mcptracer" filesArgs)
    else none
  jsonToStringPretty _ := filesWrappedJson
  tomlFromStr text :=
    if text = filesToml then some (oneServer tomlFormat "mcp_servers" "npx" ["files"])
    else if text = filesWrappedToml then some (oneServer tomlFormat "mcp_servers" "/usr/bin/mcptracer" codexArgs)
    else none
  tomlToStringPretty _ := .ok filesWrappedToml

theorem setup_wraps_only_files :
    (∃ key input output, SetupClient.jsonServerKey .cursor = some key ∧
      readJsonConfig filesTools filesJson = some input ∧
      filesWrappedJson ++ "\n" = filesTools.jsonToStringPretty output ++ "\n" ∧
      WrapsOnly filesTools jsonFormat ⟨.cursor, "/usr/bin/mcptracer", some "/tmp/traces.db"⟩ key input output 1 1 ∧
      ∀ again, readJsonConfig filesTools again = some output →
        injectJsonWithDb filesTools again .cursor "/usr/bin/mcptracer" (some "/tmp/traces.db") =
          .ok (filesWrappedJson ++ "\n", 1, 0)) ∧
    (∃ input output, filesTools.tomlFromStr filesToml = some input ∧
      filesTools.tomlToStringPretty output = .ok filesWrappedToml ∧
      WrapsOnly filesTools tomlFormat ⟨.codex, "/usr/bin/mcptracer", none⟩ "mcp_servers" input output 1 1 ∧
      ∀ again, filesTools.tomlFromStr again = some output →
        injectTomlWithDb filesTools again .codex "/usr/bin/mcptracer" none = .ok (filesWrappedToml, 1, 0)) :=
  have named : IsRecorder filesTools "/usr/bin/mcptracer" := .inl (by decide)
  ⟨(setup_wraps_only filesTools .cursor named (some "/tmp/traces.db") filesJson (filesWrappedJson ++ "\n") 1 1).1 rfl,
    (setup_wraps_only filesTools .codex named none filesToml filesWrappedToml 1 1).2 rfl⟩

end McpTracer.Proxy.Setup
