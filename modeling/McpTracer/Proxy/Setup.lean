import McpTracer.Foundation.Faulty

/-! Setup wraps the servers of a client configuration, and undo takes this back.

Setup keeps the configuration as it was in a backup, and the digest of what it writes in metadata beside
it. Undo replaces only what has this digest. Files are replaced by renaming a temporary file.
-/

set_option autoImplicit false

namespace McpTracer.Proxy.Setup
open McpTracer.Foundation

inductive SetupClient where
  | claudeDesktop
  | claudeCode
  | cursor
  | codex
  | vscode
  deriving DecidableEq

def SetupClient.displayName : SetupClient → String
  | .claudeDesktop => "claude-desktop"
  | .claudeCode => "claude-code"
  | .cursor => "cursor"
  | .codex => "codex"
  | .vscode => "vscode"

def SetupClient.isToml : SetupClient → Bool
  | .codex => true
  | _ => false

structure UndoMetadata where
  formatVersion : Nat
  client : String
  expectedConfigSha256 : String
  deriving DecidableEq

structure SetupResult where
  wrappedServers : Nat
  totalStdioServers : Nat
  /-- Whether there is a backup. -/
  backupPath : Bool
  deriving DecidableEq

/-! ## Files -/

/-- The configuration, what is kept beside it, and the temporary files of both. -/
inductive ConfigFile where
  | config
  | backup
  | metadata
  | configTemp
  | metadataTemp
  deriving DecidableEq

def backupSuffix : String := ".mcptracer.bak"
def backupMetadataSuffix : String := ".meta"
def tempSuffix : String := ".mcptracer.tmp"

def backupName (name : Option String) : String := name.getD "mcp-config" ++ backupSuffix
def backupMetadataName (name : Option String) : String := backupName name ++ backupMetadataSuffix
def tempName (name : Option String) : String := "." ++ name.getD "config" ++ tempSuffix

/-- The name of each file, where the configuration has this one; a name that is no text is none. -/
def fileName (name : Option String) : ConfigFile → Option String
  | .config => name
  | .backup => backupName name
  | .metadata => backupMetadataName name
  | .configTemp => tempName name
  | .metadataTemp => tempName (backupMetadataName name)

/-- No file takes the place of another: their names differ in length. -/
theorem fileName_injective (name : Option String) : Function.Injective (fileName name) := by
  have backup : backupSuffix.length = 14 := by decide
  have metadata : backupMetadataSuffix.length = 5 := by decide
  have temp : tempSuffix.length = 14 := by decide
  have dot : ".".length = 1 := by decide
  intro first second same
  cases name with
  | none =>
    revert same
    cases first <;> cases second <;> decide
  | some name =>
    have sameLength := congrArg (Option.map String.length) same
    cases first <;> cases second <;> simp [fileName, backupName, backupMetadataName, tempName, *] at sameLength ⊢ <;> omega

def ConfigFile.temp : ConfigFile → ConfigFile
  | .metadata => .metadataTemp
  | _ => .configTemp

/-- What is in each file that is there. -/
abbrev Disk := ConfigFile → Option (List UInt8)

/-- What goes wrong with one operation. -/
inductive FileFault where
  | nothing
  /-- The operation fails. A write then leaves the file as it was, or this much of what it was to write. -/
  | fails (left : Option Nat)
  /-- A file that is there is not found to be there. -/
  | overlooks
  deriving DecidableEq

abbrev Files := Program Disk FileFault String

namespace Files

def set (disk : Disk) (file : ConfigFile) (contents : Option (List UInt8)) : Disk := Function.update disk file contents

/-- What could be read. -/
def tryRead (file : ConfigFile) : Files (Option (List UInt8)) := Program.operation fun disk fault =>
  match fault with
  | some (.fails _) => (.ok none, disk)
  | _ => (.ok (disk file), disk)

def read (file : ConfigFile) (failure : String) : Files (List UInt8) := do
  let contents ← tryRead file
  match contents with
  | some contents => pure contents
  | none => Program.fail failure

def isThere (file : ConfigFile) : Files Bool := Program.operation fun disk fault =>
  (.ok ((disk file).isSome && fault ≠ some .overlooks), disk)

def write (file : ConfigFile) (contents : List UInt8) (failure : String) : Files Unit :=
  Program.operation fun disk fault =>
    match fault with
    | some (.fails none) => (.error failure, disk)
    | some (.fails (some left)) => (.error failure, set disk file (contents.take left))
    | _ => (.ok (), set disk file contents)

def rename (source target : ConfigFile) (failure : String) : Files Unit := Program.operation fun disk fault =>
  match fault, disk source with
  | some (.fails _), _ => (.error failure, disk)
  | _, none => (.error failure, disk)
  | _, some contents => (.ok (), set (set disk target contents) source none)

inductive Removal where
  | removed
  | notFound
  | failed
  deriving DecidableEq

def remove (file : ConfigFile) : Files Removal := Program.operation fun disk fault =>
  match fault, disk file with
  | some (.fails _), _ => (.ok .failed, disk)
  | _, none => (.ok .notFound, disk)
  | _, some _ => (.ok .removed, set disk file none)

end Files

/-- What the code calls, and how paths are shown. -/
structure SetupTools where
  display : ConfigFile → String
  isUtf8 : List UInt8 → Bool
  /-- The configuration with its servers wrapped, how many there are, and how many of them were wrapped. -/
  inject : SetupClient → List UInt8 → Except String (List UInt8 × Nat × Nat)
  /-- Whether a text reads as a configuration of the client. -/
  reads : SetupClient → List UInt8 → Bool
  sha256Hex : List UInt8 → String
  toVecPretty : UndoMetadata → List UInt8
  fromSlice : List UInt8 → Option UndoMetadata

section
variable (tools : SetupTools)

def replaceFile (file : ConfigFile) (contents : List UInt8) : Files Unit := do
  let occupied ← Files.isThere file.temp
  if occupied then Program.fail s!"refusing to overwrite temporary configuration file {tools.display file.temp}"
  else do
    Files.write file.temp contents s!"failed to write temporary configuration {tools.display file.temp}"
    Files.rename file.temp file s!"failed to replace configuration {tools.display file}"

/-! ## Setup -/

/-- What setup is about to write, and what was there. -/
structure SetupPlan where
  original : List UInt8
  updated : List UInt8
  totalStdioServers : Nat
  wrappedServers : Nat

def readConfig : Files (List UInt8) := do
  let failure := s!"failed to read configuration {tools.display .config}"
  let contents ← Files.read .config failure
  if tools.isUtf8 contents then pure contents else Program.fail failure

def prepare (client : SetupClient) : Files SetupPlan := do
  let original ← readConfig tools
  match tools.inject client original with
  | .error err => Program.fail err
  | .ok (updated, total, wrapped) => pure ⟨original, updated, total, wrapped⟩

def refuseExisting (file : ConfigFile) (refusal : String) : Files Unit := do
  let occupied ← Files.isThere file
  if occupied then Program.fail refusal else pure ()

/-- Up to the decision to write. -/
def planSetup (client : SetupClient) : Files SetupPlan := do
  let plan ← prepare tools client
  if plan.wrappedServers = 0 then pure plan
  else do
    refuseExisting .backup (s!"refusing to overwrite existing MCPTracer backup {tools.display .backup}; " ++
      "run `mcptracer setup --undo` first")
    refuseExisting .metadata (s!"refusing to overwrite existing MCPTracer undo metadata " ++
      s!"{tools.display .metadata}; inspect it before retrying")
    pure plan

def undoMetadata (client : SetupClient) (updated : List UInt8) : UndoMetadata where
  formatVersion := 1
  client := client.displayName
  expectedConfigSha256 := tools.sha256Hex updated

/-- The metadata does not outlive a failed replacement, if it can be removed. -/
def replaceConfig (updated : List UInt8) : Files Unit := do
  let outcome ← Program.attempt (replaceFile tools .config updated)
  match outcome with
  | .ok () => pure ()
  | .error _ => do
    let _ ← Files.remove .metadata
    Program.fail s!"configuration replacement failed; original is retained at {tools.display .backup}"

def writeWithBackup (client : SetupClient) (original updated : List UInt8) : Files Unit := do
  Files.write .backup original s!"failed to write configuration backup {tools.display .backup}"
  let outcome ← Program.attempt (replaceFile tools .metadata (tools.toVecPretty (undoMetadata tools client updated)))
  match outcome with
  | .error _ => Program.fail s!"failed to write undo ownership metadata {tools.display .metadata}"
  | .ok () => replaceConfig tools updated

def injectConfigWithDb (client : SetupClient) : Files SetupResult := do
  let plan ← planSetup tools client
  if plan.wrappedServers = 0 then pure ⟨plan.wrappedServers, plan.totalStdioServers, false⟩
  else do
    writeWithBackup tools client plan.original plan.updated
    pure ⟨plan.wrappedServers, plan.totalStdioServers, true⟩

/-! ## Undo -/

def checkBackup (client : SetupClient) (backup : List UInt8) : Files Unit :=
  if tools.isUtf8 backup = false then
    Program.fail "refusing to restore a configuration backup that is not UTF-8"
  else if tools.reads client backup then pure ()
  else
    Program.fail (if client.isToml then "refusing to restore an invalid TOML backup"
      else "refusing to restore an invalid JSON/JSONC backup")

/-- With force, what cannot be read is taken to be gone. -/
def readCurrent (force : Bool) : Files (Option (List UInt8)) := do
  let current ← Files.tryRead .config
  if current = none ∧ force = false then
    Program.fail (s!"cannot verify whether {tools.display .config} changed after MCPTracer setup; " ++
      "review the active config and backup, then use --undo --force to override")
  else pure current

def checkOwnership (client : SetupClient) (current : Option (List UInt8)) : Files Unit := do
  let bytes ← Files.read .metadata (s!"undo ownership cannot be verified for {tools.display .config}; " ++
    "its backup predates conflict tracking or its metadata is missing. Review the active config and backup, " ++
    "then use --undo --force to override")
  match tools.fromSlice bytes with
  | none => Program.fail "refusing undo because MCPTracer backup ownership metadata is invalid"
  | some metadata =>
    if metadata.formatVersion ≠ 1 ∨ metadata.client ≠ client.displayName then
      Program.fail ("refusing undo because MCPTracer backup ownership metadata does not match this client; " ++
        "review the config and backup, then use --undo --force to override")
    else if current.map tools.sha256Hex ≠ some metadata.expectedConfigSha256 then
      Program.fail (s!"refusing to overwrite {tools.display .config}; it changed after MCPTracer setup. " ++
        "The active config and backup are preserved; review both, then use --undo --force to override")
    else pure ()

/-- Metadata first: without it a retry still recognizes what was restored. -/
def removeSideFiles : Files Unit := do
  let metadata ← Files.remove .metadata
  if metadata = .failed then Program.fail s!"failed to remove undo metadata {tools.display .metadata}"
  else do
    let backup ← Files.remove .backup
    if backup = .removed then pure ()
    else Program.fail s!"failed to remove restored backup {tools.display .backup}"

/-- What has been restored already is not written again. -/
def restoreContents (client : SetupClient) (force : Bool) (backup : List UInt8)
    (current : Option (List UInt8)) : Files Unit :=
  if current = some backup then pure ()
  else do
    if force then pure () else checkOwnership tools client current
    replaceFile tools .config backup

def restoreConfig (client : SetupClient) (force : Bool) : Files Unit := do
  let backup ← Files.read .backup s!"no MCPTracer backup exists for {tools.display .config}; cannot undo"
  checkBackup tools client backup
  let current ← readCurrent tools force
  restoreContents tools client force backup current
  removeSideFiles tools

end

end McpTracer.Proxy.Setup
