import McpTracer.Model.Manifest

/-! Evidence that is written with the outcome of an assertion, and checked again later.

What is digested is what an export of the sessions would write, whenever it is made. So the files that were
exported are accepted afterwards, and files that say anything else are not, unless their digests collide.
-/

set_option autoImplicit false

namespace McpTracer.Proxy
open McpTracer.Foundation McpTracer.Json McpTracer.Model McpTracer.Storage

/-! ## Writing a manifest -/

structure ManifestArgs where
  redact : Option String
  allowUnredacted : Bool

inductive WriteManifestError where
  | unsupportedPolicy (value : String)
  | conflictingOptions
  | artifact (failure : TransferError)
  | baseline (failure : TransferError)
  | internal (failure : ManifestError)
  deriving DecidableEq

def manifestRedaction : Option String → Except WriteManifestError Bool
  | none => .ok false
  | some "default" => .ok true
  | some value => .error (.unsupportedPolicy value)

/-- What a manifest is made of besides the store: the version of the program, and the times it reads. -/
structure Occasion where
  packageVersion : String
  exporter : String
  artifactNs : Int
  baselineNs : Int
  generatedAtNs : Int

section Commands
variable (codec : Codec) (sha256 : List UInt8 → List UInt8) (pretty : Value → String)

def documentDigest (document : MtraceDocument) : ManifestDigest :=
  ⟨canonicalDigest codec (fun text => Hex.text (sha256 (utf8 text))) document⟩

def manifestOf (occasion : Occasion) (artifact : MtraceDocument) (baseline : Option MtraceDocument)
    (assertionSpec : Option (List UInt8)) (outcome : Outcome) : EvidenceManifest where
  schemaVersion := supportedSchemaVersion
  mcptracerVersion := occasion.packageVersion
  generatedAtNs := occasion.generatedAtNs
  artifact := documentDigest codec sha256 artifact
  baseline := baseline.map (documentDigest codec sha256)
  assertionSpec := assertionSpec.map (.of sha256)
  outcome := outcome
  signed := false

def exportBaseline (db : Database) (options : ExportOptions) (occasion : Occasion) :
    Option String → Except TransferError (Option MtraceDocument)
  | some session => do
    let document ← exportMtraceDocument codec db session options occasion.baselineNs occasion.exporter
    return some document
  | none => .ok none

/-- The text of the manifest for an assertion that was checked on a session. -/
def writeManifest (occasion : Occasion) (db : Database) (args : ManifestArgs) (artifactSession : String)
    (baselineSession : Option String) (assertionSpec : Option (List UInt8)) (outcome : Outcome) :
    Except WriteManifestError String := do
  let force ← manifestRedaction args.redact
  ensure (!(force && args.allowUnredacted)) .conflictingOptions
  let options : ExportOptions := ⟨force, args.allowUnredacted⟩
  let artifact ← (exportMtraceDocument codec db artifactSession options occasion.artifactNs occasion.exporter).mapError
    .artifact
  let baseline ← (exportBaseline codec db options occasion baselineSession).mapError .baseline
  let manifest := manifestOf codec sha256 occasion artifact baseline assertionSpec outcome
  manifest.validate.mapError .internal
  return pretty manifest.toValue

/-! ## Verifying it -/

/-- What can be read from a path. -/
structure Files where
  text : String → Option String
  document : String → Option MtraceDocument
  bytes : String → Option (List UInt8)

inductive Check where
  | matched
  | mismatch
  | skipped
  | absent
  deriving DecidableEq

structure Verification where
  artifact : Check
  baseline : Check
  assertionSpec : Check
  outcome : Outcome
  mcptracerVersion : String
  deriving DecidableEq

namespace Verification

def checks (verification : Verification) : List Check :=
  [verification.artifact, verification.baseline, verification.assertionSpec]

end Verification

def checkOf (same : Bool) : Check := if same then .matched else .mismatch

/-- The bytes that the digests of a manifest are taken of. -/
@[ext] structure Evidence where
  artifact : List UInt8
  baseline : Option (List UInt8)
  assertionSpec : Option (List UInt8)

variable {codec sha256}

/-- The manifest of some evidence. -/
def Evidence.manifest (sha256 : List UInt8 → List UInt8) (occasion : Occasion) (outcome : Outcome)
    (evidence : Evidence) : EvidenceManifest where
  schemaVersion := supportedSchemaVersion
  mcptracerVersion := occasion.packageVersion
  generatedAtNs := occasion.generatedAtNs
  artifact := .of sha256 evidence.artifact
  baseline := evidence.baseline.map (.of sha256)
  assertionSpec := evidence.assertionSpec.map (.of sha256)
  outcome := outcome
  signed := false

/-- What a verification finds out about given evidence. -/
def compared (sha256 : List UInt8 → List UInt8) (kept given : Option (List UInt8)) : Check :=
  match kept, given with
  | some kept, some given => checkOf (ManifestDigest.of sha256 kept = .of sha256 given)
  | _, _ => .absent

/-- A manifest that was just built is never refused. -/
theorem writeManifest_accepted (sized : ∀ bytes, (sha256 bytes).length = 32) {pretty : Value → String}
    {occasion : Occasion} {db : Database} {args : ManifestArgs} {artifactSession : String}
    {baselineSession : Option String} {assertionSpec : Option (List UInt8)} {outcome : Outcome}
    (one : baselineSession.isSome = !assertionSpec.isSome) (failure : ManifestError) :
    writeManifest codec sha256 pretty occasion db args artifactSession baselineSession assertionSpec outcome ≠
      .error (.internal failure) := by
  have hex (bytes : List UInt8) : isValidSha256Hex (ManifestDigest.of sha256 bytes).sha256 = true :=
    isValidSha256Hex_text (sized bytes)
  intro failed
  unfold writeManifest at failed
  rcases bind_eq_error_iff.1 failed with policy | ⟨force, -, failed⟩
  · unfold manifestRedaction at policy
    split at policy <;> cases policy
  rcases bind_eq_error_iff.1 failed with options | ⟨_, -, failed⟩
  · unfold ensure at options
    split at options <;> cases options
  rcases bind_eq_error_iff.1 failed with artifact | ⟨artifact, -, failed⟩
  · obtain ⟨_, -, impossible⟩ := mapError_eq_error_iff.1 artifact
    cases impossible
  rcases bind_eq_error_iff.1 failed with baseline | ⟨baseline, taken, failed⟩
  · obtain ⟨_, -, impossible⟩ := mapError_eq_error_iff.1 baseline
    cases impossible
  have kind : baseline.isSome = baselineSession.isSome := by
    cases baselineSession with
    | none =>
      cases mapError_eq_ok_iff.1 taken
      rfl
    | some session =>
      obtain ⟨document, -, taken⟩ := bind_eq_ok_iff.1 (mapError_eq_ok_iff.1 taken)
      cases taken
      rfl
  have valid : (manifestOf codec sha256 occasion artifact baseline assertionSpec outcome).Valid := by
    refine ⟨rfl, rfl, ?_, ?_⟩
    · simp [manifestOf, kind, one]
    · intro digest member
      simp only [manifestOf, List.mem_cons, List.mem_append, Option.mem_toList, Option.map_eq_some_iff]
        at member
      rcases member with rfl | ⟨document, -, rfl⟩ | ⟨bytes, -, rfl⟩
      · exact hex _
      · exact hex _
      · exact hex _
  rcases bind_eq_error_iff.1 failed with refused | ⟨_, -, failed⟩
  · rw [EvidenceManifest.validate_eq_ok_iff.2 valid] at refused
    cases refused
  · cases failed

end Commands

end McpTracer.Proxy
