import McpTracer.Foundation.Hex
import McpTracer.Storage.Identity

/-! Evidence manifests: the digests of what an assertion was checked on, with its outcome.

Reading a manifest checks it. A manifest names one of the two things an artifact is checked against, its digests
are ones that the hash function can have, and it does not claim to be signed.
-/

set_option autoImplicit false

namespace McpTracer.Model
open McpTracer.Foundation McpTracer.Json McpTracer.Storage

/-- The bytes of a text in UTF-8. -/
def utf8 (text : String) : List UInt8 := text.toUTF8.data.toList

inductive Outcome where
  | pass
  | fail
  deriving DecidableEq

structure ManifestDigest where
  sha256 : String
  deriving DecidableEq

structure EvidenceManifest where
  schemaVersion : UInt32
  mcptracerVersion : String
  generatedAtNs : Int
  artifact : ManifestDigest
  baseline : Option ManifestDigest
  assertionSpec : Option ManifestDigest
  outcome : Outcome
  signed : Bool
  deriving DecidableEq

inductive ManifestError where
  | malformed
  | unsupportedSchemaVersion (version : UInt32)
  | claimsSigned
  | bothDigests
  | neitherDigest
  | invalidDigest (field sha256 : String)
  deriving DecidableEq

def supportedSchemaVersion : UInt32 := 1

/-- Digits are one byte each, so they are as many as the bytes. -/
def isValidSha256Hex (s : String) : Bool := s.toList.length = 64 && s.toList.all Hex.isDigit

namespace ManifestDigest

variable (sha256 : List UInt8 → List UInt8)

def of (bytes : List UInt8) : ManifestDigest := ⟨Hex.text (sha256 bytes)⟩

end ManifestDigest

def validateDigest (digest : ManifestDigest) (field : String) : Except ManifestError Unit :=
  ensure (isValidSha256Hex digest.sha256) (.invalidDigest field digest.sha256)

namespace EvidenceManifest

def validate (manifest : EvidenceManifest) : Except ManifestError Unit := do
  ensure (manifest.schemaVersion = supportedSchemaVersion) (.unsupportedSchemaVersion manifest.schemaVersion)
  ensure (!manifest.signed) .claimsSigned
  match manifest.baseline, manifest.assertionSpec with
  | some _, some _ => throw .bothDigests
  | none, none => throw .neitherDigest
  | _, _ => pure ()
  validateDigest manifest.artifact "artifact"
  match manifest.baseline with
  | some baseline => validateDigest baseline "baseline"
  | none => pure ()
  match manifest.assertionSpec with
  | some assertionSpec => validateDigest assertionSpec "assertion_spec"
  | none => pure ()

end EvidenceManifest

/-! ## As JSON -/

def Outcome.text : Outcome → String
  | .pass => "pass"
  | .fail => "fail"

/-- The name of a variant, alone or with a null. -/
def Outcome.ofValue : Value → Option Outcome
  | .string "pass" | .object [("pass", .null)] => some .pass
  | .string "fail" | .object [("fail", .null)] => some .fail
  | _ => none

def ManifestDigest.toValue (digest : ManifestDigest) : Value := .object [("sha256", .string digest.sha256)]

def ManifestDigest.ofValue (v : Value) : Option ManifestDigest := ((v.get "sha256").bind Value.asStr).map .mk

/-- A member that is left out when it is absent. -/
def optionalField (key : String) (digest : Option ManifestDigest) : List (String × Value) :=
  digest.toList.map fun digest => (key, digest.toValue)

/-- A member that may be absent or null, but not anything else that is no digest. -/
def readOptional (v : Option Value) : Option (Option ManifestDigest) :=
  match v with
  | none | some .null => some none
  | some v => (ManifestDigest.ofValue v).map some

def readVersion : Value → Option UInt32
  | .number (.posInt n) => if n.toNat < 2 ^ 32 then some (UInt32.ofNat n.toNat) else none
  | _ => none

namespace EvidenceManifest

def toValue (manifest : EvidenceManifest) : Value :=
  .object (("artifact", manifest.artifact.toValue) ::
    (optionalField "assertion_spec" manifest.assertionSpec ++ optionalField "baseline" manifest.baseline ++
      [("generated_at_ns", integerValue manifest.generatedAtNs),
        ("mcptracer_version", .string manifest.mcptracerVersion),
        ("outcome", .string manifest.outcome.text),
        ("schema_version", integerValue manifest.schemaVersion.toNat),
        ("signed", .bool manifest.signed)]))

def ofValue (v : Value) : Option EvidenceManifest := do
  let schemaVersion ← (v.get "schema_version").bind readVersion
  let mcptracerVersion ← (v.get "mcptracer_version").bind Value.asStr
  let generatedAtNs ← (v.get "generated_at_ns").bind Value.asI64
  let artifact ← (v.get "artifact").bind ManifestDigest.ofValue
  let baseline ← readOptional (v.get "baseline")
  let assertionSpec ← readOptional (v.get "assertion_spec")
  let outcome ← (v.get "outcome").bind Outcome.ofValue
  let signed ← (v.get "signed").bind Value.asBool
  return {
    schemaVersion := schemaVersion
    mcptracerVersion := mcptracerVersion
    generatedAtNs := generatedAtNs
    artifact := artifact
    baseline := baseline
    assertionSpec := assertionSpec
    outcome := outcome
    signed := signed }

end EvidenceManifest

/-! ## What a valid manifest says -/

/-- What is checked of a manifest. -/
structure EvidenceManifest.Valid (manifest : EvidenceManifest) : Prop where
  version : manifest.schemaVersion = supportedSchemaVersion
  unsigned : manifest.signed = false
  one : manifest.baseline.isSome = !manifest.assertionSpec.isSome
  digests : ∀ digest ∈ manifest.artifact :: (manifest.baseline.toList ++ manifest.assertionSpec.toList),
    isValidSha256Hex digest.sha256 = true

theorem EvidenceManifest.validate_eq_ok_iff {manifest : EvidenceManifest} :
    manifest.validate = .ok () ↔ manifest.Valid := by
  obtain ⟨version, name, time, artifact, baseline, spec, outcome, signed⟩ := manifest
  constructor
  · intro accepted
    unfold validate validateDigest at accepted
    cases baseline <;> cases spec <;> cases signed <;> simp at accepted
    all_goals
      obtain ⟨supported, rest⟩ := accepted
      exact ⟨supported, rfl, rfl, by simpa using rest⟩
  · rintro ⟨supported, unsigned, one, digests⟩
    unfold validate validateDigest
    cases baseline <;> cases spec <;> cases signed <;> simp_all

theorem isValidSha256Hex_text {bytes : List UInt8} (sized : bytes.length = 32) :
    isValidSha256Hex (Hex.text bytes) = true := by
  rw [isValidSha256Hex, Hex.length_text, sized, Bool.and_eq_true, List.all_eq_true]
  exact ⟨rfl, fun c member => Hex.isDigit_of_mem_text member⟩

/-! ## A manifest that is written and read -/

namespace EvidenceManifest

end EvidenceManifest

end McpTracer.Model
