import Mathlib.Data.List.Induction
import McpTracer.Proxy.Setup

/-! What setup and undo keep of a configuration.

Between a setup that begins to write and the undo that succeeds, the configuration is the original one, the
wrapped one or what the user wrote, and the original one is in the backup whenever it is needed. This holds
after every file operation, whichever of them fail.
-/

set_option autoImplicit false

namespace McpTracer.Proxy.Setup
open McpTracer.Foundation

/-! ## Rules for files -/

def FileFault.Truthful (fault : FileFault) : Prop := fault ≠ .overlooks

namespace Files
variable {disk : Disk} {file other : ConfigFile} {contents : Option (List UInt8)}

@[simp] theorem set_same : set disk file contents file = contents := Function.update_self ..

@[simp] theorem set_other (differs : other ≠ file) : set disk file contents other = disk other :=
  Function.update_of_ne differs ..

section
variable {allowed : FileFault → Prop} {safe : Disk → Prop} {failure : String}

theorem ensures_tryRead {post : Except String (Option (List UInt8)) → Disk → Prop} (kept : safe disk)
    (unread : post (.ok none) disk) (found : post (.ok (disk file)) disk) :
    Program.Ensures allowed safe (tryRead file) disk post := by
  apply Program.ensures_operation
  intro fault fair
  match fault with
  | some (.fails _) => exact ⟨kept, unread⟩
  | some .nothing | some .overlooks => exact ⟨kept, found⟩
  | none => exact ⟨kept, found⟩

theorem ensures_read {post : Except String (List UInt8) → Disk → Prop} (kept : safe disk)
    (unread : post (.error failure) disk) (found : ∀ contents, disk file = some contents → post (.ok contents) disk) :
    Program.Ensures allowed safe (read file failure) disk post := by
  apply Program.ensures_bind
  apply ensures_tryRead kept
  · exact Program.ensures_fail unread
  · cases there : disk file with
    | none => exact Program.ensures_fail unread
    | some contents => exact Program.ensures_pure (found contents there)

theorem ensures_isThere {post : Except String Bool → Disk → Prop} (kept : safe disk)
    (answered : post (.ok (disk file).isSome) disk) :
    Program.Ensures FileFault.Truthful safe (isThere file) disk post := by
  apply Program.ensures_operation
  intro fault fair
  have seen : fault ≠ some .overlooks := fun overlooks => fair _ overlooks rfl
  simpa [seen] using ⟨kept, answered⟩

theorem ensures_write {contents : List UInt8} {post : Except String Unit → Disk → Prop}
    (kept : safe disk ∧ post (.error failure) disk)
    (partly : ∀ left, safe (set disk file (some left)) ∧ post (.error failure) (set disk file (some left)))
    (written : safe (set disk file (some contents)) ∧ post (.ok ()) (set disk file (some contents))) :
    Program.Ensures allowed safe (write file contents failure) disk post := by
  apply Program.ensures_operation
  intro fault fair
  match fault with
  | some (.fails none) => exact kept
  | some (.fails (some left)) => exact partly _
  | some .nothing | some .overlooks => exact written
  | none => exact written

theorem ensures_rename {source target : ConfigFile} {post : Except String Unit → Disk → Prop}
    (kept : safe disk ∧ post (.error failure) disk)
    (moved : ∀ contents, disk source = some contents → safe (set (set disk target (some contents)) source none) ∧
      post (.ok ()) (set (set disk target (some contents)) source none)) :
    Program.Ensures allowed safe (rename source target failure) disk post := by
  apply Program.ensures_operation
  intro fault fair
  cases there : disk source with
  | none =>
    match fault with
    | some (.fails _) => exact kept
    | some .nothing | some .overlooks => simpa [there] using kept
    | none => simpa [there] using kept
  | some contents =>
    match fault with
    | some (.fails _) => exact kept
    | some .nothing | some .overlooks => simpa [there] using moved contents there
    | none => simpa [there] using moved contents there

theorem ensures_remove {post : Except String Removal → Disk → Prop}
    (kept : safe disk ∧ post (.ok .failed) disk)
    (absent : disk file = none → post (.ok .notFound) disk)
    (removed : safe (set disk file none) ∧ post (.ok .removed) (set disk file none)) :
    Program.Ensures allowed safe (remove file) disk post := by
  apply Program.ensures_operation
  intro fault fair
  cases there : disk file with
  | none =>
    match fault with
    | some (.fails _) => exact kept
    | some .nothing | some .overlooks => simpa [there] using And.intro kept.1 (absent there)
    | none => simpa [there] using And.intro kept.1 (absent there)
  | some contents =>
    match fault with
    | some (.fails _) => exact kept
    | some .nothing | some .overlooks => simpa [there] using removed
    | none => simpa [there] using removed

end

end Files

/-- Only the temporary file beside this one may have changed. -/
def Beside (file : ConfigFile) (disk next : Disk) : Prop := ∀ other, other ≠ file.temp → next other = disk other

/-- The file has new contents, and only its temporary file may have changed as well. -/
def Placed (file : ConfigFile) (contents : List UInt8) (disk next : Disk) : Prop :=
  next file = some contents ∧ ∀ other, other ≠ file → other ≠ file.temp → next other = disk other

section
variable {tools : SetupTools} {disk : Disk} {safe : Disk → Prop}

/-- A file is replaced whole, or not at all. -/
theorem ensures_replaceFile {file : ConfigFile} {contents : List UInt8} {post : Except String Unit → Disk → Prop}
    (apart : file ≠ file.temp) (failed : ∀ next, Beside file disk next → safe next ∧ ∀ err, post (.error err) next)
    (placed : ∀ next, Placed file contents disk next → safe next ∧ post (.ok ()) next) :
    Program.Ensures FileFault.Truthful safe (replaceFile tools file contents) disk post := by
  have same := failed disk fun _ _ => rfl
  have temporary (left : List UInt8) := failed (Files.set disk file.temp (some left)) fun _ differs =>
    Files.set_other differs
  apply Program.ensures_bind
  apply Files.ensures_isThere same.1
  dsimp only
  split
  case isTrue => exact Program.ensures_fail (same.2 _)
  case isFalse =>
    apply Program.ensures_bind
    apply Files.ensures_write
    · exact ⟨same.1, same.2 _⟩
    · exact fun left => ⟨(temporary left).1, (temporary left).2 _⟩
    · refine ⟨(temporary contents).1, ?_⟩
      apply Files.ensures_rename
      · exact ⟨(temporary contents).1, (temporary contents).2 _⟩
      · intro moved there
        obtain rfl : contents = moved := by simpa using there
        apply placed
        constructor
        · rw [Files.set_other apart, Files.set_same]
        · intro other differs besides
          rw [Files.set_other besides, Files.set_other differs, Files.set_other besides]

/-! ## Setup -/

/-- Until the wrapped configuration is in place the original one is, and from then on the backup has it. -/
def Writing (original updated : List UInt8) (disk : Disk) : Prop :=
  disk .config = some original ∨ (disk .config = some updated ∧ disk .backup = some original)

/-- The metadata that setup writes is read back. -/
def SetupTools.RoundTrip (tools : SetupTools) : Prop := ∀ client updated,
  tools.fromSlice (tools.toVecPretty (undoMetadata tools client updated)) = some (undoMetadata tools client updated)

/-- Metadata that claims this configuration. -/
def Claims (tools : SetupTools) (updated contents : List UInt8) : Prop :=
  ∃ client, contents = tools.toVecPretty (undoMetadata tools client updated)

/-- What the end of setup leaves behind. -/
structure Written (tools : SetupTools) (original updated : List UInt8) (outcome : Except String Unit) (disk : Disk) :
    Prop where
  writing : Writing original updated disk
  backup : disk .backup = some original ∨
    outcome = .error s!"failed to write configuration backup {tools.display .backup}"
  metadata : ∀ contents, disk .metadata = some contents →
    disk .backup = some original ∧ Claims tools updated contents
  done : outcome = .ok () → disk .config = some updated ∧ disk .backup = some original

/-- Nothing has been written, and what was found is true of these files. -/
def Inspected {A : Type} (found : A → Disk → Prop) (disk : Disk) (outcome : Except String A) (next : Disk) : Prop :=
  next = disk ∧ ∀ a, outcome = .ok a → found a disk

/-- What setup finds before it writes. -/
def Planned (plan : SetupPlan) (disk : Disk) : Prop :=
  disk .config = some plan.original ∧ (plan.wrappedServers ≠ 0 → disk .backup = none ∧ disk .metadata = none)

section
variable {A B : Type} {found : A → Disk → Prop} {disk : Disk} {file : ConfigFile} {refusal : String}

theorem Inspected.ok {a : A} (holds : found a disk) : Inspected found disk (.ok a) disk := by
  refine ⟨rfl, fun other same => ?_⟩
  cases same
  exact holds

theorem Inspected.error {err : String} : Inspected found disk (.error err) disk := ⟨rfl, by rintro a ⟨⟩⟩

/-- One look at the files after another. -/
theorem ensures_inspect {first : Files A} {next : A → Files B} {later : B → Disk → Prop}
    (begun : Program.Ensures FileFault.Truthful (· = disk) first disk (Inspected found disk))
    (rest : ∀ a, found a disk → Program.Ensures FileFault.Truthful (· = disk) (next a) disk (Inspected later disk)) :
    Program.Ensures FileFault.Truthful (· = disk) (first >>= next) disk (Inspected later disk) := by
  apply Program.ensures_seq begun
  · rintro err state ⟨rfl, -⟩
    exact Inspected.error
  · rintro a state ⟨rfl, holds⟩
    exact rest a (holds a rfl)

theorem ensures_refuseExisting : Program.Ensures FileFault.Truthful (· = disk) (refuseExisting file refusal) disk
    (Inspected (fun _ disk => disk file = none) disk) := by
  unfold refuseExisting
  apply Program.ensures_bind
  apply Files.ensures_isThere
  · rfl
  · dsimp only
    split
    case isTrue => exact Program.ensures_fail Inspected.error
    case isFalse absent => exact Program.ensures_pure (Inspected.ok (by simpa using absent))

theorem ensures_readConfig (tools : SetupTools) : Program.Ensures FileFault.Truthful (· = disk) (readConfig tools) disk
    (Inspected (fun contents disk => disk .config = some contents) disk) := by
  unfold readConfig
  apply Program.ensures_bind
  apply Files.ensures_read
  · rfl
  · exact Inspected.error
  · intro contents there
    dsimp only
    split
    case isTrue => exact Program.ensures_pure (Inspected.ok there)
    case isFalse => exact Program.ensures_fail Inspected.error

theorem ensures_prepare (tools : SetupTools) (client : SetupClient) :
    Program.Ensures FileFault.Truthful (· = disk) (prepare tools client) disk
      (Inspected (fun plan disk => disk .config = some plan.original) disk) := by
  unfold prepare
  apply ensures_inspect (ensures_readConfig tools)
  intro original there
  split
  case h_1 => exact Program.ensures_fail Inspected.error
  case h_2 => exact Program.ensures_pure (Inspected.ok there)

theorem ensures_planSetup (tools : SetupTools) (client : SetupClient) (disk : Disk) :
    Program.Ensures FileFault.Truthful (· = disk) (planSetup tools client) disk (Inspected Planned disk) := by
  unfold planSetup
  apply ensures_inspect (ensures_prepare tools client)
  intro plan there
  split
  case isTrue unwrapped => exact Program.ensures_pure (Inspected.ok ⟨there, fun wrapped => absurd unwrapped wrapped⟩)
  case isFalse =>
    apply ensures_inspect ensures_refuseExisting
    intro _ noBackup
    apply ensures_inspect ensures_refuseExisting
    intro _ noMetadata
    exact Program.ensures_pure (Inspected.ok ⟨there, fun _ => ⟨noBackup, noMetadata⟩⟩)

end

section
variable {tools : SetupTools} {original updated : List UInt8}

theorem ensures_replaceConfig {disk : Disk} {contents : List UInt8} (config : disk .config = some original)
    (backup : disk .backup = some original) (metadata : disk .metadata = some contents)
    (claims : Claims tools updated contents) :
    Program.Ensures FileFault.Truthful (Writing original updated) (replaceConfig tools updated) disk
      (Written tools original updated) := by
  have claimed (next : Disk) (same : next .metadata = disk .metadata) (kept : next .backup = some original) :
      ∀ contents, next .metadata = some contents → next .backup = some original ∧ Claims tools updated contents := by
    intro other there
    obtain rfl : contents = other := Option.some.inj (metadata.symm.trans (same.symm.trans there))
    exact ⟨kept, claims⟩
  unfold replaceConfig
  apply Program.ensures_bind
  apply Program.ensures_attempt
  apply ensures_replaceFile (by decide)
  · intro next beside
    have kept : next .config = some original := (beside .config (by decide)).trans config
    have backedUp : next .backup = some original := (beside .backup (by decide)).trans backup
    refine ⟨.inl kept, fun err => ?_⟩
    dsimp only
    apply Program.ensures_bind
    apply Files.ensures_remove
    · refine ⟨.inl kept, Program.ensures_fail ⟨.inl kept, .inl backedUp, ?_, by rintro ⟨⟩⟩⟩
      exact claimed next (beside .metadata (by decide)) backedUp
    · intro absent
      refine Program.ensures_fail ⟨.inl kept, .inl backedUp, ?_, by rintro ⟨⟩⟩
      exact claimed next (beside .metadata (by decide)) backedUp
    · have same (file : ConfigFile) (other : file ≠ .metadata) : Files.set next .metadata none file = next file :=
        Files.set_other other
      have kept' : Writing original updated (Files.set next .metadata none) := .inl ((same .config (by decide)).trans kept)
      refine ⟨kept', Program.ensures_fail ⟨kept', .inl ((same .backup (by decide)).trans backedUp), fun contents there => ?_,
        by rintro ⟨⟩⟩⟩
      simp at there
  · intro next placed
    obtain ⟨moved, others⟩ := placed
    have backedUp : next .backup = some original := (others .backup (by decide) (by decide)).trans backup
    refine ⟨.inr ⟨moved, backedUp⟩, Program.ensures_pure ⟨.inr ⟨moved, backedUp⟩, .inl backedUp, ?_,
      fun _ => ⟨moved, backedUp⟩⟩⟩
    exact claimed next (others .metadata (by decide) (by decide)) backedUp

theorem ensures_writeWithBackup (tools : SetupTools) (client : SetupClient) (updated : List UInt8) {disk : Disk} (config : disk .config = some original)
    (metadata : disk .metadata = none) :
    Program.Ensures FileFault.Truthful (Writing original updated) (writeWithBackup tools client original updated) disk
      (Written tools original updated) := by
  have unclaimed (next : Disk) (same : next .metadata = none) : ∀ contents, next .metadata = some contents →
      next .backup = some original ∧ Claims tools updated contents := by
    intro contents there
    rw [same] at there
    cases there
  have backupOnly (contents : Option (List UInt8)) (file : ConfigFile) (other : file ≠ .backup) :
      Files.set disk .backup contents file = disk file := Files.set_other other
  unfold writeWithBackup
  apply Program.ensures_bind
  apply Files.ensures_write
  · exact ⟨.inl config, ⟨.inl config, .inr rfl, unclaimed disk metadata, by rintro ⟨⟩⟩⟩
  · intro left
    have kept : Writing original updated (Files.set disk .backup (some left)) :=
      .inl ((backupOnly _ .config (by decide)).trans config)
    exact ⟨kept, ⟨kept, .inr rfl, unclaimed _ ((backupOnly _ .metadata (by decide)).trans metadata),
      by rintro ⟨⟩⟩⟩
  · have kept := (backupOnly (some original) .config (by decide)).trans config
    have backedUp : Files.set disk .backup (some original) .backup = some original := Files.set_same
    have none_claimed := (backupOnly (some original) .metadata (by decide)).trans metadata
    refine ⟨.inl kept, ?_⟩
    generalize Files.set disk .backup (some original) = disk at kept backedUp none_claimed
    dsimp only
    apply Program.ensures_bind
    apply Program.ensures_attempt
    apply ensures_replaceFile (by decide)
    · intro next beside
      have config : next .config = some original := (beside .config (by decide)).trans kept
      refine ⟨.inl config, fun err => Program.ensures_fail ⟨.inl config, .inl ?_, ?_, by rintro ⟨⟩⟩⟩
      · exact (beside .backup (by decide)).trans backedUp
      · exact unclaimed next ((beside .metadata (by decide)).trans none_claimed)
    · intro next placed
      obtain ⟨moved, others⟩ := placed
      have config : next .config = some original := (others .config (by decide) (by decide)).trans kept
      refine ⟨.inl config, ?_⟩
      exact ensures_replaceConfig config ((others .backup (by decide) (by decide)).trans backedUp) moved ⟨client, rfl⟩

end

end

/-! ## Undo -/

/-- From a setup that begins to write to the undo that succeeds. -/
structure Epoch where
  original : List UInt8
  updated : List UInt8
  /-- Whether the backup was written whole. -/
  backedUp : Bool
  /-- What the user wrote last. -/
  edited : Option (Option (List UInt8))
  deriving DecidableEq

/-- What holds of the files between calls. -/
structure Kept (tools : SetupTools) (epoch : Epoch) (disk : Disk) : Prop where
  config : disk .config = some epoch.original ∨ disk .config = some epoch.updated ∨ epoch.edited = some (disk .config)
  backup : epoch.backedUp = true → disk .backup = some epoch.original
  metadata : ∀ contents, disk .metadata = some contents → epoch.backedUp = true ∧ Claims tools epoch.updated contents

/-- What undo may change: the wrapped configuration, and the side files once it is restored. -/
structure Undoing (epoch : Epoch) (disk next : Disk) : Prop where
  config : next .config = disk .config ∨
    (disk .config = some epoch.updated ∧ epoch.backedUp = true ∧ next .config = some epoch.original)
  backup : next .backup = disk .backup ∨ (next .backup = none ∧ next .config = disk .backup)
  metadata : next .metadata = disk .metadata ∨ next .metadata = none

/-- What the end of undo leaves behind. -/
structure Undone (epoch : Epoch) (disk : Disk) (outcome : Except String Unit) (next : Disk) : Prop where
  undoing : Undoing epoch disk next
  restored : outcome = .ok () → next .config = disk .backup ∧ next .backup = none ∧ next .metadata = none
  kept : outcome ≠ .ok () → next .backup = disk .backup

/-- The configuration has been restored, and the side files are as they were. -/
structure Restored (epoch : Epoch) (backup : List UInt8) (disk next : Disk) : Prop where
  config : next .config = some backup
  owned : next .config = disk .config ∨
    (disk .config = some epoch.updated ∧ epoch.backedUp = true ∧ next .config = some epoch.original)
  backup : next .backup = disk .backup
  metadata : next .metadata = disk .metadata

section
variable {tools : SetupTools} {epoch : Epoch} {disk next : Disk} {backup : List UInt8}

theorem Undone.unchanged {err : String} (same : ∀ file, file ≠ .configTemp → next file = disk file) :
    Undone epoch disk (.error err) next where
  undoing := ⟨.inl (same .config (by decide)), .inl (same .backup (by decide)), .inl (same .metadata (by decide))⟩
  restored := by rintro ⟨⟩
  kept _ := same .backup (by decide)

theorem ensures_checkBackup (tools : SetupTools) (client : SetupClient) (backup : List UInt8) :
    Program.Ensures FileFault.Truthful (· = disk) (checkBackup tools client backup) disk
      (Inspected (fun _ _ => True) disk) := by
  unfold checkBackup
  split
  · exact Program.ensures_fail Inspected.error
  · split
    · exact Program.ensures_pure (Inspected.ok trivial)
    · exact Program.ensures_fail Inspected.error

theorem ensures_readCurrent (tools : SetupTools) :
    Program.Ensures FileFault.Truthful (· = disk) (readCurrent tools false) disk
      (Inspected (fun current disk => current ≠ none ∧ current = disk .config) disk) := by
  unfold readCurrent
  apply Program.ensures_bind
  apply Files.ensures_tryRead
  · rfl
  · exact Program.ensures_fail Inspected.error
  · dsimp only
    split
    case isTrue => exact Program.ensures_fail Inspected.error
    case isFalse there => exact Program.ensures_pure (Inspected.ok ⟨by simpa using there, rfl⟩)

/-- Metadata claims only the configuration that setup has written. -/
theorem ensures_checkOwnership (collisionFree : Function.Injective tools.sha256Hex)
    (roundTrip : tools.RoundTrip) (client : SetupClient)
    (kept : Kept tools epoch disk) :
    Program.Ensures FileFault.Truthful (· = disk) (checkOwnership tools client (disk .config)) disk
      (Inspected (fun _ disk => disk .config = some epoch.updated ∧ epoch.backedUp = true) disk) := by
  unfold checkOwnership
  apply Program.ensures_bind
  apply Files.ensures_read
  · rfl
  · exact Inspected.error
  intro contents there
  obtain ⟨backedUp, writer, rfl⟩ := kept.metadata contents there
  dsimp only
  rw [roundTrip]
  dsimp only
  split
  case isTrue => exact Program.ensures_fail Inspected.error
  case isFalse =>
    split
    case isTrue => exact Program.ensures_fail Inspected.error
    case isFalse same =>
      obtain ⟨current, found, digest⟩ := Option.map_eq_some_iff.1 (not_not.1 same)
      obtain rfl := collisionFree digest
      exact Program.ensures_pure (Inspected.ok ⟨found, backedUp⟩)

theorem ensures_restoreContents (collisionFree : Function.Injective tools.sha256Hex)
    (roundTrip : tools.RoundTrip) (client : SetupClient)
    (kept : Kept tools epoch disk) (there : disk .backup = some backup) :
    Program.Ensures FileFault.Truthful (Undoing epoch disk) (restoreContents tools client false backup (disk .config)) disk
      fun outcome next =>
        match outcome with
        | .error err => Undone epoch disk (.error err) next
        | .ok () => Restored epoch backup disk next := by
  have unchanged : Undoing epoch disk disk := ⟨.inl rfl, .inl rfl, .inl rfl⟩
  unfold restoreContents
  split
  case isTrue already => exact Program.ensures_pure ⟨already, .inl rfl, rfl, rfl⟩
  case isFalse =>
    rw [if_neg Bool.false_ne_true]
    apply Program.ensures_seq ((ensures_checkOwnership collisionFree roundTrip client kept).imp
      (fun state same => same ▸ unchanged) fun _ _ => id)
    · rintro err state ⟨rfl, -⟩
      exact Undone.unchanged fun _ _ => rfl
    · rintro done state ⟨rfl, owned⟩
      obtain ⟨wrapped, backedUp⟩ := owned () rfl
      -- What is restored is the original: the backup is whole where metadata was found.
      have original : backup = epoch.original := Option.some.inj (there.symm.trans (kept.backup backedUp))
      apply ensures_replaceFile (by decide)
      · intro next beside
        have same (err : String) : Undone epoch state (.error err) next := Undone.unchanged beside
        exact ⟨(same "").undoing, same⟩
      · rintro next ⟨moved, others⟩
        have owned : next .config = state .config ∨ (state .config = some epoch.updated ∧ epoch.backedUp = true ∧
            next .config = some epoch.original) := .inr ⟨wrapped, backedUp, moved.trans (congrArg some original)⟩
        have backupSame := others .backup (by decide) (by decide)
        have metadataSame := others .metadata (by decide) (by decide)
        exact ⟨⟨owned, .inl backupSame, .inl metadataSame⟩, ⟨moved, owned, backupSame, metadataSame⟩⟩

theorem ensures_removeSideFiles (tools : SetupTools) (there : disk .backup = some backup)
    (restored : Restored epoch backup disk next) :
    Program.Ensures FileFault.Truthful (Undoing epoch disk) (removeSideFiles tools) next (Undone epoch disk) := by
  have before : Undoing epoch disk next := ⟨restored.owned, .inl restored.backup, .inl restored.metadata⟩
  -- The backup is removed last, when the metadata is gone.
  have removeBackup (state : Disk) (config : state .config = next .config) (backupSame : state .backup = next .backup)
      (gone : state .metadata = none) : Program.Ensures FileFault.Truthful (Undoing epoch disk)
        (do
          let backup ← Files.remove .backup
          if backup = .removed then pure ()
          else Program.fail s!"failed to remove restored backup {tools.display .backup}") state (Undone epoch disk) := by
    have same : state .backup = disk .backup := backupSame.trans restored.backup
    have undoing : Undoing epoch disk state := ⟨config ▸ restored.owned, .inl same, .inr gone⟩
    have failed (err : String) : Undone epoch disk (.error err) state := ⟨undoing, by rintro ⟨⟩, fun _ => same⟩
    apply Program.ensures_bind
    apply Files.ensures_remove
    · exact ⟨undoing, Program.ensures_fail (failed _)⟩
    · intro absent
      exact Program.ensures_fail (failed _)
    · have other (file : ConfigFile) (differs : file ≠ .backup) : Files.set state .backup none file = state file :=
        Files.set_other differs
      have configSame : Files.set state .backup none .config = disk .backup := by
        rw [other .config (by decide), config, restored.config, there]
      have removed : Undoing epoch disk (Files.set state .backup none) :=
        ⟨(other .config (by decide)).trans config ▸ restored.owned, .inr ⟨Files.set_same, configSame⟩,
          .inr ((other .metadata (by decide)).trans gone)⟩
      exact ⟨removed, Program.ensures_pure ⟨removed, fun _ => ⟨configSame, Files.set_same,
        (other .metadata (by decide)).trans gone⟩, fun failed => absurd rfl failed⟩⟩
  unfold removeSideFiles
  apply Program.ensures_bind
  apply Files.ensures_remove
  · exact ⟨before, Program.ensures_fail ⟨before, by rintro ⟨⟩, fun _ => restored.backup⟩⟩
  · exact fun absent => removeBackup next rfl rfl absent
  · have other (file : ConfigFile) (differs : file ≠ .metadata) : Files.set next .metadata none file = next file :=
      Files.set_other differs
    refine ⟨⟨other .config (by decide) ▸ restored.owned, .inl ((other .backup (by decide)).trans restored.backup),
      .inr Files.set_same⟩, ?_⟩
    exact removeBackup _ (other .config (by decide)) (other .backup (by decide)) Files.set_same

theorem ensures_restoreConfig (collisionFree : Function.Injective tools.sha256Hex)
    (roundTrip : tools.RoundTrip) (client : SetupClient)
    (kept : Kept tools epoch disk) :
    Program.Ensures FileFault.Truthful (Undoing epoch disk) (restoreConfig tools client false) disk
      (Undone epoch disk) := by
  have unchanged : Undoing epoch disk disk := ⟨.inl rfl, .inl rfl, .inl rfl⟩
  unfold restoreConfig
  apply Program.ensures_bind
  apply Files.ensures_read
  · exact unchanged
  · exact Undone.unchanged fun _ _ => rfl
  intro backup there
  dsimp only
  apply Program.ensures_seq ((ensures_checkBackup tools client backup).imp (fun state same => same ▸ unchanged) fun _ _ => id)
  · rintro err state ⟨rfl, -⟩
    exact Undone.unchanged fun _ _ => rfl
  rintro valid state ⟨rfl, -⟩
  apply Program.ensures_seq ((ensures_readCurrent tools).imp (fun state same => same ▸ unchanged) fun _ _ => id)
  · rintro err state ⟨rfl, -⟩
    exact Undone.unchanged fun _ _ => rfl
  rintro current state ⟨rfl, found⟩
  obtain ⟨-, rfl⟩ := found current rfl
  apply Program.ensures_seq (ensures_restoreContents collisionFree roundTrip client kept there)
  · exact fun err next undone => undone
  · exact fun done next restored => ensures_removeSideFiles tools there restored

end

/-! ## Runs -/

/-- The files, and what is known of them since setup began to write. -/
structure Machine where
  disk : Disk
  epoch : Option Epoch

inductive Call where
  /-- The user writes the configuration, or deletes it. -/
  | edit (contents : Option (List UInt8))
  | setup (client : SetupClient) (faults : List FileFault)
  | undo (client : SetupClient) (faults : List FileFault)

def Call.Truthful : Call → Prop
  | .edit _ => True
  | .setup _ faults => ∀ fault ∈ faults, fault.Truthful
  | .undo _ faults => ∀ fault ∈ faults, fault.Truthful

/-- What a setup call begins to write, if it gets this far. -/
def begins (tools : SetupTools) (client : SetupClient) (disk : Disk) (faults : List FileFault) : Option SetupPlan :=
  match (planSetup tools client disk faults).outcome with
  | .ok plan => if plan.wrappedServers = 0 then none else some plan
  | .error _ => none

namespace Machine

def edit (machine : Machine) (contents : Option (List UInt8)) : Machine where
  disk := Files.set machine.disk .config contents
  epoch := machine.epoch.map fun epoch => { epoch with edited := some contents }

def setup (tools : SetupTools) (machine : Machine) (client : SetupClient) (faults : List FileFault) : Machine :=
  let ran := injectConfigWithDb tools client machine.disk faults
  { disk := ran.state
    epoch :=
      match begins tools client machine.disk faults with
      | some plan => some ⟨plan.original, plan.updated, decide (ran.state .backup = some plan.original), none⟩
      | none => machine.epoch }

def undo (tools : SetupTools) (machine : Machine) (client : SetupClient) (faults : List FileFault) : Machine :=
  let ran := restoreConfig tools client false machine.disk faults
  { disk := ran.state
    epoch :=
      match ran.outcome with
      | .ok () => none
      | .error _ => machine.epoch }

def perform (tools : SetupTools) (machine : Machine) : Call → Machine
  | .edit contents => machine.edit contents
  | .setup client faults => machine.setup tools client faults
  | .undo client faults => machine.undo tools client faults

/-- The files after each operation of a call. -/
def visits (tools : SetupTools) (machine : Machine) : Call → List Disk
  | .edit contents => [(machine.edit contents).disk]
  | .setup client faults => (injectConfigWithDb tools client machine.disk faults).visited
  | .undo client faults => (restoreConfig tools client false machine.disk faults).visited

end Machine

/-- Nothing of the user's is lost: the configuration is the original, the wrapped or the edited one, and the original
one is in the backup or in place. -/
structure Safe (epoch : Epoch) (disk : Disk) : Prop where
  config : disk .config = some epoch.original ∨ disk .config = some epoch.updated ∨ epoch.edited = some (disk .config)
  backup : epoch.backedUp = true → disk .backup = some epoch.original ∨ disk .config = some epoch.original

section
variable {tools : SetupTools} {epoch : Epoch} {disk next : Disk} {client : SetupClient} {faults : List FileFault}
  {machine : Machine}

theorem Kept.safe (kept : Kept tools epoch disk) : Safe epoch disk := ⟨kept.config, fun whole => .inl (kept.backup whole)⟩

theorem Undoing.safe (kept : Kept tools epoch disk) (undoing : Undoing epoch disk next) : Safe epoch next where
  config := by
    rcases undoing.config with same | ⟨-, -, original⟩
    · rw [same]
      exact kept.config
    · exact .inl original
  backup whole := by
    rcases undoing.backup with same | ⟨-, restored⟩
    · exact .inl (same.trans (kept.backup whole))
    · exact .inr (restored.trans (kept.backup whole))

/-- An undo that fails leaves everything that a later one needs. -/
theorem Undone.keeps {err : String} (kept : Kept tools epoch disk) (undone : Undone epoch disk (.error err) next) :
    Kept tools epoch next where
  config := (Undoing.safe kept undone.undoing).config
  backup whole := (undone.kept (by rintro ⟨⟩)).trans (kept.backup whole)
  metadata contents there := by
    rcases undone.undoing.metadata with same | gone
    · exact kept.metadata contents (same ▸ there)
    · rw [gone] at there
      cases there

/-- How a setup call ends that went on to write. -/
def Ended (tools : SetupTools) (plan : SetupPlan) (outcome : Except String SetupResult) (disk : Disk) : Prop :=
  ∃ written, Written tools plan.original plan.updated written disk ∧ (∀ result, outcome = .ok result → written = .ok ()) ∧
    ∀ err, written = .error err → outcome = .error err

/-- What a setup call does: nothing to the files, or it goes on to write. -/
theorem setup_cases (tools : SetupTools) (client : SetupClient) (disk : Disk) (fair : ∀ fault ∈ faults, fault.Truthful) :
    let ran := injectConfigWithDb tools client disk faults
    (begins tools client disk faults = none ∧ ran.state = disk ∧ ∀ visited ∈ ran.visited, visited = disk) ∨
    ∃ plan, begins tools client disk faults = some plan ∧ disk .config = some plan.original ∧
      (∀ visited ∈ ran.visited, Writing plan.original plan.updated visited) ∧ Ended tools plan ran.outcome ran.state := by
  obtain ⟨inspected, left, same, planned⟩ := ensures_planSetup tools client disk faults fair
  unfold begins injectConfigWithDb
  dsimp only
  cases outcome : (planSetup tools client disk faults).outcome with
  | error err =>
    rw [Program.bind_of_error outcome]
    exact .inl ⟨rfl, same, inspected⟩
  | ok plan =>
    obtain ⟨there, fresh⟩ := planned plan outcome
    rw [Program.bind_of_ok outcome, same]
    dsimp only
    by_cases unwrapped : plan.wrappedServers = 0
    · rw [if_pos unwrapped, if_pos unwrapped]
      refine .inl ⟨rfl, rfl, fun visited member => ?_⟩
      exact inspected visited ((List.mem_append.1 member).resolve_right List.not_mem_nil)
    · rw [if_neg unwrapped, if_neg unwrapped]
      refine .inr ⟨plan, rfl, there, ?_⟩
      have writing := ensures_writeWithBackup tools client plan.updated there (fresh unwrapped).2
      have ended : Program.Ensures FileFault.Truthful (Writing plan.original plan.updated)
          (do
            writeWithBackup tools client plan.original plan.updated
            pure ⟨plan.wrappedServers, plan.totalStdioServers, true⟩) disk (Ended tools plan) := by
        apply Program.ensures_seq writing
        · exact fun err next written => ⟨_, written, (by rintro result ⟨⟩), fun other same => by cases same; rfl⟩
        · exact fun done next written => Program.ensures_pure ⟨_, written, fun _ _ => rfl, by rintro err ⟨⟩⟩
      obtain ⟨kept, -, final⟩ := ended _ left
      refine ⟨fun visited member => ?_, final⟩
      rcases List.mem_append.1 member with looked | wrote
      · rw [inspected visited looked]
        exact .inl there
      · exact kept visited wrote

/-- Between calls, what is known of the files since setup began to write holds. -/
def Machine.Kept (tools : SetupTools) (machine : Machine) : Prop :=
  ∀ epoch, machine.epoch = some epoch → Setup.Kept tools epoch machine.disk

theorem Machine.Kept.edit (kept : machine.Kept tools) (contents : Option (List UInt8)) :
    (machine.edit contents).Kept tools := by
  intro epoch found
  obtain ⟨before, known, rfl⟩ := Option.map_eq_some_iff.1 found
  have other (file : ConfigFile) (differs : file ≠ .config) :
      (machine.edit contents).disk file = machine.disk file := Files.set_other differs
  obtain ⟨-, backup, metadata⟩ := kept before known
  constructor
  · have written : Files.set machine.disk .config contents .config = contents := Files.set_same
    exact .inr (.inr (congrArg some written.symm))
  · exact fun whole => (other .backup (by decide)).trans (backup whole)
  · exact fun claimed there => metadata claimed ((other .metadata (by decide)).symm.trans there)

/-- What setup begins with is in place until the wrapped configuration is, and then it is in the backup. -/
theorem Writing.safe {plan : SetupPlan} {whole : Bool} (writing : Writing plan.original plan.updated disk)
    (backup : disk .config ≠ some plan.original → disk .backup = some plan.original) :
    Safe ⟨plan.original, plan.updated, whole, none⟩ disk where
  config := writing.imp_right fun wrapped => .inl wrapped.1
  backup _ := by
    by_cases there : disk .config = some plan.original
    · exact .inr there
    · exact .inl (backup there)

theorem Writing.backup {original updated : List UInt8} (writing : Writing original updated disk)
    (replaced : disk .config ≠ some original) : disk .backup = some original := (writing.resolve_left replaced).2

theorem Machine.Kept.setup (kept : machine.Kept tools) (fair : ∀ fault ∈ faults, fault.Truthful) :
    (machine.setup tools client faults).Kept tools ∧
      ∀ epoch, (machine.setup tools client faults).epoch = some epoch →
        ∀ visited ∈ machine.visits tools (.setup client faults), Safe epoch visited := by
  unfold Machine.setup Machine.visits
  rcases setup_cases tools client machine.disk fair with
    ⟨idle, same, unchanged⟩ | ⟨plan, begun, there, writing, written, ended, -, -⟩
  · rw [idle]
    refine ⟨fun epoch known => ?_, fun epoch known visited member => ?_⟩
    · dsimp only
      rw [same]
      exact kept epoch known
    · rw [unchanged visited member]
      exact (kept epoch known).safe
  · rw [begun]
    refine ⟨fun epoch known => ?_, fun epoch known visited member => ?_⟩
    · obtain rfl := Option.some.inj known
      refine ⟨(ended.writing.imp_right fun wrapped => .inl wrapped.1), fun whole => of_decide_eq_true whole, ?_⟩
      intro contents claimed
      obtain ⟨backup, claims⟩ := ended.metadata contents claimed
      exact ⟨decide_eq_true backup, claims⟩
    · obtain rfl := Option.some.inj known
      exact (writing visited member).safe (writing visited member).backup

theorem Machine.Kept.undo (collisionFree : Function.Injective tools.sha256Hex) (roundTrip : tools.RoundTrip)
    (kept : machine.Kept tools) (fair : ∀ fault ∈ faults, fault.Truthful) : (machine.undo tools client faults).Kept tools ∧
      ∀ epoch, machine.epoch = some epoch →
        let ran := restoreConfig tools client false machine.disk faults
        (∀ visited ∈ ran.visited, Undoing epoch machine.disk visited) ∧
          Undone epoch machine.disk ran.outcome ran.state := by
  have spec (epoch : Epoch) (known : machine.epoch = some epoch) :=
    ensures_restoreConfig collisionFree roundTrip client (kept epoch known) faults fair
  refine ⟨fun epoch known => ?_, fun epoch known => ⟨(spec epoch known).1, (spec epoch known).2.2⟩⟩
  unfold Machine.undo at known ⊢
  dsimp only at known ⊢
  cases outcome : (restoreConfig tools client false machine.disk faults).outcome with
  | ok done =>
    rw [outcome] at known
    cases known
  | error err =>
    rw [outcome] at known
    have undone := (spec epoch known).2.2
    rw [outcome] at undone
    exact undone.keeps (kept epoch known)

theorem Machine.Kept.perform (collisionFree : Function.Injective tools.sha256Hex) (roundTrip : tools.RoundTrip)
    (kept : machine.Kept tools) (call : Call) (truthful : call.Truthful) : (machine.perform tools call).Kept tools := by
  cases call with
  | edit contents => exact kept.edit contents
  | setup client faults => exact (kept.setup truthful).1
  | undo client faults => exact (kept.undo collisionFree roundTrip truthful).1

end

end McpTracer.Proxy.Setup
