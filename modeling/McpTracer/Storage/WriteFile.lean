import Mathlib.Logic.Function.Basic

/-! Writing an artifact without replacing a file.

Calls of `write_file` in any number of processes take their file-system operations one at a time and in any
order. What each operation replies is not fixed: it may fail, and a call that is not scheduled again is one
whose process has stopped.
-/

set_option autoImplicit false

namespace McpTracer.Storage.WriteFile

abbrev OsString : Type := List UInt8

def osString (text : String) : OsString := text.toUTF8.toList

/-! ## Paths -/

inductive Component where
  | rootDir
  | curDir
  | parentDir
  | normal (name : OsString)
  deriving DecidableEq

abbrev Path : Type := List Component

namespace Path

def parent (path : Path) : Option Path :=
  match path.getLast? with
  | none | some .rootDir => none
  | some _ => some path.dropLast

def fileName (path : Path) : Option OsString :=
  match path.getLast? with
  | some (.normal name) => some name
  | _ => none

end Path

def tempName (name : OsString) (pid : UInt32) (sequence : UInt64) : OsString :=
  osString "." ++ name ++ osString s!".mcptracer-export-{pid}-{sequence}.tmp"

/-- The candidate for the temporary file: it is in the directory of the artifact. -/
def tempPath (path : Path) (pid : UInt32) (sequence : UInt64) : Path :=
  let parent := (path.parent.filter fun parent => !parent.isEmpty).getD [.curDir]
  let name := path.fileName.getD (osString "mtrace")
  parent ++ [.normal (tempName name pid sequence)]

/-! ## Files -/

/-- Directory entries name files by number, and a number that is not yet used is known. -/
structure FileSystem (Entry : Type) where
  names : Entry → Option Nat
  contents : Nat → List UInt8
  next : Nat
  fresh : ∀ entry file, names entry = some file → file < next

namespace FileSystem
variable {Entry : Type}

def read (files : FileSystem Entry) (entry : Entry) : Option (List UInt8) := (files.names entry).map files.contents

def append (files : FileSystem Entry) (file : Nat) (bytes : List UInt8) : FileSystem Entry :=
  { files with contents := Function.update files.contents file (files.contents file ++ bytes) }

section
variable {files : FileSystem Entry} {entry : Entry} {file : Nat} {bytes : List UInt8}

theorem read_eq_none : files.read entry = none ↔ files.names entry = none := Option.map_eq_none_iff

theorem read_append_of_ne (apart : files.names entry ≠ some file) :
    (files.append file bytes).read entry = files.read entry := by
  cases named : files.names entry with
  | none => simp [read, append, named]
  | some known =>
      have differs : known ≠ file := fun same => apart (by rw [named, same])
      simp [read, append, named, differs]

theorem read_append (named : files.names entry = some file) :
    (files.append file bytes).read entry = some (files.contents file ++ bytes) := by
  simp [read, append, named]

end

variable [DecidableEq Entry]

/-- `create_new`: an empty file under a name that is free. -/
def createNew (files : FileSystem Entry) (entry : Entry) : Option (Nat × FileSystem Entry) :=
  if files.names entry = none then
    some (files.next, {
      names := Function.update files.names entry (some files.next)
      contents := Function.update files.contents files.next []
      next := files.next + 1
      fresh := by
        intro other file named
        by_cases same : other = entry
        · subst same
          rw [Function.update_self] at named
          cases named
          exact Nat.lt_succ_self _
        · rw [Function.update_of_ne same] at named
          exact Nat.lt_succ_of_lt (files.fresh other file named) })
  else none

/-- `hard_link`: another name for a file that has one, if the name is free. -/
def hardLink (files : FileSystem Entry) (original link : Entry) : Option (FileSystem Entry) :=
  if (files.names original).isSome ∧ files.names link = none then
    some { files with
      names := Function.update files.names link (files.names original)
      fresh := by
        intro other file named
        by_cases same : other = link
        · subst same
          rw [Function.update_self] at named
          exact files.fresh original file named
        · rw [Function.update_of_ne same] at named
          exact files.fresh other file named }
  else none

def removeFile (files : FileSystem Entry) (entry : Entry) : Option (FileSystem Entry) :=
  if (files.names entry).isSome then
    some { files with
      names := Function.update files.names entry none
      fresh := by
        intro other file named
        by_cases same : other = entry
        · subst same
          rw [Function.update_self] at named
          cases named
        · rw [Function.update_of_ne same] at named
          exact files.fresh other file named }
  else none

section
variable {files after : FileSystem Entry} {entry link : Entry} {file : Nat}

theorem createNew_eq_some (made : files.createNew entry = some (file, after)) :
    files.names entry = none ∧ file = files.next ∧
      after.names = Function.update files.names entry (some file) ∧
      after.contents = Function.update files.contents file [] := by
  obtain ⟨free, made⟩ := Option.ite_none_right_eq_some.1 made
  cases made
  exact ⟨free, rfl, rfl, rfl⟩

theorem hardLink_eq_some (linked : files.hardLink entry link = some after) :
    files.names link = none ∧ after.names = Function.update files.names link (files.names entry) ∧
      after.contents = files.contents := by
  obtain ⟨⟨-, free⟩, linked⟩ := Option.ite_none_right_eq_some.1 linked
  cases linked
  exact ⟨free, rfl, rfl⟩

theorem removeFile_eq_some (removed : files.removeFile entry = some after) :
    after.names = Function.update files.names entry none ∧ after.contents = files.contents := by
  obtain ⟨-, removed⟩ := Option.ite_none_right_eq_some.1 removed
  cases removed
  exact ⟨rfl, rfl⟩

/-- A new file is under no other name, so nothing else that is read changes. -/
theorem read_createNew (made : files.createNew entry = some (file, after)) :
    after.read = Function.update files.read entry (some []) := by
  obtain ⟨-, rfl, names, contents⟩ := createNew_eq_some made
  funext other
  by_cases same : other = entry
  · subst same
    simp [read, names, contents]
  · rw [Function.update_of_ne same]
    cases named : files.names other with
    | none => simp [read, names, same, named]
    | some known =>
        have older : known ≠ files.next := Nat.ne_of_lt (files.fresh other known named)
        simp [read, names, contents, same, named, older]

theorem read_hardLink (linked : files.hardLink entry link = some after) :
    after.read = Function.update files.read link (files.read entry) := by
  obtain ⟨-, names, contents⟩ := hardLink_eq_some linked
  funext other
  by_cases same : other = link
  · subst same
    simp [read, names, contents]
  · simp [read, names, contents, same]

theorem read_removeFile (removed : files.removeFile entry = some after) :
    after.read = Function.update files.read entry none := by
  obtain ⟨names, contents⟩ := removeFile_eq_some removed
  funext other
  by_cases same : other = entry
  · subst same
    simp [read, names]
  · simp [read, names, contents, same]

end

end FileSystem

/-! ## Calls -/

/-- The errors of `write_file`, by the context that each is given. -/
inductive WriteError where
  | allocate
  | noUniqueName
  | secure (path : Path)
  | write (path : Path)
  | create (path : Path)
  deriving DecidableEq

def WriteError.message (display : Path → String) : WriteError → String
  | .allocate => "could not allocate a temporary artifact file"
  | .noUniqueName => "could not allocate a unique temporary artifact file"
  | .secure path => "failed to secure temporary artifact for " ++ display path
  | .write path => "failed to write " ++ display path
  | .create path => "failed to create " ++ display path

/-- The calls of `write_file`, and the directory entries that paths name. -/
structure Calls (Process Call Entry : Type) where
  pid : Process → UInt32
  process : Call → Process
  path : Call → Path
  bytes : Call → List UInt8
  entry : Path → Entry

/-- Where a call is: the operation it takes next, or what it has returned. -/
inductive Phase where
  | counting (attempt : Nat)
  | opening (attempt : Nat) (candidate : Path)
  | securing (temp : Path) (file : Nat)
  | writing (temp : Path) (file written : Nat)
  | linking (temp : Path)
  | removing (temp : Path) (outcome : Except WriteError Unit)
  | returned (outcome : Except WriteError Unit)

inductive Operation where
  | fetchAdd
  | createNew (path : Path)
  | setPermissions
  | write (bytes : List UInt8)
  | syncAll
  | hardLink (original link : Path)
  | removeFile (path : Path)

inductive Reply where
  | done
  | wrote (count : Nat)
  | alreadyExists
  | failed

variable {Process Call Entry : Type}

structure Event (Call : Type) where
  call : Call
  operation : Operation
  reply : Reply

/-- The files, each process's `TEMP_COUNTER`, and where the calls are. -/
structure Stage (Process Call Entry : Type) where
  files : FileSystem Entry
  counter : Process → UInt64
  phase : Call → Phase

namespace Stage
variable [DecidableEq Process] [DecidableEq Call] [DecidableEq Entry]

def begin (files : FileSystem Entry) : Stage Process Call Entry := ⟨files, fun _ => 0, fun _ => .counting 0⟩

def become (stage : Stage Process Call Entry) (call : Call) (phase : Phase) : Stage Process Call Entry :=
  { stage with phase := Function.update stage.phase call phase }

def operation (calls : Calls Process Call Entry) (call : Call) : Phase → Option Operation
  | .counting _ => some .fetchAdd
  | .opening _ candidate => some (.createNew candidate)
  | .securing _ _ => some .setPermissions
  | .writing _ _ written =>
    if written < (calls.bytes call).length then some (.write ((calls.bytes call).drop written)) else some .syncAll
  | .linking temp => some (.hardLink temp (calls.path call))
  | .removing temp _ => some (.removeFile temp)
  | .returned _ => none

/-- The next operation of a call gets a reply. An error is returned after the temporary file was removed. -/
def step (calls : Calls Process Call Entry) (stage : Stage Process Call Entry) (call : Call) (reply : Reply) :
    Option (Stage Process Call Entry) :=
  match stage.phase call, reply with
  | .counting attempt, .done =>
    let process := calls.process call
    let sequence := stage.counter process
    let candidate := tempPath (calls.path call) (calls.pid process) sequence
    some ({ stage with counter := Function.update stage.counter process (sequence + 1) }.become call
      (.opening attempt candidate))
  | .opening _ candidate, .done =>
    (stage.files.createNew (calls.entry candidate)).map fun (file, files) =>
      { stage with files }.become call (.securing candidate file)
  | .opening attempt _, .alreadyExists =>
    -- The name is tried with the next number, 32 times in all.
    some (stage.become call
      (if attempt + 1 < 32 then .counting (attempt + 1) else .returned (.error .noUniqueName)))
  | .opening _ _, .failed => some (stage.become call (.returned (.error .allocate)))
  -- Where the platform has no permissions to set, this does nothing and succeeds.
  | .securing temp file, .done => some (stage.become call (.writing temp file 0))
  | .securing temp _, .failed =>
    some (stage.become call (.removing temp (.error (.secure (calls.path call)))))
  | .writing temp file written, reply =>
    let left := (calls.bytes call).drop written
    match reply with
    | .wrote count =>
      if 0 < count ∧ count ≤ left.length then
        some ({ stage with files := stage.files.append file (left.take count) }.become call
          (.writing temp file (written + count)))
      else none
    | .done => if left = [] then some (stage.become call (.linking temp)) else none
    | .failed => some (stage.become call (.removing temp (.error (.write (calls.path call)))))
    | .alreadyExists => none
  | .linking temp, .done =>
    (stage.files.hardLink (calls.entry temp) (calls.entry (calls.path call))).map fun files =>
      { stage with files }.become call (.removing temp (.ok ()))
  | .linking temp, .failed =>
    some (stage.become call (.removing temp (.error (.create (calls.path call)))))
  | .removing temp outcome, .done =>
    (stage.files.removeFile (calls.entry temp)).map fun files =>
      { stage with files }.become call (.returned outcome)
  | .removing _ outcome, .failed => some (stage.become call (.returned outcome))
  | _, _ => none

end Stage

/-- A run, with what was asked of the system and replied. -/
inductive Run [DecidableEq Process] [DecidableEq Call] [DecidableEq Entry] (calls : Calls Process Call Entry)
    (start : FileSystem Entry) : List (Event Call) → Stage Process Call Entry → Prop where
  | begin : Run calls start [] (.begin start)
  | step {trace : List (Event Call)} {stage next : Stage Process Call Entry} {call : Call} {operation : Operation}
      {reply : Reply} : Run calls start trace stage → Stage.operation calls call (stage.phase call) = some operation →
      stage.step calls call reply = some next → Run calls start (trace ++ [⟨call, operation, reply⟩]) next

/-! ## Steps -/

section
variable [DecidableEq Entry] (calls : Calls Process Call Entry) (call : Call)

/-- What one operation of a call does to the files and to the call, by the operation and its reply. -/
inductive Change : FileSystem Entry → Phase → Operation → Reply → FileSystem Entry → Phase → Prop where
  | counted {files : FileSystem Entry} {attempt : Nat} (sequence : UInt64) :
      Change files (.counting attempt) .fetchAdd .done files
        (.opening attempt (tempPath (calls.path call) (calls.pid (calls.process call)) sequence))
  | created {files after : FileSystem Entry} {attempt file : Nat} {candidate : Path}
      (made : files.createNew (calls.entry candidate) = some (file, after)) :
      Change files (.opening attempt candidate) (.createNew candidate) .done after (.securing candidate file)
  | taken {files : FileSystem Entry} {attempt : Nat} {candidate : Path} :
      Change files (.opening attempt candidate) (.createNew candidate) .alreadyExists files (.counting (attempt + 1))
  | exhausted {files : FileSystem Entry} {attempt : Nat} {candidate : Path} :
      Change files (.opening attempt candidate) (.createNew candidate) .alreadyExists files
        (.returned (.error .noUniqueName))
  | unopened {files : FileSystem Entry} {attempt : Nat} {candidate : Path} :
      Change files (.opening attempt candidate) (.createNew candidate) .failed files (.returned (.error .allocate))
  | secured {files : FileSystem Entry} {temp : Path} {file : Nat} :
      Change files (.securing temp file) .setPermissions .done files (.writing temp file 0)
  | unsecured {files : FileSystem Entry} {temp : Path} {file : Nat} :
      Change files (.securing temp file) .setPermissions .failed files
        (.removing temp (.error (.secure (calls.path call))))
  | wrote {files : FileSystem Entry} {temp : Path} {file written count : Nat} :
      Change files (.writing temp file written) (.write ((calls.bytes call).drop written)) (.wrote count)
        (files.append file (((calls.bytes call).drop written).take count)) (.writing temp file (written + count))
  | synced {files : FileSystem Entry} {temp : Path} {file written : Nat}
      (whole : (calls.bytes call).length ≤ written) :
      Change files (.writing temp file written) .syncAll .done files (.linking temp)
  | unwritten {files : FileSystem Entry} {temp : Path} {file written : Nat} {operation : Operation}
      (writes : operation = .write ((calls.bytes call).drop written) ∨ operation = .syncAll) :
      Change files (.writing temp file written) operation .failed files
        (.removing temp (.error (.write (calls.path call))))
  | linked {files after : FileSystem Entry} {temp : Path}
      (made : files.hardLink (calls.entry temp) (calls.entry (calls.path call)) = some after) :
      Change files (.linking temp) (.hardLink temp (calls.path call)) .done after (.removing temp (.ok ()))
  | unlinked {files : FileSystem Entry} {temp : Path} :
      Change files (.linking temp) (.hardLink temp (calls.path call)) .failed files
        (.removing temp (.error (.create (calls.path call))))
  | removed {files after : FileSystem Entry} {temp : Path} {outcome : Except WriteError Unit}
      (gone : files.removeFile (calls.entry temp) = some after) :
      Change files (.removing temp outcome) (.removeFile temp) .done after (.returned outcome)
  | unremoved {files : FileSystem Entry} {temp : Path} {outcome : Except WriteError Unit} :
      Change files (.removing temp outcome) (.removeFile temp) .failed files (.returned outcome)

end

section
variable [DecidableEq Process] [DecidableEq Call] [DecidableEq Entry] {calls : Calls Process Call Entry}
  {stage next : Stage Process Call Entry} {call : Call} {operation : Operation} {reply : Reply}

/-- A step changes the files as its operation does, and the phase of no other call. -/
theorem change_of_step (asked : Stage.operation calls call (stage.phase call) = some operation)
    (stepped : stage.step calls call reply = some next) :
    ∃ phase, next.phase = Function.update stage.phase call phase ∧
      Change calls call stage.files (stage.phase call) operation reply next.files phase := by
  unfold Stage.step at stepped
  cases here : stage.phase call with
  | counting attempt =>
      simp only [here] at asked stepped
      cases reply with
      | done =>
          cases asked
          cases stepped
          exact ⟨_, rfl, .counted _⟩
      | _ => cases stepped
  | opening attempt candidate =>
      simp only [here] at asked stepped
      cases asked
      cases reply with
      | done =>
          obtain ⟨⟨file, files⟩, made, stepped⟩ := Option.map_eq_some_iff.1 stepped
          cases stepped
          exact ⟨_, rfl, .created made⟩
      | alreadyExists =>
          cases stepped
          refine ⟨_, rfl, ?_⟩
          split
          · exact .taken
          · exact .exhausted
      | failed =>
          cases stepped
          exact ⟨_, rfl, .unopened⟩
      | wrote count => cases stepped
  | securing temp file =>
      simp only [here] at asked stepped
      cases asked
      cases reply with
      | done =>
          cases stepped
          exact ⟨_, rfl, .secured⟩
      | failed =>
          cases stepped
          exact ⟨_, rfl, .unsecured⟩
      | _ => cases stepped
  | writing temp file written =>
      simp only [here] at asked stepped
      cases reply with
      | wrote count =>
          obtain ⟨⟨filled, within⟩, stepped⟩ := Option.ite_none_right_eq_some.1 stepped
          cases stepped
          rw [List.length_drop] at within
          have short : written < (calls.bytes call).length := by omega
          rw [Stage.operation, if_pos short] at asked
          cases asked
          exact ⟨_, rfl, .wrote⟩
      | done =>
          obtain ⟨ended, stepped⟩ := Option.ite_none_right_eq_some.1 stepped
          cases stepped
          have whole := List.drop_eq_nil_iff.1 ended
          rw [Stage.operation, if_neg (Nat.not_lt.2 whole)] at asked
          cases asked
          exact ⟨_, rfl, .synced whole⟩
      | failed =>
          cases stepped
          refine ⟨_, rfl, .unwritten ?_⟩
          simp only [Stage.operation] at asked
          split at asked
          · exact .inl (Option.some.inj asked).symm
          · exact .inr (Option.some.inj asked).symm
      | alreadyExists => cases stepped
  | linking temp =>
      simp only [here] at asked stepped
      cases asked
      cases reply with
      | done =>
          obtain ⟨files, made, stepped⟩ := Option.map_eq_some_iff.1 stepped
          cases stepped
          exact ⟨_, rfl, .linked made⟩
      | failed =>
          cases stepped
          exact ⟨_, rfl, .unlinked⟩
      | _ => cases stepped
  | removing temp outcome =>
      simp only [here] at asked stepped
      cases asked
      cases reply with
      | done =>
          obtain ⟨files, gone, stepped⟩ := Option.map_eq_some_iff.1 stepped
          cases stepped
          exact ⟨_, rfl, .removed gone⟩
      | failed =>
          cases stepped
          exact ⟨_, rfl, .unremoved⟩
      | _ => cases stepped
  | returned outcome =>
      rw [here] at asked
      cases asked

end

/-! ## A call that nothing disturbs -/

section
variable [DecidableEq Process] [DecidableEq Call] [DecidableEq Entry] {calls : Calls Process Call Entry}
  {start files after : FileSystem Entry} {call : Call} {phase next : Phase}

/-- Some run leads to these files and has the call in this phase. -/
def Gets (calls : Calls Process Call Entry) (start files : FileSystem Entry) (call : Call) (phase : Phase) : Prop :=
  ∃ trace, ∃ stage : Stage Process Call Entry, Run calls start trace stage ∧ stage.files = files ∧
    stage.phase call = phase

theorem gets_next (gets : Gets calls start files call phase) {operation : Operation} (reply : Reply)
    (asked : Stage.operation calls call phase = some operation)
    (stepped : ∀ stage : Stage Process Call Entry, stage.files = files → stage.phase call = phase →
      stage.step calls call reply = some (Stage.become ⟨after, stage.counter, stage.phase⟩ call next)) :
    Gets calls start after call next := by
  obtain ⟨trace, stage, ran, same, here⟩ := gets
  exact ⟨_, _, ran.step (here ▸ asked) (stepped stage same here), rfl, Function.update_self ..⟩

/-- The artifact is written in one piece, if there is anything to write. -/
theorem gets_written {temp : Path} {file : Nat} (gets : Gets calls start files call (.writing temp file 0)) :
    ∃ after, after.names = files.names ∧ Gets calls start after call (.linking temp) := by
  cases filled : calls.bytes call with
  | nil =>
      refine ⟨files, rfl, gets_next gets .done (by simp [Stage.operation, filled]; rfl) ?_⟩
      rintro stage rfl here
      simp [Stage.step, here, filled]
  | cons byte bytes =>
      have wrote : Gets calls start (files.append file (byte :: bytes)) call
          (.writing temp file (byte :: bytes).length) := by
        refine gets_next gets (.wrote (byte :: bytes).length) (by simp [Stage.operation, filled]; rfl) ?_
        rintro stage rfl here
        simp [Stage.step, here, filled]
      refine ⟨files.append file (byte :: bytes), rfl, gets_next wrote .done (by simp [Stage.operation, filled]; rfl) ?_⟩
      rintro stage same here
      simp [Stage.step, here, filled, ← same]

section
variable {temp : Path} (first : temp = tempPath (calls.path call) (calls.pid (calls.process call)) 0)
  (free : start.names (calls.entry temp) = none)

include first free in
theorem gets_writing : ∃ file made, start.createNew (calls.entry temp) = some (file, made) ∧
    Gets calls start made call (.writing temp file 0) := by
  have opening : Gets calls start start call (.opening 0 temp) := by
    have counted : Stage.step calls (.begin start) call .done = some _ := rfl
    refine ⟨_, _, Run.begin.step rfl counted, rfl, ?_⟩
    rw [first]
    exact Function.update_self ..
  obtain ⟨file, made, created⟩ : ∃ file made, start.createNew (calls.entry temp) = some (file, made) :=
    ⟨_, _, if_pos free⟩
  have securing : Gets calls start made call (.securing temp file) := by
    refine gets_next opening .done rfl ?_
    rintro stage rfl here
    simp [Stage.step, here, created]
  refine ⟨file, made, created, gets_next securing .done rfl ?_⟩
  rintro stage rfl here
  simp [Stage.step, here]

include first free in
/-- A call succeeds if its names are free, nothing fails and no other call is scheduled. -/
theorem gets_returned (vacant : start.names (calls.entry (calls.path call)) = none)
    (apart : calls.entry (calls.path call) ≠ calls.entry temp) :
    ∃ files, Gets calls start files call (.returned (.ok ())) := by
  obtain ⟨file, made, created, writing⟩ := gets_writing first free
  obtain ⟨-, -, names, -⟩ := FileSystem.createNew_eq_some created
  obtain ⟨written, kept, linking⟩ := gets_written writing
  rw [names] at kept
  obtain ⟨linked, published⟩ :
      ∃ linked, written.hardLink (calls.entry temp) (calls.entry (calls.path call)) = some linked :=
    ⟨_, if_pos ⟨by simp [kept], by simpa [kept, apart] using vacant⟩⟩
  obtain ⟨-, both, -⟩ := FileSystem.hardLink_eq_some published
  have removing : Gets calls start linked call (.removing temp (.ok ())) := by
    refine gets_next linking .done rfl ?_
    rintro stage rfl here
    simp [Stage.step, here, published]
  obtain ⟨cleaned, gone⟩ : ∃ cleaned, linked.removeFile (calls.entry temp) = some cleaned :=
    ⟨_, if_pos (by simp [both, kept, apart.symm])⟩
  refine ⟨cleaned, gets_next removing .done rfl ?_⟩
  rintro stage rfl here
  simp [Stage.step, here, gone]

end

end

end McpTracer.Storage.WriteFile
