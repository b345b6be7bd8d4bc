import McpTracer.Foundation.Board
import McpTracer.Storage.WriteFile

/-! What a run of `write_file` calls publishes.

A run is read as moves on a board of directory entries: a temporary file is the draft of its call, and a hard
link publishes. The files are then what the board says they are, whatever fails and whoever stops.
-/

set_option autoImplicit false

namespace McpTracer.Storage.WriteFile

open McpTracer.Foundation

variable {Process Call Entry : Type}

/-! ## The board of a run -/

/-- The move on the board that an event is. -/
def moveOf (calls : Calls Process Call Entry) (event : Event Call) : Option (Move Entry Call) :=
  match event.operation, event.reply with
  | .createNew path, .done => some (.draft (calls.entry path) event.call)
  | .hardLink _ link, .done => some (.publish (calls.entry link) event.call)
  | .removeFile path, .done => some (.withdraw (calls.entry path) event.call)
  | _, _ => none

def firstBoard (start : FileSystem Entry) : Board Entry Call := fun entry =>
  match start.read entry with
  | none => .vacant
  | some _ => .original

/-- What is read under a name, by what the board says of it. -/
def Shows (calls : Calls Process Call Entry) (start : FileSystem Entry) (entry : Entry) :
    Slot Call → Option (List UInt8) → Prop
  | .vacant, value => value = none
  | .original, value => value.isSome ∧ value = start.read entry
  | .draft call, value => ∃ count, value = some ((calls.bytes call).take count)
  | .published call, value => value = some (calls.bytes call)

def Holds (calls : Calls Process Call Entry) (start files : FileSystem Entry) (board : Board Entry Call) : Prop :=
  ∀ entry, Shows calls start entry (board entry) (files.read entry)

namespace Phase

/-- The temporary file that a call still has to remove. -/
def temp : Phase → Option Path
  | .securing temp _ | .writing temp _ _ | .linking temp | .removing temp _ => some temp
  | .counting _ | .opening _ _ | .returned _ => none

/-- The temporary file that a call has open, and how much is written. -/
def openFile : Phase → Option (Path × Nat × Nat)
  | .securing temp file => some (temp, file, 0)
  | .writing temp file written => some (temp, file, written)
  | _ => none

end Phase

/-- A call at work: its temporary file is on the board, and an open file is under no other name. -/
structure Works (calls : Calls Process Call Entry) (files : FileSystem Entry) (board : Board Entry Call)
    (call : Call) (phase : Phase) : Prop where
  drafting : ∀ temp, phase.temp = some temp → board (calls.entry temp) = .draft call
  named : ∀ temp file written, phase.openFile = some (temp, file, written) →
    files.names (calls.entry temp) = some file ∧ files.contents file = (calls.bytes call).take written
  sole : ∀ temp file written, phase.openFile = some (temp, file, written) →
    ∀ entry, files.names entry = some file → entry = calls.entry temp
  complete : ∀ temp, phase = .linking temp → files.read (calls.entry temp) = some (calls.bytes call)

/-! ### Names -/

section
variable {calls : Calls Process Call Entry} {start files after : FileSystem Entry} {board : Board Entry Call}
  {call other : Call} {phase next : Phase}

theorem temp_of_openFile {temp : Path} {file written : Nat} (opened : phase.openFile = some (temp, file, written)) :
    phase.temp = some temp := by
  cases phase <;> cases opened <;> rfl

theorem temp_of_linking {temp : Path} (linking : phase = .linking temp) : phase.temp = some temp := by
  rw [linking]
  rfl

/-- A phase that has no more of its temporary file than the phase before it. -/
theorem works_of_fewer (works : Works calls files board call phase)
    (temps : ∀ temp, next.temp = some temp → phase.temp = some temp)
    (opens : ∀ opened, next.openFile = some opened → phase.openFile = some opened)
    (whole : ∀ temp, next = .linking temp → files.read (calls.entry temp) = some (calls.bytes call)) :
    Works calls files board call next where
  drafting temp has := works.drafting temp (temps temp has)
  named temp file written opened := works.named temp file written (opens _ opened)
  sole temp file written opened := works.sole temp file written (opens _ opened)
  complete := whole

/-- A phase without a temporary file. -/
theorem works_of_no_temp (without : next.temp = none) : Works calls files board call next where
  drafting temp has := by rw [without] at has; cases has
  named temp file written opened := by
    have has := temp_of_openFile opened
    rw [without] at has
    cases has
  sole temp file written opened := by
    have has := temp_of_openFile opened
    rw [without] at has
    cases has
  complete temp linking := by
    have has := temp_of_linking linking
    rw [without] at has
    cases has

theorem holds_first : Holds calls start start (firstBoard start : Board Entry Call) := by
  intro entry
  unfold firstBoard
  cases there : start.read entry with
  | none => rfl
  | some content => exact ⟨rfl, there.symm⟩

theorem vacant_of_read (holds : Holds calls start files board) {entry : Entry} (free : files.read entry = none) :
    board entry = .vacant := by
  have shows := holds entry
  rw [free] at shows
  cases slot : board entry with
  | vacant => rfl
  | original =>
      rw [slot] at shows
      cases shows.1
  | draft owner =>
      rw [slot] at shows
      obtain ⟨count, read⟩ := shows
      cases read
  | published owner =>
      rw [slot] at shows
      cases shows

/-- A name of the board is not the temporary file of a call that has another draft. -/
theorem entry_ne_of_works (works : Works calls files board other phase) {temp : Path} (has : phase.temp = some temp)
    {entry : Entry} (differs : board entry ≠ .draft other) : calls.entry temp ≠ entry := by
  intro same
  exact differs (same ▸ works.drafting temp has)

theorem draft_ne {entry : Entry} (drafted : board entry = .draft call) (apart : other ≠ call) :
    board entry ≠ .draft other := by
  intro both
  exact apart (Slot.draft.inj (both.symm.trans drafted))

theorem ne_draft_of_vacant {entry : Entry} (free : board entry = .vacant) : board entry ≠ .draft other := by
  rw [free]
  exact nofun

/-- A file that a call has open is not under a name that is not the call's. -/
theorem names_ne_of_works (works : Works calls files board other phase) {temp : Path} {file written : Nat}
    (opened : phase.openFile = some (temp, file, written)) {entry : Entry} (differs : board entry ≠ .draft other) :
    files.names entry ≠ some file := by
  intro named
  exact entry_ne_of_works works (temp_of_openFile opened) differs (works.sole temp file written opened entry named).symm

/-- Writing to the temporary file of one call concerns no other call. -/
theorem works_append (works : Works calls files board other phase) {entry : Entry} {file : Nat} {bytes : List UInt8}
    (sole : ∀ name, files.names name = some file → name = entry) (drafted : board entry = .draft call)
    (apart : other ≠ call) : Works calls (files.append file bytes) board other phase := by
  have differs : ∀ temp, phase.temp = some temp → files.names (calls.entry temp) ≠ some file := fun temp has named =>
    entry_ne_of_works works has (draft_ne drafted apart) (sole _ named)
  refine ⟨works.drafting, ?_, works.sole, ?_⟩
  · intro temp other_ written opened
    obtain ⟨named, content⟩ := works.named temp other_ written opened
    have known : other_ ≠ file := by
      rintro rfl
      exact differs temp (temp_of_openFile opened) named
    refine ⟨named, ?_⟩
    simpa [FileSystem.append, known] using content
  · intro temp linking
    rw [FileSystem.read_append_of_ne (differs temp (temp_of_linking linking))]
    exact works.complete temp linking

end

/-! ### What operations keep -/

section
variable [DecidableEq Entry] {calls : Calls Process Call Entry} {start files after : FileSystem Entry}
  {board : Board Entry Call} {call other : Call} {phase : Phase}

theorem holds_update (holds : Holds calls start files board) {entry : Entry} {value : Option (List UInt8)}
    {slot : Slot Call} (read : after.read = Function.update files.read entry value)
    (shows : Shows calls start entry slot value) : Holds calls start after (Function.update board entry slot) := by
  intro other
  rw [read]
  by_cases same : other = entry
  · subst same
    rwa [Function.update_self, Function.update_self]
  · rw [Function.update_of_ne same, Function.update_of_ne same]
    exact holds other

/-- A change under one name concerns no call that has its temporary file under another. -/
theorem works_update (works : Works calls files board other phase) {name : Entry} {slot : Slot Call}
    {target : Option Nat} {value : Option (List UInt8)}
    (unlike : ∀ temp, phase.temp = some temp → calls.entry temp ≠ name)
    (names : after.names = Function.update files.names name target)
    (read : after.read = Function.update files.read name value)
    (apart : ∀ temp file written, phase.openFile = some (temp, file, written) →
      after.contents file = files.contents file ∧ target ≠ some file) :
    Works calls after (Function.update board name slot) other phase := by
  refine ⟨?_, ?_, ?_, ?_⟩
  · intro temp has
    rw [Function.update_of_ne (unlike temp has)]
    exact works.drafting temp has
  · intro temp file written opened
    rw [names, (apart temp file written opened).1, Function.update_of_ne (unlike temp (temp_of_openFile opened))]
    exact works.named temp file written opened
  · intro temp file written opened entry named
    rw [names] at named
    by_cases same : entry = name
    · rw [same, Function.update_self] at named
      exact absurd named (apart temp file written opened).2
    · rw [Function.update_of_ne same] at named
      exact works.sole temp file written opened entry named
  · intro temp linking
    rw [read, Function.update_of_ne (unlike temp (temp_of_linking linking))]
    exact works.complete temp linking

/-- Creating a file concerns no call that has a temporary file. -/
theorem works_createNew (works : Works calls files board other phase) {candidate : Path} {file : Nat}
    (made : files.createNew (calls.entry candidate) = some (file, after))
    (free : board (calls.entry candidate) = .vacant) :
    Works calls after (Function.update board (calls.entry candidate) (.draft call)) other phase := by
  obtain ⟨-, rfl, names, contents⟩ := FileSystem.createNew_eq_some made
  refine works_update works (fun temp has => entry_ne_of_works works has (ne_draft_of_vacant free)) names
    (FileSystem.read_createNew made) ?_
  intro temp known written opened
  have older := files.fresh _ known (works.named temp known written opened).1
  rw [contents, Function.update_of_ne (Nat.ne_of_lt older)]
  exact ⟨rfl, fun same => Nat.ne_of_gt older (Option.some.inj same)⟩

/-- A new name for the temporary file of one call concerns no other call. -/
theorem works_hardLink (works : Works calls files board other phase) {entry link : Entry}
    (made : files.hardLink entry link = some after) (drafted : board entry = .draft call)
    (free : board link = .vacant) (apart : other ≠ call) :
    Works calls after (Function.update board link (.published call)) other phase := by
  obtain ⟨-, names, contents⟩ := FileSystem.hardLink_eq_some made
  refine works_update works (fun temp has => entry_ne_of_works works has (ne_draft_of_vacant free)) names
    (FileSystem.read_hardLink made) ?_
  intro temp file written opened
  exact ⟨congrFun contents file, names_ne_of_works works opened (draft_ne drafted apart)⟩

/-- Removing the temporary file of one call concerns no other call. -/
theorem works_removeFile (works : Works calls files board other phase) {entry : Entry}
    (gone : files.removeFile entry = some after) (drafted : board entry = .draft call) (apart : other ≠ call) :
    Works calls after (Function.update board entry .vacant) other phase := by
  obtain ⟨names, contents⟩ := FileSystem.removeFile_eq_some gone
  refine works_update works (fun temp has => entry_ne_of_works works has (draft_ne drafted apart)) names
    (FileSystem.read_removeFile gone) ?_
  intro temp file written opened
  exact ⟨congrFun contents file, nofun⟩

end

/-! ### What a step keeps -/

section
variable [DecidableEq Call] [DecidableEq Entry] {calls : Calls Process Call Entry}
  {start files after : FileSystem Entry} {board : Board Entry Call} {call : Call} {phase next : Phase}
  {operation : Operation} {reply : Reply}

/-- The board after an event. -/
def BoardAfter (calls : Calls Process Call Entry) (board : Board Entry Call) (event : Event Call)
    (after : Board Entry Call) : Prop :=
  match moveOf calls event with
  | none => after = board
  | some move => board.play move = some after

/-- One operation of a call is one move on the board, and the files stay what the board says. -/
theorem change_keeps (changed : Change calls call files phase operation reply after next)
    (holds : Holds calls start files board) (works : Works calls files board call phase) :
    ∃ moved, BoardAfter calls board ⟨call, operation, reply⟩ moved ∧ Holds calls start after moved ∧
      Works calls after moved call next ∧
      ∀ other phase, other ≠ call → Works calls files board other phase → Works calls after moved other phase := by
  cases changed with
  | counted sequence => exact ⟨board, rfl, holds, works_of_no_temp rfl, fun _ _ _ others => others⟩
  | @created _ attempt file candidate made =>
      have free := vacant_of_read holds (FileSystem.read_eq_none.2 (FileSystem.createNew_eq_some made).1)
      -- The number of the new file is not in use, so the candidate is its only name.
      refine ⟨_, Board.play_draft free, holds_update holds (FileSystem.read_createNew made) ⟨0, rfl⟩, ?_,
        fun other phase _ others => works_createNew others made free⟩
      obtain ⟨-, rfl, names, contents⟩ := FileSystem.createNew_eq_some made
      refine ⟨?_, ?_, ?_, ?_⟩
      · intro temp has
        cases has
        exact Function.update_self ..
      · intro temp file written opened
        cases opened
        simp [names, contents]
      · intro temp file written opened entry named
        cases opened
        by_contra differs
        rw [names, Function.update_of_ne differs] at named
        exact Nat.lt_irrefl _ (files.fresh _ _ named)
      · intro temp linking
        cases linking
  | taken => exact ⟨board, rfl, holds, works_of_no_temp rfl, fun _ _ _ others => others⟩
  | exhausted => exact ⟨board, rfl, holds, works_of_no_temp rfl, fun _ _ _ others => others⟩
  | unopened => exact ⟨board, rfl, holds, works_of_no_temp rfl, fun _ _ _ others => others⟩
  | secured =>
      exact ⟨board, rfl, holds, works_of_fewer works (fun _ has => has) (fun _ opened => opened) (by rintro _ ⟨⟩),
        fun _ _ _ others => others⟩
  | unsecured =>
      exact ⟨board, rfl, holds, works_of_fewer works (fun _ has => has) (by rintro _ ⟨⟩) (by rintro _ ⟨⟩),
        fun _ _ _ others => others⟩
  | @wrote temp file written count =>
      have drafted := works.drafting temp rfl
      obtain ⟨named, content⟩ := works.named temp file written rfl
      have sole := works.sole temp file written rfl
      have grown : files.contents file ++ ((calls.bytes call).drop written).take count =
          (calls.bytes call).take (written + count) := by rw [content, List.take_add]
      refine ⟨board, rfl, ?_, ⟨works.drafting, ?_, ?_, by rintro _ ⟨⟩⟩,
        fun other phase apart others => works_append others sole drafted apart⟩
      · intro entry
        by_cases same : entry = calls.entry temp
        · subst same
          rw [drafted, FileSystem.read_append named, grown]
          exact ⟨written + count, rfl⟩
        · rw [FileSystem.read_append_of_ne fun under => same (sole entry under)]
          exact holds entry
      · intro temp file written opened
        cases opened
        exact ⟨named, by simpa [FileSystem.append] using grown⟩
      · intro temp file written opened
        cases opened
        exact sole
  | @synced temp file written whole =>
      obtain ⟨named, content⟩ := works.named temp file written rfl
      refine ⟨board, rfl, holds, works_of_fewer works (fun _ has => has) (by rintro _ ⟨⟩) ?_,
        fun _ _ _ others => others⟩
      intro other linking
      cases linking
      rw [FileSystem.read, named, Option.map_some, content, List.take_of_length_le whole]
  | unwritten writes =>
      refine ⟨board, ?_, holds, works_of_fewer works (fun _ has => has) (by rintro _ ⟨⟩) (by rintro _ ⟨⟩),
        fun _ _ _ others => others⟩
      rcases writes with rfl | rfl <;> rfl
  | @linked _ temp made =>
      have drafted := works.drafting temp rfl
      have free := vacant_of_read holds (FileSystem.read_eq_none.2 (FileSystem.hardLink_eq_some made).1)
      refine ⟨_, Board.play_publish free, holds_update holds (FileSystem.read_hardLink made) (works.complete temp rfl),
        ⟨?_, by rintro _ _ _ ⟨⟩, by rintro _ _ _ ⟨⟩, by rintro _ ⟨⟩⟩,
        fun other phase apart others => works_hardLink others made drafted free apart⟩
      intro other has
      cases has
      have unlike : calls.entry temp ≠ calls.entry (calls.path call) :=
        entry_ne_of_works works rfl (ne_draft_of_vacant free)
      rw [Function.update_of_ne unlike]
      exact drafted
  | unlinked =>
      exact ⟨board, rfl, holds, works_of_fewer works (fun _ has => has) (by rintro _ ⟨⟩) (by rintro _ ⟨⟩),
        fun _ _ _ others => others⟩
  | @removed _ temp outcome gone =>
      have drafted := works.drafting temp rfl
      exact ⟨_, Board.play_withdraw drafted, holds_update holds (FileSystem.read_removeFile gone) rfl,
        works_of_no_temp rfl, fun other phase apart others => works_removeFile others gone drafted apart⟩
  | unremoved => exact ⟨board, rfl, holds, works_of_no_temp rfl, fun _ _ _ others => others⟩

end

/-! ## What the calls have done -/

/-- The paths of the operations of a call that are selected. -/
def performed [DecidableEq Call] (select : Operation → Reply → Option Path) (trace : List (Event Call)) (call : Call) :
    List Path :=
  trace.filterMap fun event => if event.call = call then select event.operation event.reply else none

def creates : Operation → Reply → Option Path
  | .createNew path, .done => some path
  | _, _ => none

def links : Operation → Reply → Option Path
  | .hardLink _ link, .done => some link
  | _, _ => none

def removes : Operation → Reply → Option Path
  | .removeFile path, .done => some path
  | _, _ => none

/-- The removals that are tried, with or without success. -/
def triesToRemove : Operation → Reply → Option Path
  | .removeFile path, _ => some path
  | _, _ => none

/-- The links that a call with this outcome has made. -/
def linksOf (path : Path) : Except WriteError Unit → List Path
  | .ok () => [path]
  | .error _ => []

def IsTempOf (calls : Calls Process Call Entry) (call : Call) (temp : Path) : Prop :=
  ∃ sequence, temp = tempPath (calls.path call) (calls.pid (calls.process call)) sequence

/-- What a call has created, tried to remove and linked, by where it is. -/
def Accounted (calls : Calls Process Call Entry) (call : Call) (created tried linked : List Path) : Phase → Prop
  | .counting _ => created = [] ∧ tried = [] ∧ linked = []
  | .opening _ candidate => IsTempOf calls call candidate ∧ created = [] ∧ tried = [] ∧ linked = []
  | .securing temp _ | .writing temp _ _ | .linking temp =>
    IsTempOf calls call temp ∧ created = [temp] ∧ tried = [] ∧ linked = []
  | .removing temp outcome =>
    IsTempOf calls call temp ∧ created = [temp] ∧ tried = [] ∧ linked = linksOf (calls.path call) outcome
  | .returned outcome =>
    created.length ≤ 1 ∧ (∀ temp ∈ created, IsTempOf calls call temp) ∧ tried = created ∧
      linked = linksOf (calls.path call) outcome

section
variable [DecidableEq Call] {select : Operation → Reply → Option Path} {trace : List (Event Call)}
  {call other : Call} {operation : Operation} {reply : Reply}

theorem performed_concat : performed select (trace ++ [⟨call, operation, reply⟩]) call =
    performed select trace call ++ (select operation reply).toList := by
  simp only [performed, List.filterMap_append, List.filterMap_cons, List.filterMap_nil, if_true]
  cases select operation reply <;> rfl

theorem performed_concat_of_ne (apart : other ≠ call) :
    performed select (trace ++ [⟨call, operation, reply⟩]) other = performed select trace other := by
  simp [performed, apart.symm]

theorem performed_removes_subset {path : Path} (removed : path ∈ performed removes trace call) :
    path ∈ performed triesToRemove trace call := by
  obtain ⟨event, present, found⟩ := List.mem_filterMap.1 removed
  obtain ⟨own, found⟩ := Option.ite_none_right_eq_some.1 found
  refine List.mem_filterMap.2 ⟨event, present, ?_⟩
  rw [if_pos own]
  cases did : event.operation <;> cases answer : event.reply <;> rw [did, answer] at found <;> cases found
  rfl

end

section
variable [DecidableEq Entry] {calls : Calls Process Call Entry} {files after : FileSystem Entry} {call : Call}
  {phase next : Phase} {operation : Operation} {reply : Reply} {created tried linked : List Path}

theorem change_accounted (changed : Change calls call files phase operation reply after next)
    (accounted : Accounted calls call created tried linked phase) :
    Accounted calls call (created ++ (creates operation reply).toList)
      (tried ++ (triesToRemove operation reply).toList) (linked ++ (links operation reply).toList) next := by
  cases changed with
  | counted sequence =>
      obtain ⟨rfl, rfl, rfl⟩ := accounted
      exact ⟨⟨sequence, rfl⟩, rfl, rfl, rfl⟩
  | taken =>
      obtain ⟨-, rfl, rfl, rfl⟩ := accounted
      exact ⟨rfl, rfl, rfl⟩
  | exhausted | unopened =>
      obtain ⟨-, rfl, rfl, rfl⟩ := accounted
      exact ⟨Nat.zero_le 1, nofun, rfl, rfl⟩
  | unwritten writes =>
      obtain ⟨named, rfl, rfl, rfl⟩ := accounted
      rcases writes with rfl | rfl <;> exact ⟨named, rfl, rfl, rfl⟩
  | removed | unremoved =>
      obtain ⟨named, rfl, rfl, rfl⟩ := accounted
      exact ⟨Nat.le_refl 1, fun _ only => List.mem_singleton.1 only ▸ named, rfl, List.append_nil _⟩
  | _ =>
      obtain ⟨named, rfl, rfl, rfl⟩ := accounted
      exact ⟨named, rfl, rfl, rfl⟩

end

/-- A call creates at most one file, by a name of its own, and tries to remove nothing else. -/
theorem accounted_spec {calls : Calls Process Call Entry} {call : Call} {created tried linked : List Path}
    {phase : Phase} (accounted : Accounted calls call created tried linked phase) :
    created.length ≤ 1 ∧ tried ⊆ created ∧ ∀ temp ∈ created, IsTempOf calls call temp := by
  cases phase with
  | counting =>
      obtain ⟨rfl, rfl, -⟩ := accounted
      exact ⟨Nat.zero_le 1, List.Subset.refl _, nofun⟩
  | opening =>
      obtain ⟨-, rfl, rfl, -⟩ := accounted
      exact ⟨Nat.zero_le 1, List.Subset.refl _, nofun⟩
  | securing | writing | linking | removing =>
      obtain ⟨named, rfl, rfl, -⟩ := accounted
      exact ⟨Nat.le_refl 1, List.nil_subset _, fun _ only => List.mem_singleton.1 only ▸ named⟩
  | returned =>
      obtain ⟨short, named, rfl, -⟩ := accounted
      exact ⟨short, List.Subset.refl _, named⟩

section
variable [DecidableEq Call] [DecidableEq Entry] {calls : Calls Process Call Entry} {trace : List (Event Call)}
  {call : Call} {entry : Entry}

/-- Moves of one kind are the operations that they come from. -/
theorem count_moves {move : Move Entry Call} {select : Operation → Reply → Option Path}
    (kind : ∀ event : Event Call, moveOf calls event = some move ↔
      event.call = call ∧ (select event.operation event.reply).map calls.entry = some entry) :
    (trace.filterMap (moveOf calls)).count move = ((performed select trace call).map calls.entry).count entry := by
  rw [performed, List.map_filterMap, List.count_filterMap, List.count_filterMap]
  refine List.countP_congr fun event _ => ?_
  rw [beq_iff_eq, beq_iff_eq, kind event]
  by_cases own : event.call = call <;> simp [own]

theorem count_draft_moves : (trace.filterMap (moveOf calls)).count (.draft entry call) =
    ((performed creates trace call).map calls.entry).count entry := by
  refine count_moves fun ⟨owner, operation, reply⟩ => ?_
  cases operation <;> cases reply <;> simp [moveOf, creates, and_comm]

theorem count_withdraw_moves : (trace.filterMap (moveOf calls)).count (.withdraw entry call) =
    ((performed removes trace call).map calls.entry).count entry := by
  refine count_moves fun ⟨owner, operation, reply⟩ => ?_
  cases operation <;> cases reply <;> simp [moveOf, removes, and_comm]

theorem publish_mem_moves : Move.publish entry call ∈ trace.filterMap (moveOf calls) ↔
    entry ∈ (performed links trace call).map calls.entry := by
  rw [← List.count_pos_iff, ← List.count_pos_iff, count_moves]
  intro ⟨owner, operation, reply⟩
  cases operation <;> cases reply <;> simp [moveOf, links, and_comm]

end

/-! ## Runs -/

section
variable [DecidableEq Process] [DecidableEq Call] [DecidableEq Entry] {calls : Calls Process Call Entry}
  {start : FileSystem Entry} {trace : List (Event Call)} {stage : Stage Process Call Entry}

/-- What is known of a run at every moment. -/
structure Kept (calls : Calls Process Call Entry) (start : FileSystem Entry) (trace : List (Event Call))
    (stage : Stage Process Call Entry) (board : Board Entry Call) : Prop where
  played : (firstBoard start : Board Entry Call).playAll (trace.filterMap (moveOf calls)) = some board
  holds : Holds calls start stage.files board
  works : ∀ call, Works calls stage.files board call (stage.phase call)
  accounted : ∀ call, Accounted calls call (performed creates trace call) (performed triesToRemove trace call)
    (performed links trace call) (stage.phase call)

theorem Run.kept (ran : Run calls start trace stage) : ∃ board, Kept calls start trace stage board := by
  induction ran with
  | begin =>
      exact ⟨firstBoard start, rfl, holds_first, fun _ => works_of_no_temp rfl, fun _ => ⟨rfl, rfl, rfl⟩⟩
  | @step trace stage next call operation reply _ asked stepped ih =>
      obtain ⟨board, kept⟩ := ih
      obtain ⟨phase, phases, changed⟩ := change_of_step asked stepped
      obtain ⟨moved, after, holds, works, others⟩ := change_keeps changed kept.holds (kept.works call)
      refine ⟨moved, ?_, holds, ?_, ?_⟩
      · rw [List.filterMap_append, Board.playAll_append, kept.played, Option.bind_some]
        unfold BoardAfter at after
        cases move : moveOf calls ⟨call, operation, reply⟩ with
        | none =>
            rw [move] at after
            rw [List.filterMap_cons_none move, after]
            rfl
        | some made =>
            rw [move] at after
            rw [List.filterMap_cons_some move]
            simp [Board.playAll, after]
      · intro other
        rw [phases]
        by_cases same : other = call
        · rw [same, Function.update_self]
          exact works
        · rw [Function.update_of_ne same]
          exact others other _ same (kept.works other)
      · intro other
        rw [phases]
        by_cases same : other = call
        · rw [same, Function.update_self]
          simp only [performed_concat]
          exact change_accounted changed (kept.accounted call)
        · rw [Function.update_of_ne same]
          simp only [performed_concat_of_ne same]
          exact kept.accounted other

end

/-! ## Publication -/

section
variable [DecidableEq Call]

/-- The call has a temporary file under the name: it created it and has not removed it. -/
def HasDraft (calls : Calls Process Call Entry) (trace : List (Event Call)) (call : Call) (entry : Entry) : Prop :=
  ∃ temp ∈ performed creates trace call, temp ∉ performed removes trace call ∧ calls.entry temp = entry

/-- The call has linked its artifact to the name. -/
def HasLinked (calls : Calls Process Call Entry) (trace : List (Event Call)) (call : Call) (entry : Entry) : Prop :=
  ∃ link ∈ performed links trace call, calls.entry link = entry

/-- A name is free, or under it is the temporary file of exactly one call or the whole artifact of exactly one. -/
inductive Standing (calls : Calls Process Call Entry) (trace : List (Event Call)) (files : FileSystem Entry)
    (entry : Entry) : Prop where
  | absent (read : files.read entry = none) : Standing calls trace files entry
  | draft (call : Call) (count : Nat) (read : files.read entry = some ((calls.bytes call).take count))
      (has : HasDraft calls trace call entry) (only : ∀ other, HasDraft calls trace other entry → other = call)
      (unlinked : ∀ other, ¬ HasLinked calls trace other entry) : Standing calls trace files entry
  | published (call : Call) (read : files.read entry = some (calls.bytes call))
      (has : HasLinked calls trace call entry) (only : ∀ other, HasLinked calls trace other entry → other = call)
      (undrafted : ∀ other, ¬ HasDraft calls trace other entry) : Standing calls trace files entry

/-- What a moment of a run guarantees of the files, of every call that has returned, and of its temporary file. -/
structure Publication (calls : Calls Process Call Entry) (start : FileSystem Entry) (trace : List (Event Call))
    (stage : Stage Process Call Entry) : Prop where
  kept : ∀ entry, start.read entry ≠ none → stage.files.read entry = start.read entry
  standing : ∀ entry, start.read entry = none → Standing calls trace stage.files entry
  succeeded : ∀ call, stage.phase call = .returned (.ok ()) →
    stage.files.read (calls.entry (calls.path call)) = some (calls.bytes call)
  once : ∀ call other, stage.phase call = .returned (.ok ()) → stage.phase other = .returned (.ok ()) →
    calls.entry (calls.path call) = calls.entry (calls.path other) → call = other
  failed : ∀ call err, stage.phase call = .returned (.error err) → performed links trace call = []
  cleaned : ∀ call outcome, stage.phase call = .returned outcome →
    (performed creates trace call).length ≤ 1 ∧ performed triesToRemove trace call = performed creates trace call
  own : ∀ call, (∀ temp ∈ performed creates trace call, IsTempOf calls call temp) ∧
    performed triesToRemove trace call ⊆ performed creates trace call

end

section
variable [DecidableEq Call] [DecidableEq Entry] {calls : Calls Process Call Entry}
  {start : FileSystem Entry} {trace : List (Event Call)} {stage : Stage Process Call Entry} {board : Board Entry Call}
  {call : Call} {entry : Entry}

theorem hasLinked_iff (kept : Kept calls start trace stage board) :
    HasLinked calls trace call entry ↔ board entry = .published call := by
  have unpublished : (firstBoard start : Board Entry Call) entry ≠ .published call := by
    unfold firstBoard
    split <;> exact nofun
  rw [Board.published_playAll kept.played, or_iff_right unpublished, publish_mem_moves, List.mem_map]
  rfl

/-- A call creates one temporary file and removes it once, so a draft is on the board until it is removed. -/
theorem hasDraft_iff (kept : Kept calls start trace stage board) :
    HasDraft calls trace call entry ↔ board entry = .draft call := by
  have undrafted : (firstBoard start : Board Entry Call) entry ≠ .draft call := by
    unfold firstBoard
    split <;> exact nofun
  have balance := Board.count_draft_playAll kept.played entry call
  rw [if_neg undrafted, count_draft_moves, count_withdraw_moves] at balance
  obtain ⟨short, tried, -⟩ := accounted_spec (kept.accounted call)
  constructor
  · rintro ⟨temp, made, left, rfl⟩
    obtain ⟨only, created⟩ := List.length_eq_one_iff.1 (Nat.le_antisymm short (List.length_pos_of_mem made))
    rw [created, List.mem_singleton] at made
    -- Nothing else is created by the call, so nothing else was removed by it.
    have unremoved : performed removes trace call = [] := by
      refine List.eq_nil_iff_forall_not_mem.2 fun path removed => left ?_
      have same := tried (performed_removes_subset removed)
      rw [created, List.mem_singleton] at same
      rwa [made, ← same]
    subst made
    rw [created, unremoved] at balance
    simpa using balance
  · intro drafted
    rw [if_pos drafted] at balance
    have counted : ((performed creates trace call).map calls.entry).count entry ≤ 1 :=
      Nat.le_trans List.count_le_length (by rwa [List.length_map])
    obtain ⟨temp, made, named⟩ := List.mem_map.1 (List.count_pos_iff.1 (by omega :
      0 < ((performed creates trace call).map calls.entry).count entry))
    refine ⟨temp, made, fun removed => ?_, named⟩
    have gone := List.count_pos_iff.2 (List.mem_map.2 ⟨temp, removed, named⟩)
    omega

theorem standing_of_kept (kept : Kept calls start trace stage board) (free : start.read entry = none) :
    Standing calls trace stage.files entry := by
  have shows := kept.holds entry
  cases slot : board entry with
  | vacant =>
      rw [slot] at shows
      exact .absent shows
  | original =>
      rw [Board.original_playAll kept.played, firstBoard, free] at slot
      cases slot
  | draft call =>
      rw [slot] at shows
      obtain ⟨count, read⟩ := shows
      refine .draft call count read ((hasDraft_iff kept).2 slot) ?_ ?_
      · intro other has
        exact (Slot.draft.inj (slot.symm.trans ((hasDraft_iff kept).1 has))).symm
      · intro other has
        cases slot.symm.trans ((hasLinked_iff kept).1 has)
  | published call =>
      rw [slot] at shows
      refine .published call shows ((hasLinked_iff kept).2 slot) ?_ ?_
      · intro other has
        exact (Slot.published.inj (slot.symm.trans ((hasLinked_iff kept).1 has))).symm
      · intro other has
        cases slot.symm.trans ((hasDraft_iff kept).1 has)

theorem read_of_taken (kept : Kept calls start trace stage board) (taken : start.read entry ≠ none) :
    stage.files.read entry = start.read entry := by
  have slot : board entry = .original := by
    rw [Board.original_playAll kept.played, firstBoard]
    cases there : start.read entry with
    | none => exact absurd there taken
    | some content => rfl
  have shows := kept.holds entry
  rw [slot] at shows
  exact shows.2

/-- A call that returns without an error has published its artifact. -/
theorem published_of_returned (kept : Kept calls start trace stage board)
    (returned : stage.phase call = .returned (.ok ())) :
    board (calls.entry (calls.path call)) = .published call := by
  have accounted := kept.accounted call
  rw [returned] at accounted
  obtain ⟨-, -, -, linked⟩ := accounted
  refine (hasLinked_iff kept).1 ⟨calls.path call, ?_, rfl⟩
  rw [linked]
  exact List.mem_singleton_self _

/-- Concurrent calls publish whole artifacts and replace nothing, whatever fails and whoever stops. -/
theorem write_file_publishes [DecidableEq Process] (ran : Run calls start trace stage) :
    Publication calls start trace stage := by
  obtain ⟨board, kept⟩ := ran.kept
  refine ⟨?_, ?_, ?_, ?_, ?_, ?_, ?_⟩
  · intro entry taken
    exact read_of_taken kept taken
  · intro entry free
    exact standing_of_kept kept free
  · intro call returned
    have shows := kept.holds (calls.entry (calls.path call))
    rwa [published_of_returned kept returned] at shows
  · intro call other returned others same
    have first := published_of_returned kept returned
    rw [same, published_of_returned kept others] at first
    exact (Slot.published.inj first).symm
  · intro call err returned
    have accounted := kept.accounted call
    rw [returned] at accounted
    exact accounted.2.2.2
  · intro call outcome returned
    have accounted := kept.accounted call
    rw [returned] at accounted
    exact ⟨accounted.1, accounted.2.2.1⟩
  · intro call
    obtain ⟨-, tried, named⟩ := accounted_spec (kept.accounted call)
    exact ⟨named, tried⟩

end

/-! ### Runs of few calls -/

def noFiles : FileSystem Path := ⟨fun _ => none, fun _ => [], 0, nofun⟩

/-- One call in a process that has the number 77. -/
def soloCalls : Calls Unit Unit Path where
  pid _ := 77
  process _ := ()
  path _ := [.normal (osString "x")]
  bytes _ := [1, 2]
  entry := id

theorem write_file_publishes_solo : ∃ trace stage, Run soloCalls noFiles trace stage ∧
    stage.phase () = .returned (.ok ()) ∧ Publication soloCalls noFiles trace stage := by
  have apart : soloCalls.entry (soloCalls.path ()) ≠ soloCalls.entry (tempPath (soloCalls.path ()) 77 0) := nofun
  have free : ∀ entry, noFiles.names entry = none := fun _ => rfl
  obtain ⟨files, trace, stage, ran, -, returned⟩ := gets_returned rfl (free _) (free _) apart
  exact ⟨trace, stage, ran, returned, write_file_publishes ran⟩

/-- Two calls, the second of which has the first's temporary file for its destination. -/
def clashingCalls : Calls Unit Bool Path where
  pid _ := 77
  process _ := ()
  path
    | false => [.normal (osString "x")]
    | true => tempPath [.normal (osString "x")] 77 0
  bytes
    | false => [1, 2]
    | true => [3]
  entry := id

/-- The destination of a call may hold what is no call's artifact: the beginning of another call's. -/
theorem destination_is_draft : ∃ trace stage, Run clashingCalls noFiles trace stage ∧
    noFiles.read (clashingCalls.entry (clashingCalls.path true)) = none ∧
    stage.files.read (clashingCalls.entry (clashingCalls.path true)) ≠ none ∧
    ∀ call, stage.files.read (clashingCalls.entry (clashingCalls.path true)) ≠ some (clashingCalls.bytes call) := by
  have free : noFiles.names (clashingCalls.entry (clashingCalls.path true)) = none := rfl
  have first : clashingCalls.path true = tempPath (clashingCalls.path false) 77 0 := rfl
  obtain ⟨file, made, created, trace, stage, ran, rfl, -⟩ := gets_writing first free
  have empty : stage.files.read (clashingCalls.entry (clashingCalls.path true)) = some [] := by
    rw [FileSystem.read_createNew created, Function.update_self]
  refine ⟨trace, stage, ran, rfl, ?_, ?_⟩
  · rw [empty]
    exact nofun
  · intro call
    rw [empty]
    cases call <;> exact nofun

end McpTracer.Storage.WriteFile
