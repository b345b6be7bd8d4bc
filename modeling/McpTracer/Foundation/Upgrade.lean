import Mathlib.Data.List.Induction
import Mathlib.Logic.Function.Basic
import McpTracer.Foundation.Outcome

/-! A database that whoever opens it brings up to date.

An opener prepares the database, takes the only write reservation, reads what there is to do, does it on a copy of its
own and commits the copy. It may find the database locked and start over or give up, and it may die. What it has not
committed is lost then. An opener that is through writes changes.

However the openers take turns, one of them at most brings the database up to date, and it does so on the database as
it was found.
-/

set_option autoImplicit false

namespace McpTracer.Foundation

/-- What is to be done to a database of type D: tasks T that may fail with E. -/
structure Upgrading (D T E : Type) where
  /-- Committed at once; none if there is nothing to prepare. -/
  prepare : D → Option (Except E D)
  plan : D → Except E (List T)
  carryOut : D → T → Except E D

inductive Opening (T E : Type) where
  | starting
  | prepared
  | upgrading (todo : List T)
  | opened
  | refused (error : E)
  | lockedOut
  | dead

/-- A database that openers P share, with what became of each of them. -/
structure SharedDatabase (P D T E W : Type) where
  disk : D
  /-- Who holds the write reservation, with its copy. -/
  writer : Option (P × D)
  openers : P → Opening T E
  /-- The changes that were committed. -/
  changes : List W

inductive OpenerStep (P W : Type) where
  | prepare (opener : P)
  | reserve (opener : P)
  | carryOut (opener : P)
  | findLocked (opener : P) (expired : Bool)
  | die (opener : P)
  | write (opener : P) (change : W)

section
variable {P D T E W : Type} [DecidableEq P]

namespace SharedDatabase

def found (disk : D) : SharedDatabase P D T E W := ⟨disk, none, fun _ => .starting, []⟩

def become (shared : SharedDatabase P D T E W) (opener : P) (opening : Opening T E) : SharedDatabase P D T E W :=
  { shared with openers := Function.update shared.openers opener opening }

/-- The copy of an opener is dropped. -/
def withdraw (shared : SharedDatabase P D T E W) (opener : P) (opening : Opening T E) : SharedDatabase P D T E W :=
  match shared.openers opener with
  | .upgrading _ => { shared with writer := none }.become opener opening
  | _ => shared.become opener opening

end SharedDatabase

namespace Upgrading
variable (upgrading : Upgrading D T E) (write : D → W → D)

/-- What one opener does that is alone. -/
def bring (disk : D) : Except E D := do
  let prepared ← (upgrading.prepare disk).getD (.ok disk)
  let todo ← upgrading.plan prepared
  todo.foldlM upgrading.carryOut prepared

/-- A step that cannot be taken leaves everything as it is. -/
def perform (shared : SharedDatabase P D T E W) : OpenerStep P W → SharedDatabase P D T E W
  | .prepare opener =>
    match shared.openers opener with
    | .starting =>
      match upgrading.prepare shared.disk, shared.writer with
      | none, _ => shared.become opener .prepared
      | some (.ok disk), none => { shared with disk := disk }.become opener .prepared
      | some (.error error), none => shared.become opener (.refused error)
      -- There is something to write, and another opener holds the reservation.
      | some _, some _ => shared
    | _ => shared
  | .reserve opener =>
    match shared.openers opener, shared.writer with
    | .prepared, none =>
      match upgrading.plan shared.disk with
      | .ok todo => { shared with writer := some (opener, shared.disk) }.become opener (.upgrading todo)
      | .error error => shared.become opener (.refused error)
    | _, _ => shared
  | .carryOut opener =>
    match shared.openers opener, shared.writer with
    | .upgrading [], some (_, copy) => { shared with disk := copy, writer := none }.become opener .opened
    | .upgrading (task :: todo), some (_, copy) =>
      match upgrading.carryOut copy task with
      | .ok copy => { shared with writer := some (opener, copy) }.become opener (.upgrading todo)
      | .error error => { shared with writer := none }.become opener (.refused error)
    | _, _ => shared
  | .findLocked opener expired =>
    match shared.openers opener with
    -- It starts over unless its time is up.
    | .starting | .prepared | .upgrading _ => shared.withdraw opener (if expired then .lockedOut else .starting)
    | _ => shared
  | .die opener => shared.withdraw opener .dead
  | .write opener change =>
    match shared.openers opener, shared.writer with
    | .opened, none => { shared with disk := write shared.disk change, changes := shared.changes ++ [change] }
    | _, _ => shared

def run (disk : D) (steps : List (OpenerStep P W)) : SharedDatabase P D T E W :=
  steps.foldl (upgrading.perform write) (.found disk)

/-! ## Before the database is up to date -/

section Runs
variable {upgrading} {write} {found : D} {shared : SharedDatabase P D T E W}

/-- The disk is the one that was found, prepared. -/
def Prepared (upgrading : Upgrading D T E) (found disk : D) : Prop :=
  (upgrading.prepare found).getD (.ok found) = .ok disk

/-- Preparing again finds nothing to do. -/
def PreparesOnce (upgrading : Upgrading D T E) (found : D) : Prop :=
  ∀ disk, upgrading.prepare found = some (.ok disk) → upgrading.prepare disk = none

/-- What is true of an opener as long as nobody has brought the database up to date. -/
def Early (upgrading : Upgrading D T E) (found disk : D) (writer : Option (P × D)) (opener : P) :
    Opening T E → Prop
  | .prepared => upgrading.Prepared found disk
  | .upgrading todo => upgrading.Prepared found disk ∧
      ∃ copy, writer = some (opener, copy) ∧ todo.foldlM upgrading.carryOut copy = upgrading.bring found
  | .refused error => upgrading.bring found = .error error
  | .opened => False
  | .starting | .lockedOut | .dead => True

/-- Nobody has brought the database up to date yet. -/
structure Untouched (upgrading : Upgrading D T E) (found : D) (shared : SharedDatabase P D T E W) : Prop where
  disk : shared.disk = found ∨ upgrading.prepare found = some (.ok shared.disk)
  unchanged : shared.changes = []
  openers : ∀ opener, upgrading.Early found shared.disk shared.writer opener (shared.openers opener)

/-- What is true of an opener from then on. -/
def Late (disk : D) (writer : Option (P × D)) (opener : P) : Opening T E → Prop
  | .upgrading todo => todo = [] ∧ writer = some (opener, disk)
  | .refused _ => False
  | _ => True

/-- The database was brought up to date once, and has the changes since then. -/
structure Upgraded (upgrading : Upgrading D T E) (write : D → W → D) (found : D)
    (shared : SharedDatabase P D T E W) : Prop where
  disk : ∃ done, upgrading.bring found = .ok done ∧ shared.disk = shared.changes.foldl write done
  openers : ∀ opener, Late shared.disk shared.writer opener (shared.openers opener)

/-- An opener finds nothing to do once the database is up to date, whatever was changed. -/
def StaysUpgraded (upgrading : Upgrading D T E) (write : D → W → D) (found : D) : Prop :=
  ∀ done, upgrading.bring found = .ok done → ∀ changes : List W,
    upgrading.prepare (changes.foldl write done) = none ∧ upgrading.plan (changes.foldl write done) = .ok []

omit [DecidableEq P] in
theorem untouched_found (upgrading : Upgrading D T E) (found : D) :
    upgrading.Untouched found (.found found : SharedDatabase P D T E W) :=
  ⟨.inl rfl, rfl, fun _ => trivial⟩

theorem bring_eq {disk : D} (prepared : upgrading.Prepared found disk) :
    upgrading.bring found = upgrading.plan disk >>= fun todo => todo.foldlM upgrading.carryOut disk := by
  rw [bring, prepared]
  rfl

omit [DecidableEq P] in
/-- Only one opener holds the reservation. -/
theorem apart_of_held {writer : Option (P × D)} {holder other : P} {copy : D} (held : writer = some (holder, copy))
    (differs : other ≠ holder) (another : D) : writer ≠ some (other, another) := by
  rw [held]
  exact fun same => differs (Prod.mk.inj (Option.some.inj same)).1.symm

omit [DecidableEq P] in
/-- Who does not hold the reservation is not upgrading. -/
theorem Early.other {opener : P} {disk : D} {writer after : Option (P × D)} {opening : Opening T E}
    (early : upgrading.Early found disk writer opener opening) (apart : ∀ copy, writer ≠ some (opener, copy)) :
    upgrading.Early found disk after opener opening := by
  cases opening with
  | upgrading todo =>
    obtain ⟨-, copy, held, -⟩ := early
    exact absurd held (apart copy)
  | _ => exact early

omit [DecidableEq P] in
theorem Late.other {opener : P} {disk next : D} {writer after : Option (P × D)} {opening : Opening T E}
    (late : Late disk writer opener opening) (apart : ∀ copy, writer ≠ some (opener, copy)) :
    Late next after opener opening := by
  cases opening with
  | upgrading todo => exact absurd late.2 (apart disk)
  | _ => exact late

/-- An opener that drops its copy keeps what is true of the others. -/
theorem withdraw_openers (holds : Option (P × D) → P → Opening T E → Prop) {opener : P} {opening : Opening T E}
    (openers : ∀ other, holds shared.writer other (shared.openers other))
    (own : ∀ writer, holds writer opener opening)
    (others : ∀ todo, shared.openers opener = .upgrading todo → ∀ other, other ≠ opener →
      holds shared.writer other (shared.openers other) → holds none other (shared.openers other)) :
    ∀ other, holds (shared.withdraw opener opening).writer other ((shared.withdraw opener opening).openers other) := by
  unfold SharedDatabase.withdraw
  split
  · rename_i todo upgrades
    exact (Function.forall_update_iff _ fun other opening => holds none other opening).2
      ⟨own _, fun other differs => others todo upgrades other differs (openers other)⟩
  · exact (Function.forall_update_iff _ fun other opening => holds shared.writer other opening).2
      ⟨own _, fun other _ => openers other⟩

@[simp] theorem withdraw_disk (opener : P) (opening : Opening T E) :
    (shared.withdraw opener opening).disk = shared.disk := by
  unfold SharedDatabase.withdraw
  split <;> rfl

@[simp] theorem withdraw_changes (opener : P) (opening : Opening T E) :
    (shared.withdraw opener opening).changes = shared.changes := by
  unfold SharedDatabase.withdraw
  split <;> rfl

theorem Untouched.become {opener : P} {opening : Opening T E} (untouched : upgrading.Untouched found shared)
    (own : upgrading.Early found shared.disk shared.writer opener opening) :
    upgrading.Untouched found (shared.become opener opening) :=
  ⟨untouched.disk, untouched.unchanged,
    (Function.forall_update_iff _ fun other opening => upgrading.Early found shared.disk shared.writer other opening).2
      ⟨own, fun other _ => untouched.openers other⟩⟩

theorem Untouched.withdraw {opener : P} {opening : Opening T E} (untouched : upgrading.Untouched found shared)
    (own : ∀ writer, upgrading.Early found shared.disk writer opener opening) :
    upgrading.Untouched found (shared.withdraw opener opening) := by
  refine ⟨by simpa using untouched.disk, by simpa using untouched.unchanged, ?_⟩
  rw [withdraw_disk]
  refine withdraw_openers (upgrading.Early found shared.disk) untouched.openers own
    fun todo upgrades other differs early => early.other ?_
  have mine := untouched.openers opener
  rw [upgrades] at mine
  obtain ⟨-, copy, held, -⟩ := mine
  exact apart_of_held held differs

theorem Upgraded.become {opener : P} {opening : Opening T E} (upgraded : upgrading.Upgraded write found shared)
    (own : Late shared.disk shared.writer opener opening) :
    upgrading.Upgraded write found (shared.become opener opening) :=
  ⟨upgraded.disk, (Function.forall_update_iff _ fun other opening => Late shared.disk shared.writer other opening).2
    ⟨own, fun other _ => upgraded.openers other⟩⟩

theorem Upgraded.withdraw {opener : P} {opening : Opening T E} (upgraded : upgrading.Upgraded write found shared)
    (own : ∀ writer, Late shared.disk writer opener opening) :
    upgrading.Upgraded write found (shared.withdraw opener opening) := by
  refine ⟨by simpa using upgraded.disk, ?_⟩
  rw [withdraw_disk]
  refine withdraw_openers (Late shared.disk) upgraded.openers own
    fun todo upgrades other differs late => late.other ?_
  have mine := upgraded.openers opener
  rw [upgrades] at mine
  exact apart_of_held mine.2 differs

/-- The opener that has carried out its plan commits what the database found is brought to. -/
theorem Untouched.commit {opener holder : P} {copy : D} (untouched : upgrading.Untouched found shared)
    (upgrades : shared.openers opener = .upgrading []) (held : shared.writer = some (holder, copy)) :
    upgrading.Upgraded write found ({ shared with disk := copy, writer := none }.become opener .opened) := by
  have mine := untouched.openers opener
  rw [upgrades, held] at mine
  obtain ⟨-, _, same, brought⟩ := mine
  obtain ⟨rfl, rfl⟩ := Prod.mk.inj (Option.some.inj same)
  refine ⟨⟨copy, brought.symm, by rw [SharedDatabase.become, untouched.unchanged]; rfl⟩,
    (Function.forall_update_iff _ fun other opening => Late copy none other opening).2
      ⟨trivial, fun other differs => ?_⟩⟩
  -- Nobody else is upgrading, and nobody has failed where this opener has not.
  have theirs := untouched.openers other
  cases opening : shared.openers other with
  | upgrading todo =>
    rw [opening] at theirs
    obtain ⟨-, another, same, -⟩ := theirs
    exact absurd same (apart_of_held held differs another)
  | refused error =>
    rw [opening] at theirs
    cases theirs.symm.trans brought.symm
  | _ => trivial

theorem Untouched.carryOut {opener holder : P} {copy : D} {task : T} {todo : List T}
    (untouched : upgrading.Untouched found shared) (upgrades : shared.openers opener = .upgrading (task :: todo))
    (held : shared.writer = some (holder, copy)) :
    upgrading.Untouched found (match upgrading.carryOut copy task with
      | .ok copy => { shared with writer := some (opener, copy) }.become opener (.upgrading todo)
      | .error error => { shared with writer := none }.become opener (.refused error)) := by
  have mine := untouched.openers opener
  rw [upgrades, held] at mine
  obtain ⟨prepared, _, same, brought⟩ := mine
  obtain ⟨rfl, rfl⟩ := Prod.mk.inj (Option.some.inj same)
  have others : ∀ other, other ≠ holder → ∀ after,
      upgrading.Early found shared.disk after other (shared.openers other) :=
    fun other differs after => (untouched.openers other).other (apart_of_held held differs)
  rw [List.foldlM_cons] at brought
  split
  · rename_i next carried
    rw [carried] at brought
    exact ⟨untouched.disk, untouched.unchanged, (Function.forall_update_iff _ fun other opening =>
      upgrading.Early found shared.disk (some (holder, next)) other opening).2
        ⟨⟨prepared, next, rfl, brought⟩, fun other differs => others other differs _⟩⟩
  · rename_i error failed
    rw [failed] at brought
    exact ⟨untouched.disk, untouched.unchanged, (Function.forall_update_iff _ fun other opening =>
      upgrading.Early found shared.disk none other opening).2
        ⟨brought.symm, fun other differs => others other differs _⟩⟩

theorem Untouched.prepare (once : upgrading.PreparesOnce found) {opener : P}
    (untouched : upgrading.Untouched found shared) :
    upgrading.Untouched found (upgrading.perform write shared (.prepare opener)) := by
  have prepared : upgrading.prepare shared.disk = none → upgrading.Prepared found shared.disk := by
    intro nothing
    rcases untouched.disk with same | prepared
    · rw [same] at nothing
      rw [Prepared, nothing, same]
      rfl
    · rw [Prepared, prepared]
      rfl
  have fresh : ∀ outcome, upgrading.prepare shared.disk = some outcome → shared.disk = found := by
    intro outcome some
    rcases untouched.disk with same | prepared
    · exact same
    · rw [once _ prepared] at some
      cases some
  simp only [perform]
  split
  · split
    · rename_i nothing
      exact untouched.become (prepared nothing)
    · rename_i disk some free
      have here := fresh _ some
      rw [here] at some
      refine ⟨.inr some, untouched.unchanged, (Function.forall_update_iff _ fun other opening =>
        upgrading.Early found disk shared.writer other opening).2
          ⟨by rw [Early, Prepared, some]; rfl, fun other _ => ?_⟩⟩
      -- Who is prepared already has found the same to do.
      have theirs := untouched.openers other
      cases opening : shared.openers other with
      | prepared => rw [Early, Prepared, some]; rfl
      | upgrading todo =>
        rw [opening, free] at theirs
        obtain ⟨-, _, held, -⟩ := theirs
        cases held
      | _ => rw [opening] at theirs; exact theirs
    · rename_i error some free
      have here := fresh _ some
      rw [here] at some
      exact untouched.become (by rw [Early, bring, some]; rfl)
    · exact untouched
  · exact untouched

theorem Untouched.reserve {opener : P} (untouched : upgrading.Untouched found shared) :
    upgrading.Untouched found (upgrading.perform write shared (.reserve opener)) := by
  simp only [perform]
  split
  · rename_i ready free
    have prepared := untouched.openers opener
    rw [ready] at prepared
    have brought := bring_eq prepared
    split
    · rename_i todo planned
      rw [planned] at brought
      refine ⟨untouched.disk, untouched.unchanged, (Function.forall_update_iff _ fun other opening =>
        upgrading.Early found shared.disk (some (opener, shared.disk)) other opening).2
          ⟨⟨prepared, shared.disk, rfl, brought.symm⟩, fun other _ => (untouched.openers other).other ?_⟩⟩
      simp [free]
    · rename_i error planned
      rw [planned] at brought
      exact untouched.become brought
  · exact untouched

/-- A step leaves the database as it was found, or brings it up to date. -/
theorem Untouched.perform (once : upgrading.PreparesOnce found) (untouched : upgrading.Untouched found shared)
    (step : OpenerStep P W) : upgrading.Untouched found (upgrading.perform write shared step) ∨
      upgrading.Upgraded write found (upgrading.perform write shared step) := by
  cases step with
  | prepare opener => exact .inl (untouched.prepare once)
  | reserve opener => exact .inl untouched.reserve
  | carryOut opener =>
    simp only [Upgrading.perform]
    split
    · rename_i upgrades held
      exact .inr (untouched.commit upgrades held)
    · rename_i upgrades held
      exact .inl (untouched.carryOut upgrades held)
    · exact .inl untouched
  | findLocked opener expired =>
    simp only [Upgrading.perform]
    have own : ∀ writer, upgrading.Early found shared.disk writer opener (if expired then .lockedOut else .starting) :=
      fun writer => by cases expired <;> trivial
    split
    · exact .inl (untouched.withdraw own)
    · exact .inl (untouched.withdraw own)
    · exact .inl (untouched.withdraw own)
    · exact .inl untouched
  | die opener => exact .inl (untouched.withdraw fun _ => trivial)
  | write opener change =>
    simp only [Upgrading.perform]
    split
    · rename_i opened _
      have mine := untouched.openers opener
      rw [opened] at mine
      exact mine.elim
    · exact .inl untouched

/-- Once the database is up to date, openers find nothing to do and only write. -/
theorem Upgraded.perform (stays : upgrading.StaysUpgraded write found)
    (upgraded : upgrading.Upgraded write found shared) (step : OpenerStep P W) :
    upgrading.Upgraded write found (upgrading.perform write shared step) := by
  obtain ⟨done, brought, disk⟩ := upgraded.disk
  obtain ⟨nothing, planned⟩ := stays done brought shared.changes
  rw [← disk] at nothing planned
  cases step with
  | prepare opener =>
    simp only [Upgrading.perform, nothing]
    split
    · exact upgraded.become trivial
    · exact upgraded
  | reserve opener =>
    simp only [Upgrading.perform, planned]
    split
    · rename_i _ free
      refine ⟨⟨done, brought, disk⟩, (Function.forall_update_iff _ fun other opening =>
        Late shared.disk (some (opener, shared.disk)) other opening).2
          ⟨⟨rfl, rfl⟩, fun other _ => (upgraded.openers other).other ?_⟩⟩
      simp [free]
    · exact upgraded
  | carryOut opener =>
    have mine := upgraded.openers opener
    simp only [Upgrading.perform]
    split
    · rename_i holder copy upgrades held
      rw [upgrades] at mine
      obtain ⟨rfl, rfl⟩ := Prod.mk.inj (Option.some.inj (held.symm.trans mine.2))
      refine ⟨⟨done, brought, disk⟩, (Function.forall_update_iff _ fun other opening =>
        Late shared.disk none other opening).2
          ⟨trivial, fun other differs => (upgraded.openers other).other (apart_of_held held differs)⟩⟩
    · rename_i upgrades _
      rw [upgrades] at mine
      cases mine.1
    · exact upgraded
  | findLocked opener expired =>
    simp only [Upgrading.perform]
    have own : ∀ writer, Late shared.disk writer opener
        (if expired then .lockedOut else .starting : Opening T E) := fun writer => by cases expired <;> trivial
    split
    · exact upgraded.withdraw own
    · exact upgraded.withdraw own
    · exact upgraded.withdraw own
    · exact upgraded
  | die opener => exact upgraded.withdraw fun _ => trivial
  | write opener change =>
    simp only [Upgrading.perform]
    split
    · rename_i _ free
      refine ⟨⟨done, brought, by simp [disk]⟩, fun other => (upgraded.openers other).other ?_⟩
      simp [free]
    · exact upgraded

/-- However the openers take turns, the database is as it was found, or was brought up to date once. -/
theorem run_untouched_or_upgraded (once : upgrading.PreparesOnce found)
    (stays : upgrading.StaysUpgraded write found) (steps : List (OpenerStep P W)) :
    upgrading.Untouched found (upgrading.run write found steps) ∨
      upgrading.Upgraded write found (upgrading.run write found steps) := by
  induction steps using List.reverseRecOn with
  | nil => exact .inl (untouched_found upgrading found)
  | append_singleton steps step ih =>
    rw [run, List.foldl_append, List.foldl_cons, List.foldl_nil]
    rcases ih with untouched | upgraded
    · exact untouched.perform once step
    · exact .inr (upgraded.perform stays step)

/-! ## An opener that nothing holds up -/

theorem carriesOut_alone {opener : P} {done : D} {todo : List T} {copy : D}
    (upgrades : shared.openers opener = .upgrading todo) (held : shared.writer = some (opener, copy))
    (brought : todo.foldlM upgrading.carryOut copy = .ok done) :
    let after := (List.replicate (todo.length + 1) (OpenerStep.carryOut opener)).foldl (upgrading.perform write) shared
    after.openers opener = .opened ∧ after.disk = done := by
  induction todo generalizing shared copy with
  | nil =>
    obtain rfl : copy = done := by simpa [pure, Except.pure] using brought
    have performed : upgrading.perform write shared (.carryOut opener) =
        { shared with disk := copy, writer := none }.become opener .opened := by
      simp only [perform, upgrades, held]
    simp [performed, SharedDatabase.become]
  | cons task rest ih =>
    rw [List.foldlM_cons, bind_eq_ok_iff] at brought
    obtain ⟨next, carried, brought⟩ := brought
    have performed : upgrading.perform write shared (.carryOut opener) =
        { shared with writer := some (opener, next) }.become opener (.upgrading rest) := by
      simp only [perform, upgrades, held, carried]
    rw [List.length_cons, List.replicate_succ, List.foldl_cons, performed]
    exact ih (by simp [SharedDatabase.become]) rfl brought

/-- An opener that is alone opens the database, and has brought it up to date. -/
theorem run_alone {done : D} (brought : upgrading.bring found = .ok done) (opener : P) :
    ∃ steps, (upgrading.run write found steps).openers opener = .opened ∧
      (upgrading.run write found steps).disk = done := by
  simp only [bring, bind_eq_ok_iff] at brought
  obtain ⟨prepared, ready, todo, planned, brought⟩ := brought
  let first : SharedDatabase P D T E W := { SharedDatabase.found found with disk := prepared }.become opener .prepared
  have prepares : upgrading.perform write (.found found) (.prepare opener) = first := by
    simp only [perform, SharedDatabase.found]
    cases outcome : upgrading.prepare found with
    | none =>
      rw [outcome] at ready
      cases ready
      rfl
    | some result =>
      rw [outcome] at ready
      cases ready
      rfl
  have reserves : upgrading.perform write first (.reserve opener) =
      { first with writer := some (opener, prepared) }.become opener (.upgrading todo) := by
    simp [perform, first, SharedDatabase.become, SharedDatabase.found, planned]
  refine ⟨.prepare opener :: .reserve opener :: List.replicate (todo.length + 1) (.carryOut opener), ?_⟩
  rw [run, List.foldl_cons, List.foldl_cons, prepares, reserves]
  exact carriesOut_alone (by simp [SharedDatabase.become]) rfl brought

end Runs

end Upgrading
end

end McpTracer.Foundation
