import Mathlib.Data.List.Basic

/-! Machines that read a stream and answer as they go.

Reading a concatenation is reading its parts one after another, so the answers cannot
depend on how the stream was cut. A machine that gathers items until one of them closes
a group behaves as a second machine that is handed the closed groups.
-/

set_option autoImplicit false

namespace McpTracer.Foundation

variable {S T A B : Type}

def feed (step : S → A → S × List B) : S → List A → S × List B
  | state, [] => (state, [])
  | state, item :: rest =>
    let answered := step state item
    let others := feed step answered.1 rest
    (others.1, answered.2 ++ others.2)

theorem feed_append (step : S → A → S × List B) (state : S) (first second : List A) :
    feed step state (first ++ second) =
      let answered := feed step state first
      let others := feed step answered.1 second
      (others.1, answered.2 ++ others.2) := by
  induction first generalizing state with
  | nil => simp [feed]
  | cons item rest ih => simp [feed, ih]

/-- A machine that reads chunks as another reads items answers to the concatenation. -/
theorem feed_flatten {step : S → A → S × List B} {push : S → List A → S × List B}
    (agree : ∀ state chunk, push state chunk = feed step state chunk) (state : S)
    (chunks : List (List A)) : feed push state chunks = feed step state chunks.flatten := by
  induction chunks generalizing state with
  | nil => rfl
  | cons chunk rest ih => simp [feed, feed_append, agree, ih]

theorem feed_stateless (verdict : A → List B) (items : List A) :
    feed (fun (_ : Unit) item => ((), verdict item)) () items = ((), items.flatMap verdict) := by
  induction items with
  | nil => rfl
  | cons item rest ih => simp [feed, ih]

/-! ## Groups -/

/-- The groups that an ending item closed, without their ends. -/
def closedGroups (ends : A → Bool) (items : List A) : List (List A) :=
  (items.splitOnP ends).dropLast

/-- What was read since the last end. -/
def openGroup (ends : A → Bool) (items : List A) : List A :=
  (items.splitOnP ends).getLastD []

/-- The groups of a stream whose first group was begun before it. -/
def groupsFrom (ends : A → Bool) (begun items : List A) : List (List A) :=
  (items.splitOnP ends).modifyHead (begun ++ ·)

theorem groupsFrom_nil (ends : A → Bool) (items : List A) : groupsFrom ends [] items = items.splitOnP ends := by
  rw [groupsFrom]
  cases items.splitOnP ends <;> simp

theorem groupsFrom_cons_end {ends : A → Bool} {item : A} (begun rest : List A) (closing : ends item = true) :
    groupsFrom ends begun (item :: rest) = begun :: rest.splitOnP ends := by
  simp [groupsFrom, List.splitOnP_cons_eq_if_modifyHead, closing]

theorem groupsFrom_cons_other {ends : A → Bool} {item : A} (begun rest : List A)
    (other : ends item = false) :
    groupsFrom ends begun (item :: rest) = groupsFrom ends (begun ++ [item]) rest := by
  simp [groupsFrom, List.splitOnP_cons_eq_if_modifyHead, other]
  cases rest.splitOnP ends <;> simp

/-- A machine whose state is what it holds and the group it gathers hands over closed groups. -/
theorem feed_groupsFrom {ends : A → Bool} {step : S → A → S × List B}
    {consume : T → List A → T × List B} {state : T → List A → S}
    (gathers : ∀ held group item, ends item = false →
      step (state held group) item = (state held (group ++ [item]), []))
    (closes : ∀ held group item, ends item = true →
      step (state held group) item = (state (consume held group).1 [], (consume held group).2))
    (held : T) (begun items : List A) :
    feed step (state held begun) items =
      let consumed := feed consume held (groupsFrom ends begun items).dropLast
      (state consumed.1 ((groupsFrom ends begun items).getLastD []), consumed.2) := by
  induction items generalizing held begun with
  | nil => simp [feed, groupsFrom]
  | cons item rest ih =>
    rw [feed]
    cases closing : ends item with
    | true =>
      have nonempty := List.splitOnP_ne_nil ends rest
      obtain ⟨group, groups, split⟩ := List.exists_cons_of_ne_nil nonempty
      rw [closes held begun item closing, ih, groupsFrom_nil, groupsFrom_cons_end begun rest closing,
        List.dropLast_cons_of_ne_nil nonempty]
      simp [feed, split]
    | false =>
      rw [gathers held begun item closing, ih, groupsFrom_cons_other begun rest closing]
      simp

theorem feed_groups {ends : A → Bool} {step : S → A → S × List B}
    {consume : T → List A → T × List B} {state : T → List A → S}
    (gathers : ∀ held group item, ends item = false →
      step (state held group) item = (state held (group ++ [item]), []))
    (closes : ∀ held group item, ends item = true →
      step (state held group) item = (state (consume held group).1 [], (consume held group).2))
    (held : T) (items : List A) :
    feed step (state held []) items =
      let consumed := feed consume held (closedGroups ends items)
      (state consumed.1 (openGroup ends items), consumed.2) := by
  rw [feed_groupsFrom gathers closes, groupsFrom_nil]
  rfl

/-! ## Streams, group by group -/

/-- The end of no group is among the items. -/
def Open (ends : A → Bool) (items : List A) : Prop := ∀ item ∈ items, ends item = false

theorem Open.nil (ends : A → Bool) : Open ends [] := by simp [Open]

theorem Open.append {ends : A → Bool} {first second : List A} (begun : Open ends first)
    (later : Open ends second) : Open ends (first ++ second) := by
  intro item member
  rcases List.mem_append.1 member with member | member
  · exact begun item member
  · exact later item member

/-- A stream is open, or it is a group, its end and a stream. -/
theorem induction_on_groups {motive : List A → Prop} (ends : A → Bool)
    (unfinished : ∀ items, Open ends items → motive items)
    (group : ∀ body closing rest, Open ends body → ends closing = true → motive rest →
      motive (body ++ closing :: rest)) (items : List A) : motive items := by
  suffices gathered : ∀ begun, Open ends begun → motive (begun ++ items) from gathered [] (.nil ends)
  induction items with
  | nil =>
    intro begun isOpen
    rw [List.append_nil]
    exact unfinished begun isOpen
  | cons item rest ih =>
    intro begun isOpen
    cases closing : ends item with
    | true => exact group begun item rest isOpen closing (ih [] (.nil ends))
    | false =>
      rw [List.append_cons]
      exact ih (begun ++ [item]) (isOpen.append (by simpa [Open] using closing))

section
variable {ends : A → Bool}

theorem closedGroups_of_open {items : List A} (isOpen : Open ends items) : closedGroups ends items = [] := by
  rw [closedGroups, List.splitOnP_eq_singleton isOpen, List.dropLast_singleton]

theorem openGroup_of_open {items : List A} (isOpen : Open ends items) : openGroup ends items = items := by
  rw [openGroup, List.splitOnP_eq_singleton isOpen]
  rfl

theorem closedGroups_group {body : List A} {closing : A} (isOpen : Open ends body)
    (closes : ends closing = true) (rest : List A) :
    closedGroups ends (body ++ closing :: rest) = body :: closedGroups ends rest := by
  rw [closedGroups, List.splitOnP_append_cons _ _ closes, List.splitOnP_eq_singleton isOpen, List.singleton_append,
    List.dropLast_cons_of_ne_nil (List.splitOnP_ne_nil ends rest), closedGroups]

theorem openGroup_group (body : List A) {closing : A} (closes : ends closing = true) (rest : List A) :
    openGroup ends (body ++ closing :: rest) = openGroup ends rest := by
  rw [openGroup, List.splitOnP_append_cons _ _ closes, List.getLastD_eq_getLast?,
    List.getLast?_append_of_ne_nil _ (List.splitOnP_ne_nil ends rest), openGroup, List.getLastD_eq_getLast?]

theorem open_openGroup (items : List A) : Open ends (openGroup ends items) := by
  induction items using induction_on_groups ends with
  | unfinished items isOpen => rwa [openGroup_of_open isOpen]
  | group body closing rest _ closes ih => rwa [openGroup_group body closes]

theorem open_of_mem_closedGroups {items group : List A} (member : group ∈ closedGroups ends items) :
    Open ends group := by
  induction items using induction_on_groups ends with
  | unfinished items isOpen =>
    rw [closedGroups_of_open isOpen] at member
    cases member
  | group body closing rest isOpen closes ih =>
    rw [closedGroups_group isOpen closes] at member
    rcases List.mem_cons.1 member with rfl | member
    · exact isOpen
    · exact ih member

/-- What was left open goes on in what follows. -/
theorem closedGroups_append (first second : List A) :
    closedGroups ends (first ++ second) =
      closedGroups ends first ++ closedGroups ends (openGroup ends first ++ second) := by
  induction first using induction_on_groups ends with
  | unfinished items isOpen => rw [closedGroups_of_open isOpen, openGroup_of_open isOpen, List.nil_append]
  | group body closing rest isOpen closes ih =>
    rw [List.append_assoc, List.cons_append, closedGroups_group isOpen closes, closedGroups_group isOpen closes,
      openGroup_group body closes, ih, List.cons_append]

theorem openGroup_append (first second : List A) :
    openGroup ends (first ++ second) = openGroup ends (openGroup ends first ++ second) := by
  induction first using induction_on_groups ends with
  | unfinished items isOpen => rw [openGroup_of_open isOpen]
  | group body closing rest isOpen closes ih =>
    rw [List.append_assoc, List.cons_append, openGroup_group body closes, openGroup_group body closes, ih]

end

end McpTracer.Foundation
