import McpTracer.Json.Patch
import McpTracer.Model.Normalization

/-! What the differences between two values say about them.

Every difference is located: its pointer leads to what it reports on either side, and no two locations
are on one line from the root. Putting the values of one side into these places of the other makes the
two agree.
-/

set_option autoImplicit false

namespace McpTracer.Model
open McpTracer.Foundation McpTracer.Json McpTracer.Redact

/-! ## Containers, token by token -/

/-- Comparing what two containers have under a token. -/
def compareChild (pointer : String) : Option Value → Option Value → List PointerDiff
  | some a, some b => compareValues pointer a b
  | some a, none => [removedItem pointer a]
  | none, some b => [addedItem pointer b]
  | none, none => []

/-- The tokens under which two containers of one kind are compared, in order. -/
def comparedTokens : Value → Value → List String
  | .object as, .object bs => as.map Prod.fst ++ (bs.filter fun field => (as.lookup field.1).isNone).map Prod.fst
  | .array as, .array bs => (List.range (max as.length bs.length)).map toString
  | _, _ => []

/-- Both values are objects, or both are arrays. -/
def SameContainer (a b : Value) : Prop :=
  (a.isArray = true ∧ b.isArray = true) ∨ (a.isObject = true ∧ b.isObject = true)

theorem SameContainer.symm {a b : Value} (same : SameContainer a b) : SameContainer b a :=
  same.imp And.symm And.symm

theorem compareFields_eq (pointer : String) (bs as : List (String × Value)) :
    compareFields pointer bs as = as.flatMap fun field =>
      compareChild (childPointer pointer (escapePointerToken field.1)) (some field.2) (bs.lookup field.1) := by
  induction as with
  | nil => rfl
  | cons field rest ih =>
    rw [compareFields, ih, List.flatMap_cons]
    cases bs.lookup field.1 <;> rfl

theorem flatMap_range_succ {A : Type} (f : Nat → List A) (n : Nat) :
    (List.range (n + 1)).flatMap f = f 0 ++ (List.range n).flatMap fun i => f (i + 1) := by
  rw [List.range_succ_eq_map, List.flatMap_cons, List.flatMap_map]

theorem absentItems_eq {build : String → Value → PointerDiff} {report : String → Option Value → List PointerDiff}
    (single : ∀ pointer item, report pointer (some item) = [build pointer item]) (pointer : String) (index : Nat)
    (items : List Value) : absentItems build pointer index items =
      (List.range items.length).flatMap fun i => report (childPointer pointer (toString (index + i))) items[i]? := by
  induction items generalizing index with
  | nil => rfl
  | cons item rest ih =>
    rw [absentItems, ih, List.length_cons, flatMap_range_succ, List.getElem?_cons_zero, single, List.singleton_append]
    simp only [List.getElem?_cons_succ, Nat.add_zero, Nat.add_assoc, Nat.add_comm 1]

theorem compareItems_eq (pointer : String) (index : Nat) (as bs : List Value) :
    compareItems pointer index as bs = (List.range (max as.length bs.length)).flatMap fun i =>
      compareChild (childPointer pointer (toString (index + i))) as[i]? bs[i]? := by
  induction as generalizing index bs with
  | nil =>
    have added := absentItems_eq (fun pointer item => show compareChild pointer none (some item) = _ from rfl)
      pointer index bs
    cases bs with
    | nil => rfl
    | cons b bs => simpa [compareItems] using added
  | cons a as ih =>
    cases bs with
    | nil =>
      have removed := @absentItems_eq removedItem (fun pointer item => compareChild pointer item none)
        (fun _ _ => rfl) pointer index (a :: as)
      simpa [compareItems] using removed
    | cons b bs =>
      rw [compareItems, ih, List.length_cons, List.length_cons, Nat.add_max_add_right, flatMap_range_succ]
      simp only [List.getElem?_cons_succ, List.getElem?_cons_zero, Nat.add_zero, Nat.add_assoc, Nat.add_comm 1]
      rfl

theorem escapePointerToken_eq (token : String) : escapePointerToken token = String.ofList (Pointer.escape token.toList) := rfl

/-- Going below a location is adding a token to it. -/
theorem childPointer_text (path : List String) (token : String) :
    childPointer (Pointer.text path) (escapePointerToken token) = Pointer.text (path ++ [token]) := by
  apply String.toList_inj.1
  simp [childPointer, escapePointerToken_eq, Pointer.text]

/-- Containers of one kind are compared token by token. -/
theorem compareValues_container {a b : Value} (formed : a.wellFormed = true) (other : b.wellFormed = true)
    (same : SameContainer a b) (pointer : String) : compareValues pointer a b =
      (comparedTokens a b).flatMap fun token =>
        compareChild (childPointer pointer (escapePointerToken token)) (a.child token) (b.child token) := by
  rcases same with ⟨left, right⟩ | ⟨left, right⟩
  · cases a with
    | array as =>
      cases b with
      | array bs =>
        rw [compareValues, compareItems_eq, comparedTokens, List.flatMap_map]
        refine List.flatMap_congr fun index _ => ?_
        rw [Value.child_array_toString, Value.child_array_toString, escapePointerToken_eq, Pointer.escape_toString,
          String.ofList_toList, Nat.zero_add]
      | _ => cases right
    | _ => cases left
  · cases a with
    | object as =>
      cases b with
      | object bs =>
        obtain ⟨unique, -⟩ := Value.wellFormed_object formed
        obtain ⟨uniqueToo, -⟩ := Value.wellFormed_object other
        rw [compareValues, compareFields_eq, comparedTokens, List.flatMap_append, List.flatMap_map, List.flatMap_map]
        congr 1
        · refine List.flatMap_congr fun field member => ?_
          rw [Value.child_object, Value.child_object, (lookup_eq_some_iff unique field.1 field.2).2 member]
        · rw [List.map_eq_flatMap]
          refine List.flatMap_congr fun field member => ?_
          obtain ⟨inside, absent⟩ := List.mem_filter.1 member
          rw [Value.child_object, Value.child_object, Option.isNone_iff_eq_none.1 absent,
            (lookup_eq_some_iff uniqueToo field.1 field.2).2 inside]
          rfl
      | _ => cases right
    | _ => cases left

theorem compareValues_of_not_same {a b : Value} (differ : ¬ SameContainer a b) (pointer : String) :
    compareValues pointer a b =
      if isRedacted a || isRedacted b then [] else if a.beq b then [] else [⟨pointer, some a, some b⟩] := by
  refine compareValues_leaf pointer (fun left => ?_) fun left => ?_
  · by_contra right
    exact differ (.inl ⟨left, by simpa using right⟩)
  · by_contra right
    exact differ (.inr ⟨left, by simpa using right⟩)

theorem mem_comparedTokens {a b : Value} (same : SameContainer a b) (token : String) :
    token ∈ comparedTokens a b ↔ (a.child token).isSome = true ∨ (b.child token).isSome = true := by
  rcases same with ⟨left, right⟩ | ⟨left, right⟩
  · cases a with
    | array as =>
      cases b with
      | array bs =>
        simp only [comparedTokens, List.mem_map, List.mem_range, Option.isSome_iff_exists, Value.child_array_eq_some_iff]
        constructor
        · rintro ⟨index, below, rfl⟩
          rcases lt_max_iff.1 below with inside | inside
          · exact .inl ⟨_, index, rfl, List.getElem?_eq_getElem inside⟩
          · exact .inr ⟨_, index, rfl, List.getElem?_eq_getElem inside⟩
        · rintro (⟨v, index, rfl, found⟩ | ⟨v, index, rfl, found⟩)
          · exact ⟨index, lt_max_of_lt_left (List.getElem?_eq_some_iff.1 found).1, rfl⟩
          · exact ⟨index, lt_max_of_lt_right (List.getElem?_eq_some_iff.1 found).1, rfl⟩
      | _ => cases right
    | _ => cases left
  · cases a with
    | object as =>
      cases b with
      | object bs =>
        simp only [comparedTokens, List.mem_append, List.mem_map, List.mem_filter, Value.child_object, lookup_isSome_iff]
        constructor
        · rintro (inside | ⟨field, ⟨inside, -⟩, rfl⟩)
          · exact .inl inside
          · exact .inr ⟨field, inside, rfl⟩
        · rintro (inside | ⟨field, inside, rfl⟩)
          · exact .inl inside
          · by_cases known : (as.lookup field.1).isSome = true
            · exact .inl (List.mem_map.1 ((lookup_isSome_iff as field.1).1 known))
            · exact .inr ⟨field, ⟨inside, Option.isNone_iff_eq_none.2 (Option.not_isSome_iff_eq_none.1 known)⟩, rfl⟩
      | _ => cases right
    | _ => cases left

theorem comparedTokens_nodup {a b : Value} (formed : a.wellFormed = true) (other : b.wellFormed = true) :
    (comparedTokens a b).Nodup := by
  unfold comparedTokens
  split
  case h_1 as bs =>
    obtain ⟨unique, -⟩ := Value.wellFormed_object formed
    obtain ⟨uniqueToo, -⟩ := Value.wellFormed_object other
    refine List.nodup_append.2 ⟨unique, uniqueToo.sublist (List.filter_sublist.map _), ?_⟩
    rintro key known other added rfl
    obtain ⟨field, fresh, rfl⟩ := List.mem_map.1 added
    have absent := (List.mem_filter.1 fresh).2
    rw [Option.isNone_iff_eq_none] at absent
    have present := (lookup_isSome_iff as field.1).2 known
    rw [absent] at present
    cases present
  case h_2 as bs => exact List.nodup_range.map fun _ _ same => Pointer.toString_injective same
  case h_3 => exact List.nodup_nil

/-! ## Located differences -/

/-- A difference with its location. -/
structure Difference where
  path : List String
  fromValue : Option Value
  toValue : Option Value
  deriving DecidableEq

namespace Difference

/-- The difference as it is reported below a location. -/
def report (path : List String) (difference : Difference) : PointerDiff where
  pointer := Pointer.text (path ++ difference.path)
  fromValue := difference.fromValue
  toValue := difference.toValue

def below (token : String) (difference : Difference) : Difference :=
  { difference with path := token :: difference.path }

end Difference

def PointerDiff.locate (diff : PointerDiff) : Option Difference :=
  (Pointer.tokens diff.pointer).map fun path => ⟨path, diff.fromValue, diff.toValue⟩

def differences (a b : Value) : List Difference := (compareValues "" a b).filterMap PointerDiff.locate

/-- The differences between what two containers have under a token. -/
def childDifferences : Option Value → Option Value → List Difference
  | some a, some b => differences a b
  | some a, none => [⟨[], some a, none⟩]
  | none, some b => [⟨[], none, some b⟩]
  | none, none => []

theorem locate_report (path : List String) (difference : Difference) :
    (difference.report path).locate = some { difference with path := path ++ difference.path } := by
  simp [PointerDiff.locate, Difference.report]

/-- Below any location the same differences are reported. -/
theorem exists_located {a : Value} (formed : a.wellFormed = true) {b : Value} (other : b.wellFormed = true) :
    ∃ located : List Difference, ∀ path, compareValues (Pointer.text path) a b = located.map (Difference.report path) := by
  induction a using Value.induction_on_child generalizing b with
  | step a ih =>
    by_cases same : SameContainer a b
    · have children (token : String) : ∃ located : List Difference, ∀ path,
          compareChild (Pointer.text path) (a.child token) (b.child token) = located.map (Difference.report path) := by
        cases here : a.child token with
        | none =>
          cases there : b.child token with
          | none => exact ⟨[], fun _ => rfl⟩
          | some y => exact ⟨[⟨[], none, some y⟩], fun path => by simp [compareChild, addedItem, Difference.report]⟩
        | some x =>
          cases there : b.child token with
          | none => exact ⟨[⟨[], some x, none⟩], fun path => by simp [compareChild, removedItem, Difference.report]⟩
          | some y => exact ih token x here (Value.wellFormed_child formed here) (Value.wellFormed_child other there)
      choose located reported using children
      refine ⟨(comparedTokens a b).flatMap fun token => (located token).map (Difference.below token), fun path => ?_⟩
      rw [compareValues_container formed other same, List.map_flatMap]
      refine List.flatMap_congr fun token _ => ?_
      rw [childPointer_text, reported, List.map_map]
      refine List.map_congr_left fun difference _ => ?_
      simp [Difference.report, Difference.below]
    · refine ⟨if isRedacted a || isRedacted b then [] else if a.beq b then [] else [⟨[], some a, some b⟩], fun path => ?_⟩
      rw [compareValues_of_not_same same]
      split_ifs <;> simp [Difference.report]

section
variable {a b : Value}

theorem filterMap_locate_report (path : List String) (located : List Difference) :
    (located.map (Difference.report path)).filterMap PointerDiff.locate =
      located.map fun difference => { difference with path := path ++ difference.path } := by
  rw [List.filterMap_map, ← List.filterMap_eq_map]
  refine List.filterMap_congr fun difference _ => ?_
  exact locate_report path difference

/-- What a comparison reports below a location. -/
theorem compareValues_located (formed : a.wellFormed = true) (other : b.wellFormed = true) (path : List String) :
    compareValues (Pointer.text path) a b = (differences a b).map (Difference.report path) := by
  obtain ⟨located, reported⟩ := exists_located formed other
  have root : differences a b = located := by
    rw [differences, show "" = Pointer.text [] from rfl, reported, filterMap_locate_report]
    simp
  rw [reported, root]

theorem compareChild_located {x y : Option Value} (formed : ∀ v ∈ x, v.wellFormed = true)
    (other : ∀ v ∈ y, v.wellFormed = true) (path : List String) :
    compareChild (Pointer.text path) x y = (childDifferences x y).map (Difference.report path) := by
  cases x with
  | none =>
    cases y with
    | none => rfl
    | some y => simp [compareChild, childDifferences, addedItem, Difference.report]
  | some x =>
    cases y with
    | none => simp [compareChild, childDifferences, removedItem, Difference.report]
    | some y => exact compareValues_located (formed x rfl) (other y rfl) path

theorem differences_container (formed : a.wellFormed = true) (other : b.wellFormed = true) (same : SameContainer a b) :
    differences a b = (comparedTokens a b).flatMap fun token =>
      (childDifferences (a.child token) (b.child token)).map (Difference.below token) := by
  rw [differences, compareValues_container formed other same, List.filterMap_flatMap]
  refine List.flatMap_congr fun token _ => ?_
  rw [show "" = Pointer.text [] from rfl, childPointer_text, compareChild_located
    (fun _ found => Value.wellFormed_child formed found) (fun _ found => Value.wellFormed_child other found),
    filterMap_locate_report]
  rfl

theorem mem_differences_container (formed : a.wellFormed = true) (other : b.wellFormed = true) (same : SameContainer a b)
    {difference : Difference} : difference ∈ differences a b ↔
      ∃ token child, child ∈ childDifferences (a.child token) (b.child token) ∧ difference = child.below token := by
  rw [differences_container formed other same, List.mem_flatMap]
  constructor
  · rintro ⟨token, -, inside⟩
    obtain ⟨child, found, rfl⟩ := List.mem_map.1 inside
    exact ⟨token, child, found, rfl⟩
  · rintro ⟨token, child, found, rfl⟩
    refine ⟨token, (mem_comparedTokens same token).2 ?_, List.mem_map_of_mem found⟩
    by_contra neither
    rw [not_or, Option.not_isSome_iff_eq_none, Option.not_isSome_iff_eq_none] at neither
    simp [neither.1, neither.2, childDifferences] at found

theorem differences_of_not_same (differ : ¬ SameContainer a b) :
    differences a b = if isRedacted a || isRedacted b then [] else if a.beq b then [] else [⟨[], some a, some b⟩] := by
  rw [differences, compareValues_of_not_same differ]
  split_ifs
  · rfl
  · rfl
  · simp [PointerDiff.locate, show "" = Pointer.text [] from rfl]

end

/-! ## Locations -/

/-- The location leads to what the difference says on either side. -/
theorem differences_resolve {a : Value} (formed : a.wellFormed = true) {b : Value} (other : b.wellFormed = true)
    {difference : Difference} (member : difference ∈ differences a b) :
    a.resolve difference.path = difference.fromValue ∧ b.resolve difference.path = difference.toValue := by
  induction a using Value.induction_on_child generalizing b difference with
  | step a ih =>
    by_cases same : SameContainer a b
    · obtain ⟨token, child, found, rfl⟩ := (mem_differences_container formed other same).1 member
      simp only [Difference.below, Value.resolve_cons]
      cases here : a.child token with
      | none =>
        cases there : b.child token with
        | none => simp [here, there, childDifferences] at found
        | some y =>
          obtain rfl : child = ⟨[], none, some y⟩ := by simpa [here, there, childDifferences] using found
          exact ⟨rfl, rfl⟩
      | some x =>
        cases there : b.child token with
        | none =>
          obtain rfl : child = ⟨[], some x, none⟩ := by simpa [here, there, childDifferences] using found
          exact ⟨rfl, rfl⟩
        | some y =>
          rw [here, there] at found
          exact ih token x here (Value.wellFormed_child formed here) (Value.wellFormed_child other there) found
    · rw [differences_of_not_same same] at member
      split_ifs at member
      · cases member
      · cases member
      · obtain rfl := List.mem_singleton.1 member
        exact ⟨rfl, rfl⟩

/-- Neither location is on the way to the other. -/
def Difference.Apart (first second : Difference) : Prop := ¬ first.path <+: second.path ∧ ¬ second.path <+: first.path

theorem apart_below_iff (token : String) (first second : Difference) :
    (first.below token).Apart (second.below token) ↔ first.Apart second := by
  simp [Difference.Apart, Difference.below, List.cons_prefix_cons]

theorem apart_of_ne {token other : String} (differ : token ≠ other) (first second : Difference) :
    (first.below token).Apart (second.below other) := by
  simp [Difference.Apart, Difference.below, List.cons_prefix_cons, differ, differ.symm]

theorem differences_apart {a : Value} (formed : a.wellFormed = true) {b : Value} (other : b.wellFormed = true) :
    (differences a b).Pairwise Difference.Apart := by
  induction a using Value.induction_on_child generalizing b with
  | step a ih =>
    by_cases same : SameContainer a b
    · rw [differences_container formed other same, List.pairwise_flatMap]
      constructor
      · intro token _
        rw [List.pairwise_map]
        simp only [apart_below_iff]
        cases here : a.child token with
        | none => cases b.child token <;> simp [childDifferences]
        | some x =>
          cases there : b.child token with
          | none => simp [childDifferences]
          | some y => exact ih token x here (Value.wellFormed_child formed here) (Value.wellFormed_child other there)
      · refine (comparedTokens_nodup formed other).imp fun differ first left second right => ?_
        obtain ⟨child, -, rfl⟩ := List.mem_map.1 left
        obtain ⟨another, -, rfl⟩ := List.mem_map.1 right
        exact apart_of_ne differ child another
    · rw [differences_of_not_same same]
      split_ifs
      · exact .nil
      · exact .nil
      · exact List.pairwise_singleton _ _

/-! ## Replacing what differs -/

/-- What comes into the place of a difference to make the first value agree with the second. -/
def Difference.edit (difference : Difference) : Edit := ⟨difference.path, difference.toValue⟩

def PointerDiff.edit (diff : PointerDiff) : Option Edit :=
  (Pointer.tokens diff.pointer).map fun path => ⟨path, diff.toValue⟩

section
variable {a b : Value}

/-- A map that gives something for one item only. -/
theorem flatMap_eq_single {A B : Type} {f : A → List B} {xs : List A} (unique : xs.Nodup) {x : A}
    (others : ∀ y, y ≠ x → f y = []) (absent : x ∉ xs → f x = []) : xs.flatMap f = f x := by
  induction xs with
  | nil => exact (absent List.not_mem_nil).symm
  | cons y rest ih =>
    obtain ⟨fresh, later⟩ := List.nodup_cons.1 unique
    rw [List.flatMap_cons]
    by_cases same : y = x
    · subst same
      have none : rest.flatMap f = [] :=
        List.flatMap_eq_nil_iff.2 fun z member => others z (ne_of_mem_of_not_mem member fresh)
      rw [none, List.append_nil]
    · rw [others y same, List.nil_append]
      exact ih later fun missing => absent (by simp [missing, Ne.symm same])

theorem filterMap_edit_below (token candidate : String) (located : List Difference) :
    ((located.map (Difference.below candidate)).map Difference.edit).filterMap (Edit.below token) =
      if candidate = token then located.map Difference.edit else [] := by
  rw [List.map_map, List.filterMap_map]
  split_ifs with same
  · rw [← List.filterMap_eq_map]
    refine List.filterMap_congr fun difference _ => ?_
    simp [Difference.edit, Difference.below, Edit.below, same]
  · refine List.filterMap_eq_nil_iff.2 fun difference _ => ?_
    simp [Difference.edit, Difference.below, Edit.below, same]

/-- Below a token, the edits of two containers are those of what they have there. -/
theorem editsBelow_differences (formed : a.wellFormed = true) (other : b.wellFormed = true) (same : SameContainer a b)
    (token : String) : editsBelow token ((differences a b).map Difference.edit) =
      (childDifferences (a.child token) (b.child token)).map Difference.edit := by
  rw [differences_container formed other same, editsBelow, List.map_flatMap, List.filterMap_flatMap]
  simp only [filterMap_edit_below]
  refine (flatMap_eq_single (comparedTokens_nodup formed other) (fun y differ => if_neg differ) fun absent => ?_).trans
    (if_pos rfl)
  rw [mem_comparedTokens same, not_or, Option.not_isSome_iff_eq_none, Option.not_isSome_iff_eq_none] at absent
  rw [absent.1, absent.2]
  simp [childDifferences]

theorem rootEdit_differences (formed : a.wellFormed = true) (other : b.wellFormed = true) (same : SameContainer a b) :
    rootEdit ((differences a b).map Difference.edit) = none := by
  rw [rootEdit, Option.map_eq_none_iff, List.find?_eq_none]
  intro edit member
  obtain ⟨difference, inside, rfl⟩ := List.mem_map.1 member
  obtain ⟨token, child, -, rfl⟩ := (mem_differences_container formed other same).1 inside
  simp [Difference.edit, Difference.below]

theorem addition_edit_below (isNew : String → Bool) (token : String) (difference : Difference) :
    Edit.addition isNew (difference.below token).edit =
      if difference.path = [] ∧ isNew token = true then difference.toValue.map fun value => (token, value) else none := by
  obtain ⟨path, left, right⟩ := difference
  cases path <;> cases right <;> simp [Edit.addition, Difference.edit, Difference.below]

/-- What is new below the root is what only the second container has. -/
theorem additions_differences (formed : a.wellFormed = true) (other : b.wellFormed = true) (same : SameContainer a b)
    {isNew : String → Bool} (new : ∀ token, isNew token = true → a.child token = none) :
    ((differences a b).map Difference.edit).filterMap (Edit.addition isNew) =
      (comparedTokens a b).filterMap fun token =>
        (if isNew token = true then b.child token else none).map fun value => (token, value) := by
  rw [differences_container formed other same, List.map_flatMap, List.filterMap_flatMap,
    List.filterMap_eq_flatMap_toList]
  refine List.flatMap_congr fun token _ => ?_
  rw [List.map_map, List.filterMap_map]
  cases fresh : isNew token with
  | false =>
    rw [List.filterMap_eq_nil_iff.2 fun difference _ => by simp [addition_edit_below, fresh]]
    simp
  | true =>
    rw [new token fresh]
    cases b.child token <;> simp [childDifferences, addition_edit_below, fresh]

theorem lookup_filterMap_keyed (value : String → Option Value) (tokens : List String) (key : String) :
    (tokens.filterMap fun token => (value token).map fun v => (token, v)).lookup key =
      if key ∈ tokens then value key else none := by
  induction tokens with
  | nil => simp
  | cons token rest ih =>
    by_cases here : key = token
    · subst here
      cases found : value key with
      | none => simp [found, ih]
      | some v => simp [found]
    · cases found : value token with
      | none => simp [found, ih, here]
      | some v => simp [found, ih, here, lookup_cons_other here]

theorem filterMap_range_drop (items : List Value) (from' : Nat) {count : Nat} (enough : items.length ≤ count) :
    ((List.range count).filterMap fun index => if from' ≤ index then items[index]? else none) = items.drop from' := by
  induction items generalizing from' count with
  | nil => simp
  | cons item rest ih =>
    obtain ⟨less, rfl⟩ : ∃ n, count = n + 1 := ⟨count - 1, by simp at enough; omega⟩
    have others (start : Nat) := ih start (Nat.le_of_succ_le_succ enough)
    rw [List.range_succ_eq_map, List.filterMap_cons, List.filterMap_map]
    cases from' with
    | zero => simpa [Function.comp_def] using others 0
    | succ from' => simpa [Function.comp_def] using others from'

/-- Patched, what is on both sides agrees, and what is on the first side only is gone. -/
def ChildPatched (edits : List Edit) (a b : Option Value) : Prop :=
  ∀ x ∈ a, (∀ y ∈ b, ∃ patched, patch edits x = some patched ∧ Agrees isRedacted patched y) ∧
    (b = none → patch edits x = none)

theorem patch_arrays {edits : List Edit} {as bs : List Value} (kept : rootEdit edits = none)
    (children : ∀ token, ChildPatched (editsBelow token edits) ((Value.array as).child token) ((Value.array bs).child token))
    (added : (edits.filterMap (Edit.addition (newItem as.length))).map Prod.snd = bs.drop as.length) :
    ∃ patched, patch edits (.array as) = some patched ∧ Agrees isRedacted patched (.array bs) := by
  have front : List.Forall₂ (Agrees isRedacted) (patchItems edits 0 as) (bs.take as.length) := by
    refine patchItems_forall₂ (fun n x y here there => ?_) fun n x here gone => ?_
    · have child := children (toString (0 + n))
      rw [Value.child_array_toString, Value.child_array_toString, Nat.zero_add] at child
      rw [Nat.zero_add]
      exact (child x here).1 y there
    · have child := children (toString (0 + n))
      rw [Value.child_array_toString, Value.child_array_toString, Nat.zero_add] at child
      rw [Nat.zero_add]
      exact (child x here).2 gone
  have whole : List.Forall₂ (Agrees isRedacted) (patchItems edits 0 as ++ bs.drop as.length) bs := by
    have rest : List.Forall₂ (Agrees isRedacted) (bs.drop as.length) (bs.drop as.length) :=
      List.forall₂_same.2 fun v _ => .refl isRedacted v
    simpa using List.rel_append front rest
  refine ⟨_, by rw [patch, kept, Option.getD_none, added], ?_⟩
  exact .array (forall₂_iff_getElem?.1 whole).1 (forall₂_iff_getElem?.1 whole).2

theorem patch_objects {edits : List Edit} {as bs : List (String × Value)} (kept : rootEdit edits = none)
    (unique : (as.map Prod.fst).Nodup)
    (children : ∀ token, ChildPatched (editsBelow token edits) (as.lookup token) (bs.lookup token))
    (added : ∀ key, (edits.filterMap (Edit.addition (newMember as))).lookup key =
      if newMember as key = true then bs.lookup key else none) :
    ∃ patched, patch edits (.object as) = some patched ∧ Agrees isRedacted patched (.object bs) := by
  obtain ⟨members, patched, lookup⟩ := patch_object kept unique
  refine ⟨.object members, patched, (agrees_iff_get rfl rfl).2 fun key => ?_⟩
  rw [Value.get, Value.get, lookup, added]
  cases here : as.lookup key with
  | none =>
    rw [newMember, here, Option.isNone_none, if_pos rfl, Option.bind_none, Option.or_none]
    exact option_rel_refl (.refl isRedacted) _
  | some x =>
    rw [newMember, here, Option.isNone_some, if_neg Bool.false_ne_true, Option.none_or, Option.bind_some]
    obtain ⟨stays, goes⟩ := children key x here
    cases there : bs.lookup key with
    | none =>
      rw [goes there]
      exact .none
    | some y =>
      obtain ⟨child, done, agrees⟩ := stays y there
      rw [done]
      exact .some agrees

theorem newItem_toString (length index : Nat) : newItem length (toString index) = decide (length ≤ index) := by
  rw [newItem, Pointer.arrayIndex_toString, Option.any_some]

/-- The new items are the rest of the longer array, in order. -/
theorem added_items {as bs : List Value} (formed : (Value.array as).wellFormed = true)
    (other : (Value.array bs).wellFormed = true) :
    (((differences (.array as) (.array bs)).map Difference.edit).filterMap
      (Edit.addition (newItem as.length))).map Prod.snd = bs.drop as.length := by
  have new (token : String) (fresh : newItem as.length token = true) : (Value.array as).child token = none := by
    cases found : (Value.array as).child token with
    | none => rfl
    | some v =>
      obtain ⟨index, rfl, inside⟩ := Value.child_array_eq_some_iff.1 found
      rw [newItem_toString, decide_eq_true_eq] at fresh
      exact absurd (List.getElem?_eq_some_iff.1 inside).1 (not_lt.2 fresh)
  rw [additions_differences formed other (.inl ⟨rfl, rfl⟩) new, comparedTokens, List.filterMap_map, List.map_filterMap,
    ← filterMap_range_drop bs as.length (le_max_right as.length bs.length)]
  refine List.filterMap_congr fun index _ => ?_
  dsimp only [Function.comp]
  rw [newItem_toString, Value.child_array_toString]
  by_cases beyond : as.length ≤ index <;> simp [beyond]

theorem added_members {as bs : List (String × Value)} (formed : (Value.object as).wellFormed = true)
    (other : (Value.object bs).wellFormed = true) (key : String) :
    (((differences (.object as) (.object bs)).map Difference.edit).filterMap (Edit.addition (newMember as))).lookup key =
      if newMember as key = true then bs.lookup key else none := by
  have new (token : String) (fresh : newMember as token = true) : (Value.object as).child token = none :=
    Option.isNone_iff_eq_none.1 fresh
  rw [additions_differences formed other (.inr ⟨rfl, rfl⟩) new, lookup_filterMap_keyed, Value.child_object]
  split_ifs with known fresh
  · rfl
  · rfl
  · rw [mem_comparedTokens (.inr ⟨rfl, rfl⟩), not_or] at known
    exact (Option.not_isSome_iff_eq_none.1 known.2).symm
  · rfl

theorem patch_childDifferences {x y : Option Value}
    (inner : ∀ v ∈ x, ∀ w ∈ y, ∃ patched, patch ((differences v w).map Difference.edit) v = some patched ∧
      Agrees isRedacted patched w) : ChildPatched ((childDifferences x y).map Difference.edit) x y := by
  intro v here
  obtain rfl := Option.mem_def.1 here
  refine ⟨fun w there => ?_, fun gone => ?_⟩
  · obtain rfl := Option.mem_def.1 there
    exact inner v rfl w rfl
  · subst gone
    exact patch_root rfl v

end

/-- Replacing what differs makes the first value agree with the second. -/
theorem patch_differences {a : Value} (formed : a.wellFormed = true) {b : Value} (other : b.wellFormed = true) :
    ∃ patched, patch ((differences a b).map Difference.edit) a = some patched ∧ Agrees isRedacted patched b := by
  induction a using Value.induction_on_child generalizing b with
  | step a ih =>
    by_cases same : SameContainer a b
    · have kept := rootEdit_differences formed other same
      have children (token : String) : ChildPatched (editsBelow token ((differences a b).map Difference.edit))
          (a.child token) (b.child token) := by
        rw [editsBelow_differences formed other same]
        exact patch_childDifferences fun v here w there =>
          ih token v here (Value.wellFormed_child formed here) (Value.wellFormed_child other there)
      rcases same with ⟨left, right⟩ | ⟨left, right⟩
      · cases a with
        | array as =>
          cases b with
          | array bs => exact patch_arrays kept children (added_items formed other)
          | _ => cases right
        | _ => cases left
      · cases a with
        | object as =>
          cases b with
          | object bs => exact patch_objects kept (Value.wellFormed_object formed).1 children (added_members formed other)
          | _ => cases right
        | _ => cases left
    · rw [differences_of_not_same same]
      have quiet : compareValues "" a b = [] ↔ Agrees isRedacted a b := compareValues_eq_nil_iff "" formed b
      rw [compareValues_of_not_same same] at quiet
      split_ifs at quiet ⊢
      · exact ⟨a, patch_nil a, quiet.1 rfl⟩
      · exact ⟨a, patch_nil a, quiet.1 rfl⟩
      · exact ⟨b, patch_root rfl a, .refl isRedacted b⟩

/-! ## Pointers -/

section
variable {a b : Value}

theorem compareValues_root (formed : a.wellFormed = true) (other : b.wellFormed = true) :
    compareValues "" a b = (differences a b).map (Difference.report []) := compareValues_located formed other []

theorem edits_eq (formed : a.wellFormed = true) (other : b.wellFormed = true) :
    (compareValues "" a b).filterMap PointerDiff.edit = (differences a b).map Difference.edit := by
  rw [compareValues_root formed other, List.filterMap_map, ← List.filterMap_eq_map]
  refine List.filterMap_congr fun difference _ => ?_
  simp [PointerDiff.edit, Difference.report, Difference.edit]

theorem compareValues_apart (formed : a.wellFormed = true) (other : b.wellFormed = true) :
    (compareValues "" a b).Pairwise fun first second => Pointer.Apart first.pointer second.pointer := by
  rw [compareValues_root formed other, List.pairwise_map]
  exact (differences_apart formed other).imp fun {first second} apart =>
    ⟨first.path, second.path, Pointer.tokens_text _, Pointer.tokens_text _, apart⟩

theorem compareValues_resolve (formed : a.wellFormed = true) (other : b.wellFormed = true) {diff : PointerDiff}
    (reported : diff ∈ compareValues "" a b) :
    a.pointer diff.pointer = diff.fromValue ∧ b.pointer diff.pointer = diff.toValue := by
  rw [compareValues_root formed other] at reported
  obtain ⟨difference, member, rfl⟩ := List.mem_map.1 reported
  have resolved := differences_resolve formed other member
  rw [Difference.report, List.nil_append, Value.pointer_text, Value.pointer_text]
  exact resolved

/-- A comparison is exact: it is silent when the values agree, its pointers name separate locations with what is
reported there, and replacing what it reports makes the values agree. -/
theorem compareValues_exact (formed : a.wellFormed = true) (other : b.wellFormed = true) :
    (compareValues "" a b = [] ↔ Agrees isRedacted a b) ∧
      ((compareValues "" a b).Pairwise fun first second =>
        first.pointer ≠ second.pointer ∧ Pointer.Apart first.pointer second.pointer) ∧
      (∀ diff ∈ compareValues "" a b, a.pointer diff.pointer = diff.fromValue ∧ b.pointer diff.pointer = diff.toValue) ∧
      ∃ patched, patch ((compareValues "" a b).filterMap PointerDiff.edit) a = some patched ∧
        Agrees isRedacted patched b := by
  refine ⟨compareValues_eq_nil_iff "" formed b, ?_, fun diff reported => compareValues_resolve formed other reported, ?_⟩
  · exact (compareValues_apart formed other).imp fun apart => ⟨apart.ne, apart⟩
  · rw [edits_eq formed other]
    exact patch_differences formed other

end

/-- A response body with a slash in a key. -/
def baselineBody : Value :=
  .object [("a/b", .array [.number (.posInt 1), .number (.posInt 2)]), ("c", .string redactedPlaceholder)]

def candidateBody : Value :=
  .object [("a/b", .array [.number (.posInt 3)]), ("c", .bool true), ("d", .null)]

theorem compareValues_exact_bodies :
    (compareValues "" baselineBody candidateBody = [] ↔ Agrees isRedacted baselineBody candidateBody) ∧
      ((compareValues "" baselineBody candidateBody).Pairwise fun first second =>
        first.pointer ≠ second.pointer ∧ Pointer.Apart first.pointer second.pointer) ∧
      (∀ diff ∈ compareValues "" baselineBody candidateBody,
        baselineBody.pointer diff.pointer = diff.fromValue ∧ candidateBody.pointer diff.pointer = diff.toValue) ∧
      ∃ patched, patch ((compareValues "" baselineBody candidateBody).filterMap PointerDiff.edit) baselineBody =
        some patched ∧ Agrees isRedacted patched candidateBody :=
  compareValues_exact (by decide +kernel) (by decide +kernel)

example : (compareValues "" baselineBody candidateBody).map PointerDiff.pointer = ["/a~1b/0", "/a~1b/1", "/d"] := by
  decide +kernel

end McpTracer.Model
