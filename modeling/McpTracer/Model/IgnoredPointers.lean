import McpTracer.Model.OriginalPointers

/-! Ignoring a reported pointer.

A pointer names one place. Ignoring it takes that place out of both bodies and leaves the others, and
where the place is a member of an object, no other place moves.
-/

set_option autoImplicit false

namespace McpTracer.Model
open McpTracer.Foundation McpTracer.Json McpTracer.Redact

def IgnoreRules.ignore (rules : IgnoreRules) (pointer : String) : IgnoreRules :=
  { rules with pointers := pointer :: rules.pointers }

section
variable {rules : IgnoreRules} {path : List String}

theorem contains_ignore_iff (location : List String) :
    (rules.ignore (Pointer.text path)).pointers.contains (Pointer.text location) = true ↔
      location = path ∨ rules.pointers.contains (Pointer.text location) = true := by
  rw [IgnoreRules.ignore, List.contains_cons, Bool.or_eq_true, beq_iff_eq]
  exact or_congr_left ⟨Pointer.text_injective, fun same => same ▸ rfl⟩

theorem isVolatileKey_ignore (key pointer : String) :
    isVolatileKey key (rules.ignore pointer) = isVolatileKey key rules := rfl

theorem walkAt_ignored (v : Value) : walkAt (rules.ignore (Pointer.text path)) path v = none :=
  normalizeWalk_none_of_ignored ((contains_ignore_iff path).2 (.inl rfl)) v

/-- Items of which each is walked alike are normalized alike. -/
theorem normalizeItems_congr {other : IgnoreRules} {pointer : String} {index : Nat} {items : List Value}
    (alike : ∀ n, index ≤ n → ∀ item ∈ items, normalizeWalk other (childPointer pointer (toString n)) item =
      normalizeWalk rules (childPointer pointer (toString n)) item) :
    normalizeItems other pointer index items = normalizeItems rules pointer index items := by
  induction items generalizing index with
  | nil => rfl
  | cons item rest ih =>
    rw [normalizeItems, normalizeItems, alike index le_rfl item List.mem_cons_self,
      ih fun n above other member => alike n (Nat.le_of_succ_le above) other (List.mem_cons_of_mem _ member)]

theorem normalizeFields_congr {other : IgnoreRules} {pointer : String} {fields : List (String × Value)}
    (volatile : other.volatileKeys = rules.volatileKeys)
    (alike : ∀ field ∈ fields, normalizeWalk other (childPointer pointer (escapePointerToken field.1)) field.2 =
      normalizeWalk rules (childPointer pointer (escapePointerToken field.1)) field.2) :
    normalizeFields other pointer fields = normalizeFields rules pointer fields := by
  induction fields with
  | nil => rfl
  | cons field rest ih =>
    obtain ⟨key, child⟩ := field
    have first := alike (key, child) List.mem_cons_self
    have hidden : isVolatileKey key other = isVolatileKey key rules := by rw [isVolatileKey, isVolatileKey, volatile]
    rw [normalizeFields, normalizeFields, hidden, first, ih fun next member => alike next (List.mem_cons_of_mem _ member)]

theorem contains_ignore_other {location : List String} (other : location ≠ path) :
    (rules.ignore (Pointer.text path)).pointers.contains (Pointer.text location) =
      rules.pointers.contains (Pointer.text location) :=
  Bool.eq_iff_iff.2 ((contains_ignore_iff location).trans (or_iff_right other))

theorem ne_of_elsewhere {location : List String} (elsewhere : ¬ location <+: path) : location ≠ path :=
  fun same => elsewhere (same ▸ List.prefix_refl location)

theorem elsewhere_below {location : List String} (elsewhere : ¬ location <+: path) (token : String) :
    ¬ location ++ [token] <+: path := fun inside => elsewhere ((List.prefix_append location [token]).trans inside)

/-- A walk that does not come to the ignored place goes as before. -/
theorem walkAt_elsewhere {location : List String} (elsewhere : ¬ location <+: path) (v : Value) :
    walkAt (rules.ignore (Pointer.text path)) location v = walkAt rules location v := by
  have other := ne_of_elsewhere elsewhere
  induction v using Value.children generalizing location with
  | array items ih =>
    have alike (n : Nat) (item : Value) (member : item ∈ items) :
        normalizeWalk (rules.ignore (Pointer.text path)) (childPointer (Pointer.text location) (toString n)) item =
          normalizeWalk rules (childPointer (Pointer.text location) (toString n)) item := by
      rw [childPointer_toString]
      exact ih item member (elsewhere_below elsewhere _) (ne_of_elsewhere (elsewhere_below elsewhere _))
    rw [walkAt, walkAt, normalizeWalk, normalizeWalk, contains_ignore_other other,
      normalizeItems_congr fun n _ item member => alike n item member]
  | object fields ih =>
    have alike (field : String × Value) (member : field ∈ fields) :
        normalizeWalk (rules.ignore (Pointer.text path))
            (childPointer (Pointer.text location) (escapePointerToken field.1)) field.2 =
          normalizeWalk rules (childPointer (Pointer.text location) (escapePointerToken field.1)) field.2 := by
      rw [childPointer_text]
      exact ih field member (elsewhere_below elsewhere _) (ne_of_elsewhere (elsewhere_below elsewhere _))
    have volatile : (rules.ignore (Pointer.text path)).volatileKeys = rules.volatileKeys := rfl
    rw [walkAt, walkAt, normalizeWalk, normalizeWalk, contains_ignore_other other, normalizeFields_congr volatile alike]
  | _ => rw [walkAt, walkAt, normalizeWalk_leaf _ rfl rfl, normalizeWalk_leaf _ rfl rfl, contains_ignore_other other]

theorem elsewhere_of_ne {location rest : List String} {token other : String} (differ : other ≠ token) :
    ¬ location ++ [other] <+: location ++ token :: rest := by
  rw [List.prefix_append_right_inj, List.cons_prefix_cons]
  exact fun inside => differ inside.1

theorem passed_of_goesOn {location rest : List String} (token : String) (goesOn : rest ≠ []) :
    location ++ [token] ≠ location ++ token :: rest := by
  simpa using Ne.symm goesOn

theorem walkAt_ne_none_iff {location : List String} (v : Value) :
    walkAt rules location v ≠ none ↔ rules.pointers.contains (Pointer.text location) = false := by
  rw [walkAt, Ne, normalizeWalk_eq_none_iff, Bool.not_eq_true]

/-! ## Taking one place out -/

/-- The location ends in a member of an object. -/
def EndsInMember (path : List String) (v : Value) : Prop :=
  ∀ front token parent, path = front ++ [token] → v.resolve front = some parent → parent.isArray = false

theorem EndsInMember.child {token : String} {rest : List String} {v child : Value} (ends : EndsInMember (token :: rest) v)
    (found : v.child token = some child) : EndsInMember rest child := by
  intro front last parent same inside
  exact ends (token :: front) last parent (by rw [same, List.cons_append]) (by simpa [found] using inside)

/-- In an array, the other elements stay where they are. -/
theorem getElem?_normalizeItems_ignore {location rest : List String} {place : Nat} (goesOn : rest ≠ [])
    (path_eq : path = location ++ toString place :: rest) {index j : Nat} {items : List Value}
    (kept : ∀ earlier ≤ place, rules.pointers.contains (Pointer.text (location ++ [toString earlier])) = false)
    (other : index + j ≠ place) :
    (normalizeItems (rules.ignore (Pointer.text path)) (Pointer.text location) index items)[j]? =
      (normalizeItems rules (Pointer.text location) index items)[j]? := by
  have beside (n : Nat) (differ : n ≠ place) (item : Value) :
      normalizeWalk (rules.ignore (Pointer.text path)) (childPointer (Pointer.text location) (toString n)) item =
        normalizeWalk rules (childPointer (Pointer.text location) (toString n)) item := by
    rw [childPointer_toString, path_eq]
    exact walkAt_elsewhere (elsewhere_of_ne fun same => differ (Pointer.toString_injective same)) item
  have later {from' : Nat} (past : place < from') (others : List Value) :
      normalizeItems (rules.ignore (Pointer.text path)) (Pointer.text location) from' others =
        normalizeItems rules (Pointer.text location) from' others :=
    normalizeItems_congr fun n above item _ => beside n (by omega) item
  induction items generalizing index j with
  | nil => rfl
  | cons item rest' ih =>
    rcases lt_trichotomy index place with before | here | past
    · -- the element in front of the place stays, and so does its index
      obtain ⟨w, walked⟩ := Option.ne_none_iff_exists'.1 ((walkAt_ne_none_iff item).2 (kept index before.le))
      rw [walkAt, ← childPointer_toString] at walked
      rw [normalizeItems, normalizeItems, beside index before.ne item, walked]
      cases j with
      | zero => rfl
      | succ j => exact ih (by omega)
    · subst here
      obtain ⟨w, walked⟩ := Option.ne_none_iff_exists'.1 ((walkAt_ne_none_iff item).2 (kept index le_rfl))
      have stays := kept index le_rfl
      rw [← contains_ignore_other (path_eq ▸ passed_of_goesOn (toString index) goesOn)] at stays
      obtain ⟨w', walked'⟩ := Option.ne_none_iff_exists'.1 ((walkAt_ne_none_iff item).2 stays)
      rw [walkAt, ← childPointer_toString] at walked walked'
      rw [normalizeItems, normalizeItems, walked, walked', later (Nat.lt_succ_self index)]
      cases j with
      | zero => exact absurd rfl other
      | succ j => rfl
    · rw [later past]

/-- Under another token, ignoring the place changes nothing. -/
theorem child_ignore_other {location rest : List String} {token : String} {v w w' : Value}
    (path_eq : path = location ++ token :: rest) (walked : walkAt rules location v = some w)
    (walked' : walkAt (rules.ignore (Pointer.text path)) location v = some w') (place : KeepsPlace rules location token v)
    (member : rest = [] → v.isArray = false) {other : String} (differ : other ≠ token) :
    w'.child other = w.child other := by
  cases v with
  | array items =>
    have goesOn : rest ≠ [] := fun last => by cases member last
    obtain ⟨-, rfl⟩ := walkAt_array_eq_some_iff.1 walked
    obtain ⟨-, rfl⟩ := walkAt_array_eq_some_iff.1 walked'
    cases read : Pointer.arrayIndex other with
    | none => simp [Value.child, read]
    | some j =>
      obtain rfl := Pointer.toString_of_arrayIndex read
      rw [Value.child_array_toString, Value.child_array_toString]
      cases named : Pointer.arrayIndex token with
      | none =>
        rw [normalizeItems_congr fun n _ item _ => ?_]
        rw [childPointer_toString, path_eq]
        refine walkAt_elsewhere (elsewhere_of_ne ?_) item
        rintro rfl
        rw [Pointer.arrayIndex_toString] at named
        cases named
      | some k =>
        obtain rfl := Pointer.toString_of_arrayIndex named
        refine getElem?_normalizeItems_ignore goesOn path_eq (fun earlier below => ?_) ?_
        · simpa using place rfl k named earlier below
        · rintro rfl
          exact differ (by rw [Nat.zero_add])
  | object fields =>
    have alike (v : Value) : walkAt (rules.ignore (Pointer.text path)) (location ++ [other]) v =
        walkAt rules (location ++ [other]) v := path_eq ▸ walkAt_elsewhere (elsewhere_of_ne differ) v
    rw [child_walked_object walked, child_walked_object walked', isVolatileKey_ignore, funext alike]
  | _ =>
    rw [walkAt, normalizeWalk_leaf _ rfl rfl] at walked walked'
    split_ifs at walked walked'
    rw [← Option.some.inj walked, ← Option.some.inj walked']

/-! ## Taking one difference out -/

/-- What is left is what was there, except at one location. -/
def Removes (path : List String) (before after : List Difference) : Prop :=
  ∀ difference, difference ∈ after ↔ difference ∈ before ∧ difference.path ≠ path

theorem Removes.container {a b a' b' : Value} (formed : a.wellFormed = true) (other : b.wellFormed = true)
    (formed' : a'.wellFormed = true) (other' : b'.wellFormed = true) (same : SameContainer a b)
    (same' : SameContainer a' b') {token : String} {rest : List String}
    (left : ∀ next, next ≠ token → a'.child next = a.child next)
    (right : ∀ next, next ≠ token → b'.child next = b.child next)
    (here : Removes rest (childDifferences (a.child token) (b.child token))
      (childDifferences (a'.child token) (b'.child token))) :
    Removes (token :: rest) (differences a b) (differences a' b') := by
  intro difference
  rw [mem_differences_container formed' other' same', mem_differences_container formed other same]
  constructor
  · rintro ⟨next, child, found, rfl⟩
    by_cases differ : next = token
    · subst differ
      obtain ⟨before, beside⟩ := (here child).1 found
      exact ⟨⟨next, child, before, rfl⟩, by simpa [Difference.below] using beside⟩
    · rw [left next differ, right next differ] at found
      exact ⟨⟨next, child, found, rfl⟩, by simp [Difference.below, differ]⟩
  · rintro ⟨⟨next, child, found, rfl⟩, beside⟩
    by_cases differ : next = token
    · subst differ
      exact ⟨next, child, (here child).2 ⟨found, by simpa [Difference.below] using beside⟩, rfl⟩
    · rw [← left next differ, ← right next differ] at found
      exact ⟨next, child, found, rfl⟩

/-- A difference of the whole values is the only one. -/
theorem root_of_differences {a b : Value} (formed : a.wellFormed = true) (other : b.wellFormed = true)
    {whole : Difference} (member : whole ∈ differences a b) (root : whole.path = []) {difference : Difference}
    (found : difference ∈ differences a b) : difference.path = [] := by
  by_cases same : SameContainer a b
  · obtain ⟨token, child, -, rfl⟩ := (mem_differences_container formed other same).1 member
    cases root
  · rw [differences_of_not_same same] at found
    split_ifs at found
    · cases found
    · cases found
    · rw [List.mem_singleton.1 found]

theorem sameContainer_of_differences {a b : Value} {inside : Difference} (member : inside ∈ differences a b)
    (below : inside.path ≠ []) : SameContainer a b := by
  by_contra differ
  rw [differences_of_not_same differ] at member
  split_ifs at member
  · cases member
  · cases member
  · rw [List.mem_singleton.1 member] at below
    exact below rfl

theorem root_of_childDifferences {x y : Option Value} (formed : ∀ v ∈ x, v.wellFormed = true)
    (other : ∀ w ∈ y, w.wellFormed = true) {whole : Difference} (member : whole ∈ childDifferences x y)
    (root : whole.path = []) {difference : Difference} (found : difference ∈ childDifferences x y) :
    difference.path = [] := by
  cases x with
  | none => cases y <;> simp_all [childDifferences]
  | some v =>
    cases y with
    | none => simp_all [childDifferences]
    | some w => exact root_of_differences (formed v rfl) (other w rfl) member root found

theorem both_of_childDifferences {x y : Option Value} {inside : Difference} (member : inside ∈ childDifferences x y)
    (below : inside.path ≠ []) : ∃ v w, x = some v ∧ y = some w ∧ inside ∈ differences v w := by
  cases x with
  | none => cases y <;> simp_all [childDifferences]
  | some v =>
    cases y with
    | none => simp_all [childDifferences]
    | some w => exact ⟨v, w, rfl, rfl, member⟩

/-- A walk that the ignored place is below goes on. -/
theorem walkAt_passes {location rest : List String} (path_eq : path = location ++ rest) (goesOn : rest ≠ []) {v w : Value}
    (walked : walkAt rules location v = some w) :
    ∃ w', walkAt (rules.ignore (Pointer.text path)) location v = some w' := by
  have passed : location ≠ path := by
    rw [path_eq]
    simpa using Ne.symm goesOn
  have stays := (walkAt_ne_none_iff v).1 (Option.ne_none_iff_exists'.2 ⟨w, walked⟩)
  rw [← contains_ignore_other passed] at stays
  exact Option.ne_none_iff_exists'.1 ((walkAt_ne_none_iff v).2 stays)

/-- Ignoring a reported place takes out what is reported there, given that it does below. -/
theorem childDifferences_ignore {location rest : List String} (path_eq : path = location ++ rest) {x y : Option Value}
    (formed : ∀ v ∈ x, v.wellFormed = true) (other : ∀ w ∈ y, w.wellFormed = true) {reported : Difference}
    (inner : ∀ v ∈ x, ∀ w ∈ y, ∀ v' ∈ walkAt rules location v, ∀ w' ∈ walkAt rules location w,
      ∀ v'' ∈ walkAt (rules.ignore (Pointer.text path)) location v,
      ∀ w'' ∈ walkAt (rules.ignore (Pointer.text path)) location w, rest ≠ [] → reported ∈ differences v' w' →
      Removes rest (differences v' w') (differences v'' w''))
    (member : reported ∈ childDifferences (x.bind (walkAt rules location)) (y.bind (walkAt rules location)))
    (place : reported.path = rest) :
    Removes rest (childDifferences (x.bind (walkAt rules location)) (y.bind (walkAt rules location)))
      (childDifferences (x.bind (walkAt (rules.ignore (Pointer.text path)) location))
        (y.bind (walkAt (rules.ignore (Pointer.text path)) location))) := by
  have formedWalked {z : Option Value} (shape : ∀ v ∈ z, v.wellFormed = true) :
      ∀ w ∈ z.bind (walkAt rules location), w.wellFormed = true := by
    intro w found
    obtain ⟨v, rfl, walked⟩ := Option.bind_eq_some_iff.1 found
    exact normalizeWalk_wellFormed (shape v rfl) walked
  by_cases last : rest = []
  · rw [last, List.append_nil] at path_eq
    have gone (z : Option Value) : z.bind (walkAt (rules.ignore (Pointer.text path)) location) = none :=
      Option.bind_eq_none_iff.2 fun v _ => path_eq ▸ walkAt_ignored v
    intro difference
    rw [gone, gone, last]
    refine iff_of_false List.not_mem_nil fun both => both.2 ?_
    exact root_of_childDifferences (formedWalked formed) (formedWalked other) member (place.trans last) both.1
  · obtain ⟨v', w', left, right, inside⟩ := both_of_childDifferences member (place ▸ last)
    obtain ⟨v, rfl, walkedLeft⟩ := Option.bind_eq_some_iff.1 left
    obtain ⟨w, rfl, walkedRight⟩ := Option.bind_eq_some_iff.1 right
    obtain ⟨v'', againLeft⟩ := walkAt_passes path_eq last walkedLeft
    obtain ⟨w'', againRight⟩ := walkAt_passes path_eq last walkedRight
    have removes := inner v rfl w rfl v' walkedLeft w' walkedRight v'' againLeft w'' againRight last inside
    rw [Option.bind_some, Option.bind_some, Option.bind_some, Option.bind_some, walkedLeft, walkedRight, againLeft,
      againRight]
    exact removes

theorem KeepsPlace.ignore {location rest : List String} {token : String} {v : Value}
    (keeps : KeepsPlace rules location token v) (path_eq : path = location ++ token :: rest)
    (member : rest = [] → v.isArray = false) : KeepsPlace (rules.ignore (Pointer.text path)) location token v := by
  intro shape index read earlier below
  have goesOn : rest ≠ [] := by
    intro last
    rw [member last] at shape
    cases shape
  rw [IgnoreRules.ignore, List.mem_cons, not_or]
  refine ⟨fun same => goesOn ?_, keeps shape index read earlier below⟩
  have path_same := Pointer.text_injective same
  rw [path_eq, List.append_right_inj, List.cons.injEq] at path_same
  exact path_same.2.symm

theorem differences_ignore {a b : Value} (formed : a.wellFormed = true) (other : b.wellFormed = true)
    {location rest : List String} (path_eq : path = location ++ rest) (goesOn : rest ≠ []) {na nb na' nb' : Value}
    (left : walkAt rules location a = some na) (right : walkAt rules location b = some nb)
    (left' : walkAt (rules.ignore (Pointer.text path)) location a = some na')
    (right' : walkAt (rules.ignore (Pointer.text path)) location b = some nb') {reported : Difference}
    (member : reported ∈ differences na nb) (place : reported.path = rest)
    (undisturbed : Undisturbed rules location rest a) (ends : EndsInMember rest a) :
    Removes rest (differences na nb) (differences na' nb') := by
  induction a using Value.induction_on_child generalizing b location rest na nb na' nb' reported with
  | step a ih =>
    have formedLeft := normalizeWalk_wellFormed formed left
    have formedRight := normalizeWalk_wellFormed other right
    have same := sameContainer_of_differences member (place ▸ goesOn)
    have both := (sameContainer_of_walked left right).1 same
    obtain ⟨token, child, found, rfl⟩ := (mem_differences_container formedLeft formedRight same).1 member
    obtain rfl : token :: child.path = rest := place
    have keeps : KeepsPlace rules location token a := undisturbed.place
    have member : child.path = [] → a.isArray = false := fun last => ends [] token a (by rw [last]; rfl) rfl
    have memberToo : child.path = [] → b.isArray = false := by
      intro last
      by_contra shape
      rw [both.isArray (by simpa using shape)] at member
      cases member last
    have visible : a.isObject = true → isVolatileKey token rules = false :=
      visible_of_present left right both (present_of_mem_childDifferences found)
    have visibleToo : b.isObject = true → isVolatileKey token rules = false := fun shape => visible (both.isObject shape)
    have keeps' : KeepsPlace (rules.ignore (Pointer.text path)) location token a := keeps.ignore path_eq member
    rw [child_walked left keeps visible, child_walked right (keeps.other both) visibleToo] at found
    refine Removes.container formedLeft formedRight (normalizeWalk_wellFormed formed left')
      (normalizeWalk_wellFormed other right') same ((sameContainer_of_walked left' right').2 both)
      (fun next differ => child_ignore_other path_eq left left' keeps member differ)
      (fun next differ => child_ignore_other path_eq right right' (keeps.other both) memberToo differ) ?_
    rw [child_walked left keeps visible, child_walked right (keeps.other both) visibleToo,
      child_walked left' keeps' visible, child_walked right' (keeps'.other both) visibleToo]
    rw [List.append_cons] at path_eq
    refine childDifferences_ignore path_eq (fun v here => Value.wellFormed_child formed here)
      (fun w there => Value.wellFormed_child other there) ?_ found rfl
    intro v here w there v' walkedLeft w' walkedRight v'' againLeft w'' againRight goesOn inside
    exact ih token v here (Value.wellFormed_child formed here) (Value.wellFormed_child other there) path_eq goesOn walkedLeft
      walkedRight againLeft againRight inside rfl (undisturbed.child here) (ends.child here)

/-! ## Response bodies -/

theorem asStr_of_container {v : Value} (shape : v.isArray = true ∨ v.isObject = true) : v.asStr = none := by
  cases v <;> simp_all [Value.asStr, Value.isArray, Value.isObject]

/-- Unless the result type itself is ignored, the same results wait for input. -/
theorem isInputRequired_ignore {token : String} {rest : List String} {body w w' : Value} (path_eq : path = token :: rest)
    (walked : walkAt rules [] body = some w) (walked' : walkAt (rules.ignore (Pointer.text path)) [] body = some w')
    (keeps : KeepsPlace rules [] token body) (member : rest = [] → body.isArray = false)
    (inside : token = "resultType" → ∃ v, w.child token = some v ∧ (v.isArray = true ∨ v.isObject = true) ∧
      ∃ v', w'.child token = some v' ∧ (v'.isArray = true ∨ v'.isObject = true)) :
    isInputRequired (rules.ignore (Pointer.text path)) body = isInputRequired rules body := by
  have asChild (v : Value) : v.get "resultType" = v.child "resultType" := by cases v <;> rfl
  have same : (w'.get "resultType").bind Value.asStr = (w.get "resultType").bind Value.asStr := by
    rw [asChild, asChild]
    by_cases differ : "resultType" = token
    · obtain ⟨v, found, container, v', found', container'⟩ := inside differ.symm
      rw [differ, found, found', Option.bind_some, Option.bind_some, asStr_of_container container,
        asStr_of_container container']
    · rw [child_ignore_other path_eq walked walked' keeps member differ]
  rw [isInputRequired, isInputRequired, normalize_of_walked walked, normalize_of_walked walked', same]

/-- Without its result type, no result waits for input. -/
theorem isInputRequired_of_ignored {body w' : Value} (path_eq : path = ["resultType"])
    (walked' : walkAt (rules.ignore (Pointer.text path)) [] body = some w') :
    isInputRequired (rules.ignore (Pointer.text path)) body = false := by
  have gone : w'.get "resultType" = none := by
    by_contra present
    obtain ⟨v, found⟩ := Option.ne_none_iff_exists'.1 present
    have shape := (isArray_of_walked walked').2
    rw [Value.isObject_of_get found] at shape
    cases body with
    | object fields =>
      have taken := child_walked_object walked' "resultType"
      rw [List.nil_append, ← path_eq, funext walkAt_ignored, Option.bind_fun_none, ite_self] at taken
      have read : w'.get "resultType" = w'.child "resultType" := by cases w' <;> rfl
      rw [read, taken] at found
      cases found
    | _ => cases shape
  rw [isInputRequired, normalize_of_walked walked', gone]
  rfl

/-- A container on the way to the ignored place stays one. -/
theorem container_ignore {token : String} {rest : List String} {body w w' v : Value} (path_eq : path = token :: rest)
    (goesOn : rest ≠ []) (walked : walkAt rules [] body = some w)
    (walked' : walkAt (rules.ignore (Pointer.text path)) [] body = some w') (keeps : KeepsPlace rules [] token body)
    (found : w.child token = some v) (container : v.isArray = true ∨ v.isObject = true) :
    ∃ v', w'.child token = some v' ∧ (v'.isArray = true ∨ v'.isObject = true) := by
  have visible : body.isObject = true → isVolatileKey token rules = false := visible_of_child walked found
  have keeps' : KeepsPlace (rules.ignore (Pointer.text path)) [] token body :=
    keeps.ignore path_eq fun last => absurd last goesOn
  rw [child_walked walked keeps visible] at found
  obtain ⟨x, inside, at_x⟩ := Option.bind_eq_some_iff.1 found
  have below : path = ([] ++ [token]) ++ rest := path_eq
  obtain ⟨v', at_x'⟩ := walkAt_passes below goesOn at_x
  refine ⟨v', ?_, ?_⟩
  · rw [child_walked walked' keeps' visible, inside, Option.bind_some, at_x']
  · rwa [(isArray_of_walked at_x').1, (isArray_of_walked at_x').2, ← (isArray_of_walked at_x).1,
      ← (isArray_of_walked at_x).2]

theorem comparedMember_congr {other : IgnoreRules} {body : Value} {token : String}
    (same : isInputRequired other body = isInputRequired rules body) :
    comparedMember other body token = comparedMember rules body token := by
  rw [comparedMember, comparedMember, same]

/-- Ignoring a reported member takes its difference out and leaves the others. -/
theorem response_ignore {a b : Value} (formed : a.wellFormed = true) (other : b.wellFormed = true)
    {reported : Difference} (member : reported ∈ differences (normalizeResponse rules a) (normalizeResponse rules b))
    (undisturbed : Undisturbed rules [] reported.path a) (ends : EndsInMember reported.path a)
    (plain : reported.path = ["resultType"] → isInputRequired rules a = false ∧ isInputRequired rules b = false) :
    Removes reported.path (differences (normalizeResponse rules a) (normalizeResponse rules b))
      (differences (normalizeResponse (rules.ignore (Pointer.text reported.path)) a)
        (normalizeResponse (rules.ignore (Pointer.text reported.path)) b)) := by
  have formedLeft : (normalizeResponse rules a).wellFormed = true := normalizeResponse_wellFormed formed
  have formedRight : (normalizeResponse rules b).wellFormed = true := normalizeResponse_wellFormed other
  cases path_eq : reported.path with
  | nil =>
    intro difference
    rw [normalizeResponse_of_ignored (walkAt_ignored a), normalizeResponse_of_ignored (walkAt_ignored b)]
    have nothing : differences .null .null = [] := rfl
    rw [nothing]
    refine iff_of_false List.not_mem_nil fun both => both.2 ?_
    exact root_of_differences formedLeft formedRight member path_eq both.1
  | cons token rest =>
    rw [path_eq] at undisturbed ends plain
    have same := sameContainer_of_differences member (by simp [path_eq])
    obtain ⟨na, nb, left, right, both⟩ := walked_of_sameContainer same
    obtain ⟨found_token, child, found, rfl⟩ := (mem_differences_container formedLeft formedRight same).1 member
    obtain ⟨rfl, rfl⟩ : found_token = token ∧ child.path = rest := List.cons.inj path_eq
    have path_eq : found_token :: child.path = [] ++ found_token :: child.path := rfl
    obtain ⟨na', left'⟩ := walkAt_passes path_eq (List.cons_ne_nil _ _) left
    obtain ⟨nb', right'⟩ := walkAt_passes path_eq (List.cons_ne_nil _ _) right
    have keeps : KeepsPlace rules [] found_token a := undisturbed.place
    have keepsToo : KeepsPlace rules [] found_token b := keeps.other both
    have atMember : child.path = [] → a.isArray = false := fun last => ends [] found_token a (by rw [last]; rfl) rfl
    have atMemberToo : child.path = [] → b.isArray = false := by
      intro last
      by_contra shape
      rw [both.isArray (by simpa using shape)] at atMember
      cases atMember last
    have waits : isInputRequired (rules.ignore (Pointer.text (found_token :: child.path))) a = isInputRequired rules a ∧
        isInputRequired (rules.ignore (Pointer.text (found_token :: child.path))) b = isInputRequired rules b := by
      by_cases whole : found_token :: child.path = ["resultType"]
      · rw [isInputRequired_of_ignored whole left', isInputRequired_of_ignored whole right']
        exact ⟨(plain whole).1.symm, (plain whole).2.symm⟩
      · -- below the result type, the result type is a container and stays one
        have inside (named : found_token = "resultType") : ∃ x y, na.child found_token = some x ∧
            nb.child found_token = some y ∧ child.path ≠ [] ∧ SameContainer x y := by
          have goesOn : child.path ≠ [] := fun last => whole (by rw [named, last])
          obtain ⟨x, y, atLeft, atRight, within⟩ := both_of_childDifferences found goesOn
          rw [child_normalizeResponse left, if_neg (by simp [named])] at atLeft
          rw [child_normalizeResponse right, if_neg (by simp [named])] at atRight
          exact ⟨x, y, atLeft, atRight, goesOn, sameContainer_of_differences within goesOn⟩
        constructor
        · refine isInputRequired_ignore rfl left left' keeps atMember fun named => ?_
          obtain ⟨x, y, atLeft, -, goesOn, container⟩ := inside named
          have shape := container.imp And.left And.left
          exact ⟨x, atLeft, shape, container_ignore rfl goesOn left left' keeps atLeft shape⟩
        · refine isInputRequired_ignore rfl right right' keepsToo atMemberToo fun named => ?_
          obtain ⟨x, y, -, atRight, goesOn, container⟩ := inside named
          have shape := container.imp And.right And.right
          exact ⟨y, atRight, shape, container_ignore rfl goesOn right right' keepsToo atRight shape⟩
    have present := (present_of_mem_childDifferences found).imp (present_of_normalizeResponse left)
      (present_of_normalizeResponse right)
    have visible : a.isObject = true → isVolatileKey found_token rules = false :=
      visible_of_present left right both present
    have visibleToo : b.isObject = true → isVolatileKey found_token rules = false :=
      fun shape => visible (both.isObject shape)
    have same' : SameContainer (normalizeResponse (rules.ignore (Pointer.text (found_token :: child.path))) a)
        (normalizeResponse (rules.ignore (Pointer.text (found_token :: child.path))) b) := by
      rwa [SameContainer, (shape_normalizeResponse left').1, (shape_normalizeResponse left').2,
        (shape_normalizeResponse right').1, (shape_normalizeResponse right').2]
    refine Removes.container formedLeft formedRight (normalizeResponse_wellFormed formed)
      (normalizeResponse_wellFormed other) same same' (fun next differ => ?_) (fun next differ => ?_) ?_
    · rw [child_normalizeResponse left, child_normalizeResponse left', waits.1,
        child_ignore_other path_eq left left' keeps atMember differ]
    · rw [child_normalizeResponse right, child_normalizeResponse right', waits.2,
        child_ignore_other path_eq right right' keepsToo atMemberToo differ]
    · rw [child_response_walked left keeps visible, child_response_walked right keepsToo visibleToo] at found ⊢
      rw [child_response_walked left' (keeps.ignore path_eq atMember) visible,
        child_response_walked right' (keepsToo.ignore path_eq atMemberToo) visibleToo, comparedMember_congr waits.1,
        comparedMember_congr waits.2]
      have split : found_token :: child.path = [found_token] ++ child.path := rfl
      refine childDifferences_ignore split (fun v here => ?_) (fun w there => ?_) ?_ found rfl
      · exact Value.wellFormed_child formed (comparedMember_eq_some here)
      · exact Value.wellFormed_child other (comparedMember_eq_some there)
      · intro v here w there v' walkedLeft w' walkedRight v'' againLeft w'' againRight goesOn inside
        have under := comparedMember_eq_some here
        exact differences_ignore (Value.wellFormed_child formed under)
          (Value.wellFormed_child other (comparedMember_eq_some there)) split goesOn walkedLeft walkedRight againLeft
          againRight inside rfl (undisturbed.child under) (ends.child under)

end

/-! ## Reported pointers -/

/-- What is reported of two response bodies. -/
def bodyDiffs (rules : IgnoreRules) (a b : Value) : List PointerDiff :=
  compareValues "" (normalizeResponse rules a) (normalizeResponse rules b)

section
variable {rules : IgnoreRules} {a b : Value}

theorem mem_compareValues_iff (formed : a.wellFormed = true) (other : b.wellFormed = true) {diff : PointerDiff} :
    diff ∈ compareValues "" a b ↔ ∃ difference ∈ differences a b, difference.report [] = diff := by
  rw [show "" = Pointer.text [] from rfl, compareValues_located formed other, List.mem_map]

/-- Taking out a difference is taking out what reports it. -/
theorem Removes.report {a' b' : Value} (formed : a.wellFormed = true) (other : b.wellFormed = true)
    (formed' : a'.wellFormed = true) (other' : b'.wellFormed = true) {path : List String}
    (removes : Removes path (differences a b) (differences a' b')) (diff : PointerDiff) :
    diff ∈ compareValues "" a' b' ↔ diff ∈ compareValues "" a b ∧ diff.pointer ≠ Pointer.text path := by
  rw [mem_compareValues_iff formed' other', mem_compareValues_iff formed other]
  constructor
  · rintro ⟨difference, kept, rfl⟩
    obtain ⟨before, beside⟩ := (removes difference).1 kept
    exact ⟨⟨difference, before, rfl⟩, fun same => beside (Pointer.text_injective same)⟩
  · rintro ⟨⟨difference, before, rfl⟩, beside⟩
    exact ⟨difference, (removes difference).2 ⟨before, fun same => beside (by rw [← same]; rfl)⟩, rfl⟩

/-- A reported pointer names a location. Where no array is closed up on the way, what is compared of the bodies there is what
the difference says, and ignoring the pointer of a member takes that difference out and no other. -/
theorem response_pointers_usable (formed : a.wellFormed = true) (other : b.wellFormed = true) {diff : PointerDiff}
    (reported : diff ∈ bodyDiffs rules a b) :
    ∃ path, Pointer.tokens diff.pointer = some path ∧ (Undisturbed rules [] path a →
      (bodyAt rules a path = diff.fromValue ∧ bodyAt rules b path = diff.toValue) ∧
      (EndsInMember path a →
        (path = ["resultType"] → isInputRequired rules a = false ∧ isInputRequired rules b = false) → ∀ left,
        left ∈ bodyDiffs (rules.ignore diff.pointer) a b ↔
          left ∈ bodyDiffs rules a b ∧ left.pointer ≠ diff.pointer)) := by
  have formedLeft : (normalizeResponse rules a).wellFormed = true := normalizeResponse_wellFormed formed
  have formedRight : (normalizeResponse rules b).wellFormed = true := normalizeResponse_wellFormed other
  obtain ⟨difference, member, rfl⟩ := (mem_compareValues_iff formedLeft formedRight).1 reported
  refine ⟨difference.path, Pointer.tokens_text difference.path, fun undisturbed => ⟨?_, fun ends plain left => ?_⟩⟩
  · exact differences_response formed other member undisturbed
  · exact (response_ignore formed other member undisturbed ends plain).report formedLeft formedRight
      (normalizeResponse_wellFormed formed) (normalizeResponse_wellFormed other) left

end

/-- A tool result with a cost, next to a time. -/
def chargedBody (cost : UInt64) : Value :=
  .object [("content", .object [("cost", .number (.posInt cost)), ("timestamp", .number (.posInt 9))])]

theorem undisturbed_of_keeping {rules : IgnoreRules} (keeping : rules.pointers = []) (location path : List String)
    (v : Value) : Undisturbed rules location path v := by
  intro front token back parent _ _ _ index _ earlier _
  rw [keeping]
  exact List.not_mem_nil

theorem response_pointers_usable_charged :
    ∃ path, Pointer.tokens "/content/cost" = some path ∧
      bodyAt .standard (chargedBody 1) path = some (.number (.posInt 1)) ∧
      bodyAt .standard (chargedBody 2) path = some (.number (.posInt 2)) ∧
      ∀ left, left ∈ bodyDiffs (IgnoreRules.standard.ignore "/content/cost") (chargedBody 1) (chargedBody 2) ↔
        left ∈ bodyDiffs .standard (chargedBody 1) (chargedBody 2) ∧ left.pointer ≠ "/content/cost" := by
  have reported : ⟨"/content/cost", some (.number (.posInt 1)), some (.number (.posInt 2))⟩ ∈
      bodyDiffs .standard (chargedBody 1) (chargedBody 2) := by decide +kernel
  have formed : (chargedBody 1).wellFormed = true := by decide +kernel
  have other : (chargedBody 2).wellFormed = true := by decide +kernel
  obtain ⟨path, named, usable⟩ := response_pointers_usable formed other reported
  obtain rfl : ["content", "cost"] = path := Option.some.inj ((by decide +kernel : _ = _).trans named)
  obtain ⟨⟨before, after⟩, ignored⟩ := usable (undisturbed_of_keeping rfl [] _ _)
  refine ⟨_, named, before, after, ignored ?_ fun whole => ?_⟩
  · intro front token parent path inside
    obtain ⟨rfl, -⟩ : ["content"] = front ∧ "cost" = token := by
      simpa using List.append_inj' (show ["content"] ++ ["cost"] = _ from path) rfl
    obtain rfl := Option.some.inj inside
    rfl
  · simp at whole

def listed (items : List UInt64) : Value := .object [("list", .array (items.map fun item => .number (.posInt item)))]

def waitingBody (resultType : String) : Value :=
  .object [("requestState", .string "s"), ("resultType", .string resultType)]

/-- A removed member is reported without its time, and an opaque request state as absent. Behind an ignored element of an
array a pointer leads to the wrong one. Ignoring an element moves those behind it, and ignoring the result type brings the
request state back. -/
theorem response_pointers_miss :
    ¬ (∀ (rules : IgnoreRules) (a b : Value), a.wellFormed = true → b.wellFormed = true →
      ∀ diff ∈ bodyDiffs rules a b,
        (a.pointer diff.pointer = diff.fromValue ∧ b.pointer diff.pointer = diff.toValue) ∧
          ∀ left, left ∈ bodyDiffs (rules.ignore diff.pointer) a b ↔
            left ∈ bodyDiffs rules a b ∧ left.pointer ≠ diff.pointer) ∧
      bodyDiffs .standard (chargedBody 1) (.object []) =
        [⟨"/content", some (.object [("cost", .number (.posInt 1))]), none⟩] ∧
      bodyDiffs ⟨["/list/0"], []⟩ (listed [0, 1]) (listed [0, 2]) =
        [⟨"/list/0", some (.number (.posInt 1)), some (.number (.posInt 2))⟩] ∧
      bodyDiffs .standard (listed [1, 5]) (listed [2]) =
        [⟨"/list/0", some (.number (.posInt 1)), some (.number (.posInt 2))⟩,
          ⟨"/list/1", some (.number (.posInt 5)), none⟩] ∧
      bodyDiffs (IgnoreRules.standard.ignore "/list/0") (listed [1, 5]) (listed [2]) =
        [⟨"/list/0", some (.number (.posInt 5)), none⟩] ∧
      bodyDiffs .standard (waitingBody "input_required") (waitingBody "complete") =
        [⟨"/resultType", some (.string "input_required"), some (.string "complete")⟩,
          ⟨"/requestState", none, some (.string "s")⟩] ∧
      bodyDiffs (IgnoreRules.standard.ignore "/resultType") (waitingBody "input_required") (waitingBody "complete") =
        [] := by
  refine ⟨fun usable => ?_, by decide +kernel, by decide +kernel, by decide +kernel, by decide +kernel, by decide +kernel,
    by decide +kernel⟩
  have removed := usable .standard (chargedBody 1) (.object []) (by decide +kernel) (by decide +kernel)
    ⟨"/content", some (.object [("cost", .number (.posInt 1))]), none⟩ (by decide +kernel)
  exact absurd removed.1.1 (by decide +kernel)

end McpTracer.Model
