import McpTracer.Model.Emptiness
import McpTracer.Model.OriginalPointers
import McpTracer.Model.Replay
import McpTracer.Model.Suggestions

/-! Whether the pointers that are suggested for a tool make its results agree.

Ignored pointers make two values agree when every difference between them lies at or below an ignored one.
The suggestion names the differences from the first result, which show every difference between two others,
except where the first result is redacted. It joins the pointers with commas, at which the option splits them.
-/

set_option autoImplicit false

namespace McpTracer.Model
open McpTracer.Foundation McpTracer.Json McpTracer.Protocol McpTracer.Storage McpTracer.Redact

/-! ## Ignored differences -/

/-- From a location on, the path comes to an ignored place. -/
def ComesToIgnored (rules : IgnoreRules) (location path : List String) : Prop :=
  ∃ front, front <+: path ∧ Pointer.text (location ++ front) ∈ rules.pointers

section
variable {rules : IgnoreRules}

theorem comesToIgnored_cons_iff {location : List String} (kept : Pointer.text location ∉ rules.pointers)
    (token : String) (path : List String) :
    ComesToIgnored rules location (token :: path) ↔ ComesToIgnored rules (location ++ [token]) path := by
  constructor
  · rintro ⟨front, inside, ignored⟩
    cases front with
    | nil => exact absurd (by simpa using ignored) kept
    | cons first rest =>
      obtain ⟨rfl, below⟩ := List.cons_prefix_cons.1 inside
      exact ⟨rest, below, by simpa using ignored⟩
  · rintro ⟨front, inside, ignored⟩
    exact ⟨token :: front, List.cons_prefix_cons.2 ⟨rfl, inside⟩, by simpa using ignored⟩

/-- Without a place that is ignored, the path is the location itself. -/
theorem not_comesToIgnored_nil {location : List String} (kept : Pointer.text location ∉ rules.pointers) :
    ¬ComesToIgnored rules location [] := by
  rintro ⟨front, inside, ignored⟩
  obtain rfl := List.prefix_nil.1 inside
  exact kept (by simpa using ignored)

theorem comesToIgnored_of_ignored {location : List String} (ignored : Pointer.text location ∈ rules.pointers)
    (path : List String) : ComesToIgnored rules location path :=
  ⟨[], List.nil_prefix, by simpa using ignored⟩

theorem option_rel_none_left {A B : Type} {R : A → B → Prop} {y : Option B} : Option.Rel R none y ↔ y = none := by
  cases y <;> simp

theorem option_rel_none_right {A B : Type} {R : A → B → Prop} {x : Option A} : Option.Rel R x none ↔ x = none := by
  cases x <;> simp

theorem walkAt_eq_none_iff {location : List String} (v : Value) :
    walkAt rules location v = none ↔ Pointer.text location ∈ rules.pointers := by
  rw [walkAt, normalizeWalk_eq_none_iff, List.contains_iff_mem]

theorem forall_add_succ {P : Nat → Nat → Prop} {index : Nat} :
    (∀ n, P n (index + n)) ↔ P 0 index ∧ ∀ n, P (n + 1) (index + 1 + n) := by
  constructor
  · intro every
    refine ⟨every 0, fun n => ?_⟩
    have later := every (n + 1)
    rwa [← Nat.add_assoc, Nat.add_right_comm] at later
  · rintro ⟨first, later⟩ n
    cases n with
    | zero => exact first
    | succ n =>
      have next := later n
      rwa [Nat.add_right_comm, Nat.add_assoc] at next

theorem normalizeItems_eq_nil_iff {location : List String} {index : Nat} {items : List Value} :
    normalizeItems rules (Pointer.text location) index items = [] ↔
      ∀ n : Nat, items[n]?.bind (walkAt rules (location ++ [toString (index + n)])) = none := by
  induction items generalizing index with
  | nil => simp [normalizeItems]
  | cons item rest ih =>
    rw [forall_add_succ (P := fun n place =>
        (item :: rest)[n]?.bind (walkAt rules (location ++ [toString place])) = none),
      normalizeItems, childPointer_toString]
    simp only [List.getElem?_cons_zero, List.getElem?_cons_succ, Option.bind_some, ← ih, walkAt]
    cases walked : normalizeWalk rules (Pointer.text (location ++ [toString index])) item with
    | none => simp
    | some kept => simp

/-- Both sides of an array lose the same elements, so those that are left stand beside each other as before. -/
theorem forall₂_normalizeItems_iff {R : Value → Value → Prop} {location : List String} {index : Nat}
    {as bs : List Value} :
    List.Forall₂ R (normalizeItems rules (Pointer.text location) index as)
        (normalizeItems rules (Pointer.text location) index bs) ↔
      ∀ n : Nat, Option.Rel R (as[n]?.bind (walkAt rules (location ++ [toString (index + n)])))
        (bs[n]?.bind (walkAt rules (location ++ [toString (index + n)]))) := by
  induction as generalizing index bs with
  | nil =>
    rw [normalizeItems, List.forall₂_nil_left_iff, normalizeItems_eq_nil_iff]
    simp [option_rel_none_left]
  | cons a as ih =>
    cases bs with
    | nil =>
      rw [show normalizeItems rules (Pointer.text location) index [] = [] from rfl, List.forall₂_nil_right_iff,
        normalizeItems_eq_nil_iff]
      simp [option_rel_none_right]
    | cons b bs =>
      rw [forall_add_succ (P := fun n place => Option.Rel R
          ((a :: as)[n]?.bind (walkAt rules (location ++ [toString place])))
          ((b :: bs)[n]?.bind (walkAt rules (location ++ [toString place])))),
        normalizeItems, normalizeItems, childPointer_toString]
      simp only [List.getElem?_cons_zero, List.getElem?_cons_succ, Option.bind_some, ← ih, walkAt]
      cases left : normalizeWalk rules (Pointer.text (location ++ [toString index])) a with
      | none =>
        -- An ignored index is taken out on the other side as well.
        rw [(normalizeWalk_eq_none_iff _ b).2 ((normalizeWalk_eq_none_iff _ a).1 left)]
        simp
      | some x =>
        cases right : normalizeWalk rules (Pointer.text (location ++ [toString index])) b with
        | none =>
          rw [(normalizeWalk_eq_none_iff _ a).2 ((normalizeWalk_eq_none_iff _ b).1 right)] at left
          cases left
        | some y => simp

theorem agrees_arrays_iff {xs ys : List Value} :
    Agrees isRedacted (.array xs) (.array ys) ↔ List.Forall₂ (Agrees isRedacted) xs ys := by
  constructor
  · intro agrees
    cases agrees with
    | left _ hidden => cases hidden
    | right _ hidden => cases hidden
    | leaf noArray => cases noArray
    | array length items => exact forall₂_iff_getElem?.2 ⟨length, items⟩
  · intro related
    exact .array (forall₂_iff_getElem?.1 related).1 (forall₂_iff_getElem?.1 related).2

/-- What is left of two containers of one kind agrees token by token. -/
theorem agrees_walked_container (plain : rules.volatileKeys = []) {location : List String} {a b na nb : Value}
    (left : walkAt rules location a = some na) (right : walkAt rules location b = some nb) (same : SameContainer a b) :
    Agrees isRedacted na nb ↔ ∀ token, Option.Rel (Agrees isRedacted)
      ((a.child token).bind (walkAt rules (location ++ [token])))
      ((b.child token).bind (walkAt rules (location ++ [token]))) := by
  rcases same with ⟨leftArray, rightArray⟩ | ⟨leftObject, rightObject⟩
  · cases a with
    | array as =>
      cases b with
      | array bs =>
        obtain ⟨-, rfl⟩ := walkAt_array_eq_some_iff.1 left
        obtain ⟨-, rfl⟩ := walkAt_array_eq_some_iff.1 right
        rw [agrees_arrays_iff, forall₂_normalizeItems_iff]
        constructor
        · intro items token
          cases read : Pointer.arrayIndex token with
          | none => simp [Value.child, read]
          | some index =>
            obtain rfl := Pointer.toString_of_arrayIndex read
            have item := items index
            rwa [Nat.zero_add, ← Value.child_array_toString, ← Value.child_array_toString] at item
        · intro tokens n
          have item := tokens (toString n)
          rw [Nat.zero_add]
          rwa [Value.child_array_toString, Value.child_array_toString] at item
      | _ => cases rightArray
    | _ => cases leftArray
  · have visible (token : String) : isVolatileKey token rules = false := by simp [isVolatileKey, plain]
    cases a with
    | object as =>
      cases b with
      | object bs =>
        have leftShape : na.isObject = true := (isArray_of_walked left).2
        have rightShape : nb.isObject = true := (isArray_of_walked right).2
        have lookedUp {v : Value} (shape : v.isObject = true) (token : String) : v.get token = v.child token := by
          cases v <;> first | rfl | cases shape
        rw [agrees_iff_get leftShape rightShape]
        refine forall_congr' fun token => ?_
        rw [lookedUp leftShape, lookedUp rightShape, child_walked_object left, child_walked_object right, visible]
        simp
      | _ => cases rightObject
    | _ => cases leftObject

theorem walked_of_leaf {location : List String} {v w : Value} (walked : walkAt rules location v = some w)
    (noArray : v.isArray = false) (noObject : v.isObject = false) : w = v := by
  rw [walkAt, normalizeWalk_leaf _ noArray noObject] at walked
  split_ifs at walked
  exact (Option.some.inj walked).symm

theorem isRedacted_walked {location : List String} {v w : Value} (walked : walkAt rules location v = some w) :
    isRedacted w = isRedacted v := by
  cases v with
  | array items =>
    obtain ⟨-, rfl⟩ := walkAt_array_eq_some_iff.1 walked
    rfl
  | object fields =>
    obtain ⟨-, rfl⟩ := walkAt_object_eq_some_iff.1 walked
    rfl
  | _ => rw [walked_of_leaf walked rfl rfl]

/-- A container equals nothing that is no container of its kind. -/
theorem beq_of_container {a b : Value} (shape : a.isArray = true ∨ a.isObject = true) (differ : ¬SameContainer a b) :
    a.beq b = false := by
  cases a <;> cases b <;> simp_all [SameContainer, Value.isArray, Value.isObject, Value.beq]

theorem beq_walked {location : List String} {a b na nb : Value} (left : walkAt rules location a = some na)
    (right : walkAt rules location b = some nb) (differ : ¬SameContainer a b) : na.beq nb = a.beq b := by
  have differToo : ¬SameContainer na nb := fun same => differ ((sameContainer_of_walked left right).1 same)
  by_cases shape : a.isArray = true ∨ a.isObject = true
  · rw [beq_of_container shape differ, beq_of_container _ differToo]
    rwa [(isArray_of_walked left).1, (isArray_of_walked left).2]
  · by_cases shapeToo : b.isArray = true ∨ b.isObject = true
    · rw [Value.beq_comm, Value.beq_comm a, beq_of_container shapeToo fun same => differ same.symm,
        beq_of_container _ fun same => differToo same.symm]
      rwa [(isArray_of_walked right).1, (isArray_of_walked right).2]
    · simp only [not_or, Bool.not_eq_true] at shape shapeToo
      rw [walked_of_leaf left shape.1 shape.2, walked_of_leaf right shapeToo.1 shapeToo.2]

/-- Values that are no containers of one kind are compared as a whole, and normalization leaves them so. -/
theorem agrees_walked_of_not_same {location : List String} {a b na nb : Value} (formed : a.wellFormed = true)
    (left : walkAt rules location a = some na) (right : walkAt rules location b = some nb)
    (differ : ¬SameContainer a b) : Agrees isRedacted na nb ↔ differences a b = [] := by
  have differToo : ¬SameContainer na nb := fun same => differ ((sameContainer_of_walked left right).1 same)
  rw [← compareValues_eq_nil_iff "" (normalizeWalk_wellFormed formed left) nb, compareValues_of_not_same differToo,
    differences_of_not_same differ, isRedacted_walked left, isRedacted_walked right, beq_walked left right differ]
  split_ifs <;> simp

/-- Under a token, what is left agrees when every difference comes to an ignored place. -/
theorem agrees_children_iff {location : List String} {token : String} {x y : Option Value}
    (inner : ∀ v ∈ x, ∀ w ∈ y,
      ∀ v' ∈ walkAt rules (location ++ [token]) v, ∀ w' ∈ walkAt rules (location ++ [token]) w,
        (Agrees isRedacted v' w' ↔
          ∀ difference ∈ differences v w, ComesToIgnored rules (location ++ [token]) difference.path)) :
    Option.Rel (Agrees isRedacted) (x.bind (walkAt rules (location ++ [token])))
        (y.bind (walkAt rules (location ++ [token]))) ↔
      ∀ difference ∈ childDifferences x y, ComesToIgnored rules (location ++ [token]) difference.path := by
  by_cases ignored : Pointer.text (location ++ [token]) ∈ rules.pointers
  · have gone (v : Option Value) : v.bind (walkAt rules (location ++ [token])) = none := by
      cases v with
      | none => rfl
      | some v => exact (walkAt_eq_none_iff v).2 ignored
    rw [gone, gone]
    exact iff_of_true .none fun difference _ => comesToIgnored_of_ignored ignored _
  · have stays (v : Value) : ∃ w, walkAt rules (location ++ [token]) v = some w :=
      Option.ne_none_iff_exists'.1 fun none => ignored ((walkAt_eq_none_iff v).1 none)
    cases x with
    | none =>
      cases y with
      | none => simp [childDifferences]
      | some w =>
        obtain ⟨w', walked⟩ := stays w
        simp [childDifferences, walked, not_comesToIgnored_nil ignored]
    | some v =>
      obtain ⟨v', walked⟩ := stays v
      cases y with
      | none => simp [childDifferences, walked, not_comesToIgnored_nil ignored]
      | some w =>
        obtain ⟨w', walkedToo⟩ := stays w
        rw [Option.bind_some, Option.bind_some, walked, walkedToo, Option.rel_some_some]
        exact inner v rfl w rfl v' walked w' walkedToo

/-- Ignoring makes values agree exactly when every difference between them comes to an ignored place. -/
theorem agrees_walked_iff (plain : rules.volatileKeys = []) {a b : Value} (formed : a.wellFormed = true)
    (other : b.wellFormed = true) {location : List String} {na nb : Value} (left : walkAt rules location a = some na)
    (right : walkAt rules location b = some nb) :
    Agrees isRedacted na nb ↔ ∀ difference ∈ differences a b, ComesToIgnored rules location difference.path := by
  have kept : Pointer.text location ∉ rules.pointers := fun ignored => by
    rw [(walkAt_eq_none_iff a).2 ignored] at left
    cases left
  induction a using Value.induction_on_child generalizing b location na nb with
  | step a ih =>
    by_cases same : SameContainer a b
    · rw [agrees_walked_container plain left right same]
      have below (token : String) : Option.Rel (Agrees isRedacted)
            ((a.child token).bind (walkAt rules (location ++ [token])))
            ((b.child token).bind (walkAt rules (location ++ [token]))) ↔
          ∀ difference ∈ childDifferences (a.child token) (b.child token),
            ComesToIgnored rules (location ++ [token]) difference.path := by
        refine agrees_children_iff fun v here w there v' walked w' walkedToo => ?_
        refine ih token v here (Value.wellFormed_child formed here) (Value.wellFormed_child other there) walked
          walkedToo fun ignored => ?_
        rw [(walkAt_eq_none_iff v).2 ignored] at walked
        cases walked
      simp only [below]
      constructor
      · intro covered difference member
        obtain ⟨token, child, found, rfl⟩ := (mem_differences_container formed other same).1 member
        exact (comesToIgnored_cons_iff kept token child.path).2 (covered token child found)
      · intro covered token child found
        exact (comesToIgnored_cons_iff kept token child.path).1
          (covered (child.below token) ((mem_differences_container formed other same).2 ⟨token, child, found, rfl⟩))
    · rw [agrees_walked_of_not_same formed left right same, differences_of_not_same same]
      split_ifs <;> simp [not_comesToIgnored_nil kept]

theorem normalized_agree_iff (plain : rules.volatileKeys = []) {a b : Value} (formed : a.wellFormed = true)
    (other : b.wellFormed = true) : compareValues "" (normalize rules a) (normalize rules b) = [] ↔
      ∀ difference ∈ differences a b, ComesToIgnored rules [] difference.path := by
  rw [compareValues_eq_nil_iff "" (normalize_wellFormed formed)]
  by_cases ignored : Pointer.text [] ∈ rules.pointers
  · rw [normalize_of_ignored ((walkAt_eq_none_iff a).2 ignored),
      normalize_of_ignored ((walkAt_eq_none_iff b).2 ignored)]
    exact iff_of_true (.refl _ _) fun difference _ => comesToIgnored_of_ignored ignored _
  · obtain ⟨na, left⟩ := Option.ne_none_iff_exists'.1 fun none => ignored ((walkAt_eq_none_iff a).1 none)
    obtain ⟨nb, right⟩ := Option.ne_none_iff_exists'.1 fun none => ignored ((walkAt_eq_none_iff b).1 none)
    rw [normalize_of_walked left, normalize_of_walked right]
    exact agrees_walked_iff plain formed other left right

end

/-! ## Differences from the first result -/

/-- At the location or above it there is a placeholder. -/
def HiddenAt (v : Value) (path : List String) : Prop :=
  ∃ front redacted, front <+: path ∧ v.resolve front = some redacted ∧ isRedacted redacted = true

/-- The values differ at the location or above it. -/
def ShownBy (baseline sample : Value) (path : List String) : Prop :=
  ∃ shown ∈ differences baseline sample, shown.path <+: path

section
variable {baseline a b : Value}

theorem HiddenAt.below {child : Value} {token : String} {path : List String} (found : baseline.child token = some child)
    (hidden : HiddenAt child path) : HiddenAt baseline (token :: path) := by
  obtain ⟨front, redacted, inside, resolved, placeholder⟩ := hidden
  exact ⟨token :: front, redacted, List.cons_prefix_cons.2 ⟨rfl, inside⟩, by simpa [found] using resolved, placeholder⟩

theorem shownBy_child (formed : baseline.wellFormed = true) (other : a.wellFormed = true)
    (same : SameContainer baseline a) {token : String} {path : List String} {shown : Difference}
    (found : shown ∈ childDifferences (baseline.child token) (a.child token)) (inside : shown.path <+: path) :
    ShownBy baseline a (token :: path) :=
  ⟨shown.below token, (mem_differences_container formed other same).2 ⟨token, shown, found, rfl⟩,
    List.cons_prefix_cons.2 ⟨rfl, inside⟩⟩

/-- Values that are unequal, and neither a placeholder nor containers of one kind, differ as a whole. -/
theorem shownBy_whole (differ : ¬SameContainer baseline a) (visible : isRedacted baseline = false)
    (visibleToo : isRedacted a = false) (unequal : baseline.beq a = false) (path : List String) :
    ShownBy baseline a path := by
  refine ⟨⟨[], some baseline, some a⟩, ?_, List.nil_prefix⟩
  rw [differences_of_not_same differ]
  simp [visible, visibleToo, unequal]

theorem isRedacted_of_container (shape : a.isArray = true ∨ a.isObject = true) : isRedacted a = false := by
  cases a <;> simp_all [isRedacted, Value.isArray, Value.isObject]

theorem SameContainer.container (same : SameContainer a b) : a.isArray = true ∨ a.isObject = true :=
  same.imp And.left And.left

theorem SameContainer.trans (same : SameContainer baseline a) (also : SameContainer a b) :
    SameContainer baseline b := by
  rcases also with ⟨left, right⟩ | ⟨left, right⟩
  · exact .inl ⟨same.isArray left, right⟩
  · exact .inr ⟨same.isObject left, right⟩

theorem number_beq_of_common {n left right : Number} (same : n.beq left = true) (also : n.beq right = true) :
    left.beq right = true := by
  cases n with
  | posInt n => cases left <;> cases right <;> simp_all [Number.beq]
  | negInt n => cases left <;> cases right <;> simp_all [Number.beq]
  | float x =>
    cases left with
    | float y =>
      cases right with
      | float z =>
        simp only [Number.beq, F64.beq, Bool.or_eq_true, Bool.and_eq_true, beq_iff_eq] at same also ⊢
        -- Doubles are equal when their bits are, or when both are a zero.
        rcases same with bits | ⟨zero, zeroLeft⟩
        · rcases also with bitsToo | ⟨zero, zeroRight⟩
          · exact .inl (bits.symm.trans bitsToo)
          · refine .inr ⟨?_, zeroRight⟩
            rwa [F64.isZero, ← bits]
        · rcases also with bits | ⟨-, zeroRight⟩
          · refine .inr ⟨zeroLeft, ?_⟩
            rwa [F64.isZero, ← bits]
          · exact .inr ⟨zeroLeft, zeroRight⟩
      | _ => cases also
    | _ => cases same

/-- Values that equal a third one, which is no container, are equal. -/
theorem beq_of_common {v : Value} (noArray : v.isArray = false) (noObject : v.isObject = false) (left : v.beq a = true)
    (right : v.beq b = true) : a.beq b = true := by
  cases v with
  | array items => cases noArray
  | object fields => cases noObject
  | number n =>
    cases a with
    | number m =>
      cases b with
      | number k => exact number_beq_of_common left right
      | _ => cases right
    | _ => cases left
  | _ => cases a <;> cases b <;> simp_all [Value.beq]

/-- What equals a value, but is no container of its kind, is no container. -/
theorem shape_of_beq (same : baseline.beq a = true) (differ : ¬SameContainer baseline a) :
    baseline.isArray = false ∧ baseline.isObject = false := by
  by_contra shape
  rw [not_and_or, Bool.not_eq_false, Bool.not_eq_false] at shape
  rw [beq_of_container shape differ] at same
  cases same

/-- A difference between two values that stand under a token shows against any third container. -/
theorem shown_of_child (formed : baseline.wellFormed = true) (leftFormed : a.wellFormed = true)
    (rightFormed : b.wellFormed = true) (left : SameContainer baseline a) (right : SameContainer baseline b)
    {token : String} {child : Difference} (found : child ∈ childDifferences (a.child token) (b.child token))
    (inner : ∀ v ∈ baseline.child token, ∀ x ∈ a.child token, ∀ y ∈ b.child token, child ∈ differences x y →
      ShownBy v x child.path ∨ ShownBy v y child.path ∨ HiddenAt v child.path) :
    ShownBy baseline a (token :: child.path) ∨ ShownBy baseline b (token :: child.path) ∨
      HiddenAt baseline (token :: child.path) := by
  have shownLeft (shown : Difference) : shown ∈ childDifferences (baseline.child token) (a.child token) →
      shown.path <+: child.path → ShownBy baseline a (token :: child.path) := shownBy_child formed leftFormed left
  have shownRight (shown : Difference) : shown ∈ childDifferences (baseline.child token) (b.child token) →
      shown.path <+: child.path → ShownBy baseline b (token :: child.path) := shownBy_child formed rightFormed right
  cases base : baseline.child token with
  | none =>
    -- What one of the two has there is new against the third.
    cases here : a.child token with
    | some x =>
      refine .inl (shownLeft ⟨[], none, some x⟩ ?_ List.nil_prefix)
      simp [base, here, childDifferences]
    | none =>
      cases there : b.child token with
      | some y =>
        refine .inr (.inl (shownRight ⟨[], none, some y⟩ ?_ List.nil_prefix))
        simp [base, there, childDifferences]
      | none => simp [here, there, childDifferences] at found
  | some v =>
    cases here : a.child token with
    | none =>
      refine .inl (shownLeft ⟨[], some v, none⟩ ?_ List.nil_prefix)
      simp [base, here, childDifferences]
    | some x =>
      cases there : b.child token with
      | none =>
        refine .inr (.inl (shownRight ⟨[], some v, none⟩ ?_ List.nil_prefix))
        simp [base, there, childDifferences]
      | some y =>
        rw [here, there] at found
        rcases inner v base x here y there found with ⟨shown, member, inside⟩ | ⟨shown, member, inside⟩ | hidden
        · exact .inl (shownLeft shown (by simpa [base, here, childDifferences] using member) inside)
        · exact .inr (.inl (shownRight shown (by simpa [base, there, childDifferences] using member) inside))
        · exact .inr (.inr (hidden.below base))

/-- A difference between two values shows against any third that is not hidden there. -/
theorem shown_or_hidden (formed : baseline.wellFormed = true) (leftFormed : a.wellFormed = true)
    (rightFormed : b.wellFormed = true) {difference : Difference} (member : difference ∈ differences a b) :
    ShownBy baseline a difference.path ∨ ShownBy baseline b difference.path ∨ HiddenAt baseline difference.path := by
  induction baseline using Value.induction_on_child generalizing a b difference with
  | step baseline ih =>
    cases visible : isRedacted baseline with
    | true => exact .inr (.inr ⟨[], baseline, List.nil_prefix, rfl, visible⟩)
    | false =>
      by_cases same : SameContainer a b
      · have leftVisible := isRedacted_of_container same.container
        have rightVisible := isRedacted_of_container same.symm.container
        by_cases left : SameContainer baseline a
        · obtain ⟨token, child, found, rfl⟩ := (mem_differences_container leftFormed rightFormed same).1 member
          refine shown_of_child formed leftFormed rightFormed left (left.trans same) found
            fun v base x here y there inside => ?_
          exact ih token v base (Value.wellFormed_child formed base) (Value.wellFormed_child leftFormed here)
            (Value.wellFormed_child rightFormed there) inside
        · refine .inl (shownBy_whole left visible leftVisible ?_ _)
          rw [Value.beq_comm]
          exact beq_of_container same.container fun other => left other.symm
      · rw [differences_of_not_same same] at member
        split_ifs at member with hidden equal
        · cases member
        · cases member
        · simp only [Bool.or_eq_true, not_or, Bool.not_eq_true] at hidden
          rw [Bool.not_eq_true] at equal
          by_cases left : SameContainer baseline a
          · have right : ¬SameContainer baseline b := fun other => same (left.symm.trans other)
            exact .inr (.inl (shownBy_whole right visible hidden.2 (beq_of_container left.container right) _))
          · by_cases right : SameContainer baseline b
            · exact .inl (shownBy_whole left visible hidden.1 (beq_of_container right.container left) _)
            · cases against : baseline.beq a with
              | false => exact .inl (shownBy_whole left visible hidden.1 against _)
              | true =>
                refine .inr (.inl (shownBy_whole right visible hidden.2 ?_ _))
                rw [← Bool.not_eq_true]
                intro equalToo
                have leaf := shape_of_beq against left
                exact absurd (beq_of_common leaf.1 leaf.2 against equalToo) (by simp [equal])

end

/-! ## The option -/

/-- The values of a comma-separated option. -/
def splitCommas (argument : String) : List String := (argument.toList.splitOnP (· == ',')).map String.ofList

/-- What a suggested command passes to the option. -/
def ignoreArgument (command : String) : String :=
  String.ofList (command.toList.drop ignoreInvocation.toList.length)

/-- The rules of a comparison with the suggested option and without volatile keys. -/
def suggestedRules (command : String) : IgnoreRules := ⟨splitCommas (ignoreArgument command), []⟩

theorem ignoreArgument_ignoreCommand (pointers : List String) :
    ignoreArgument (ignoreCommand pointers) = ",".intercalate pointers := by
  rw [ignoreArgument, ignoreCommand, String.toList_append, List.drop_left, String.ofList_toList]

theorem splitCommas_of_plain {pointer : String} (plain : ',' ∉ pointer.toList) : splitCommas pointer = [pointer] := by
  have single : ∀ c ∈ pointer.toList, (c == ',') = false := fun c member => by
    rw [beq_eq_false_iff_ne]
    rintro rfl
    exact plain member
  rw [splitCommas, List.splitOnP_eq_singleton single, List.map_singleton, String.ofList_toList]

/-- Joined pointers are split into the pieces of each. -/
theorem splitCommas_intercalate {pointers : List String} (filled : pointers ≠ []) :
    splitCommas (",".intercalate pointers) = pointers.flatMap splitCommas := by
  have split (texts : List (List Char)) (some : texts ≠ []) : ([','].intercalate texts).splitOnP (· == ',') =
      texts.flatMap (List.splitOnP (· == ',')) := by
    induction texts with
    | nil => exact absurd rfl some
    | cons text rest ih =>
      cases rest with
      | nil => simp
      | cons next rest =>
        rw [List.intercalate_cons_cons, List.append_assoc, List.singleton_append,
          List.splitOnP_append_cons _ _ (by rfl), ih (List.cons_ne_nil _ _), List.flatMap_cons (x := text)]
  rw [splitCommas, String.toList_intercalate, show ",".toList = [','] from rfl, split _ (by simpa using filled),
    List.flatMap_map, List.map_flatMap]
  rfl

/-! ## When the suggestion suffices -/

/-- The results of a tool whose calls succeeded, in the order of the sessions. -/
def okResults (codec : Codec) (histories : List SessionHistory) (tool : String) : List Value :=
  (Grouping.valuesOf tool (resultSamples codec histories)).map Prod.fst

/-- The location comes to a piece, between commas, of a pointer at which a later result differs from the first. -/
def Suggested (baseline : Value) (others : List Value) (path : List String) : Prop :=
  ∃ front, front <+: path ∧ ∃ sample ∈ others, ∃ difference ∈ differences baseline sample,
    Pointer.text front ∈ splitCommas (Pointer.text difference.path)

/-- A key with a comma takes its pointer apart, and a placeholder in the first result hides what the others differ in.
Where neither happens, or the pieces name the place all the same, the pointers suffice. -/
structure PointersSuffice (baseline : Value) (others : List Value) : Prop where
  commas : ∀ sample ∈ others, ∀ difference ∈ differences baseline sample,
    ',' ∈ (Pointer.text difference.path).toList → Suggested baseline others difference.path
  hidden : ∀ a ∈ baseline :: others, ∀ b ∈ baseline :: others, ∀ difference ∈ differences a b,
    HiddenAt baseline difference.path → Suggested baseline others difference.path

section
variable {baseline : Value} {others : List Value}

theorem Suggested.below {path inside : List String} (named : Suggested baseline others path) (below : path <+: inside) :
    Suggested baseline others inside := by
  obtain ⟨front, above, rest⟩ := named
  exact ⟨front, above.trans below, rest⟩

/-- A pointer without a comma is named as it is. -/
theorem PointersSuffice.named (suffice : PointersSuffice baseline others) {sample : Value} (member : sample ∈ others)
    {difference : Difference} (differs : difference ∈ differences baseline sample) :
    Suggested baseline others difference.path := by
  by_cases comma : ',' ∈ (Pointer.text difference.path).toList
  · exact suffice.commas sample member difference differs comma
  · refine ⟨_, List.prefix_refl _, sample, member, difference, differs, ?_⟩
    rw [splitCommas_of_plain comma]
    exact List.mem_singleton_self _

theorem differences_self (v : Value) (formed : v.wellFormed = true) : differences v v = [] := by
  have quiet := (compareValues_eq_nil_iff "" formed v).2 (.refl isRedacted v)
  rw [differences, quiet]
  rfl

theorem PointersSuffice.named_of_shown (suffice : PointersSuffice baseline others) (formed : baseline.wellFormed = true)
    {sample : Value} (member : sample ∈ baseline :: others) {path : List String}
    (shown : ShownBy baseline sample path) : Suggested baseline others path := by
  obtain ⟨difference, differs, inside⟩ := shown
  rcases List.mem_cons.1 member with rfl | later
  · rw [differences_self sample formed] at differs
    cases differs
  · exact (suffice.named later differs).below inside

/-- The suggested pointers name every difference between the results exactly when they suffice. -/
theorem pointersSuffice_iff (formed : ∀ v ∈ baseline :: others, v.wellFormed = true) :
    PointersSuffice baseline others ↔
      ∀ a ∈ baseline :: others, ∀ b ∈ baseline :: others, ∀ difference ∈ differences a b,
        Suggested baseline others difference.path := by
  constructor
  · intro suffice a left b right difference differs
    have first := formed baseline List.mem_cons_self
    rcases shown_or_hidden first (formed a left) (formed b right) differs with shown | shown | hidden
    · exact suffice.named_of_shown first left shown
    · exact suffice.named_of_shown first right shown
    · exact suffice.hidden a left b right difference differs hidden
  · intro every
    refine ⟨fun sample member difference differs _ => ?_, fun a left b right difference differs _ =>
      every a left b right difference differs⟩
    exact every baseline List.mem_cons_self sample (List.mem_cons_of_mem _ member) difference differs

end

section
variable {codec : Codec} {histories : List SessionHistory} {tool : String}

theorem wellFormed_okResults {v : Value} (member : v ∈ okResults codec histories tool) : v.wellFormed = true := by
  obtain ⟨entry, listed, rfl⟩ := List.mem_map.1 member
  have sampled := Grouping.mem_valuesOf.1 listed
  obtain ⟨history, -, sampled⟩ := List.mem_flatMap.1 sampled
  obtain ⟨exchange, -, sampled⟩ := List.mem_filterMap.1 sampled
  split_ifs at sampled with other
  obtain ⟨name, -, sampled⟩ := Option.bind_eq_some_iff.1 sampled
  obtain ⟨result, answered, sampled⟩ := Option.bind_eq_some_iff.1 sampled
  obtain ⟨payload, response, found⟩ := Option.bind_eq_some_iff.1 answered
  obtain ⟨seq, -, stored⟩ := Option.bind_eq_some_iff.1 response
  obtain ⟨-, rfl, -⟩ : name = tool ∧ result = entry.1 ∧ history.sessionId = entry.2 := by
    simpa [Prod.ext_iff] using sampled
  exact Value.wellFormed_get (payloadsBySeq_wellFormed codec history.messages seq payload stored) found

/-- The suggestion is the pointers at which the later results differ from the first. -/
theorem ignoreSuggestion_eq_some {entries : List (Value × String)} {suggestion : Suggestion}
    (made : ignoreSuggestion tool entries = some suggestion) : ∃ first others, entries = first :: others ∧
      varyingPointers first.1 others ≠ [] ∧ suggestion.command = ignoreCommand (varyingPointers first.1 others) := by
  cases entries with
  | nil => cases made
  | cons first others =>
    rw [ignoreSuggestion] at made
    split_ifs at made with few
    obtain rfl := Option.some.inj made
    exact ⟨first, others, rfl, fun none => few (.inr none), rfl⟩

theorem mem_suggestedRules {baseline : Value} {others : List (Value × String)}
    (filled : varyingPointers baseline others ≠ []) {pointer : String} :
    pointer ∈ (suggestedRules (ignoreCommand (varyingPointers baseline others))).pointers ↔
      ∃ sample ∈ others.map Prod.fst, ∃ diff ∈ compareValues "" baseline sample,
        pointer ∈ splitCommas diff.pointer := by
  rw [suggestedRules, ignoreArgument_ignoreCommand, splitCommas_intercalate filled]
  simp only [List.mem_flatMap, varyingPointers, SortedSet.mem_ofList, List.mem_map]
  constructor
  · rintro ⟨_, ⟨entry, member, diff, differs, rfl⟩, piece⟩
    exact ⟨entry.1, ⟨entry, member, rfl⟩, diff, differs, piece⟩
  · rintro ⟨_, ⟨entry, member, rfl⟩, diff, differs, piece⟩
    exact ⟨diff.pointer, ⟨entry, member, diff, differs, rfl⟩, piece⟩

theorem comesToIgnored_suggested_iff {baseline : Value} {others : List (Value × String)}
    (formed : baseline.wellFormed = true) (othersFormed : ∀ v ∈ others.map Prod.fst, v.wellFormed = true)
    (filled : varyingPointers baseline others ≠ []) (path : List String) :
    ComesToIgnored (suggestedRules (ignoreCommand (varyingPointers baseline others))) [] path ↔
      Suggested baseline (others.map Prod.fst) path := by
  simp only [ComesToIgnored, Suggested, mem_suggestedRules filled, List.nil_append]
  refine exists_congr fun front => and_congr_right fun _ => exists_congr fun sample => and_congr_right fun member => ?_
  rw [compareValues_root formed (othersFormed sample member)]
  simp [Difference.report]

end

/-- The suggested pointers make any two results of the tool agree exactly when no comma and no placeholder of the first
result takes a difference from them. -/
theorem ignore_suggestion_suffices_iff (codec : Codec) (histories : List SessionHistory) {tool : String}
    {suggestion : Suggestion}
    (emitted : (tool, suggestion) ∈ perTool ignoreSuggestion (resultSamples codec histories)) :
    (∀ a ∈ okResults codec histories tool, ∀ b ∈ okResults codec histories tool,
      compareValues "" (normalize (suggestedRules suggestion.command) a)
        (normalize (suggestedRules suggestion.command) b) = []) ↔
    ∀ baseline others, okResults codec histories tool = baseline :: others → PointersSuffice baseline others := by
  obtain ⟨-, made⟩ := mem_perTool.1 emitted
  obtain ⟨first, others, entries, filled, command⟩ := ignoreSuggestion_eq_some made
  have results : okResults codec histories tool = first.1 :: others.map Prod.fst := by
    rw [okResults, entries, List.map_cons]
  have formed : ∀ v ∈ first.1 :: others.map Prod.fst, v.wellFormed = true := fun v member =>
    wellFormed_okResults (results ▸ member)
  have named := comesToIgnored_suggested_iff (formed first.1 List.mem_cons_self)
    (fun v member => formed v (List.mem_cons_of_mem _ member)) filled
  have single : (∀ baseline others, okResults codec histories tool = baseline :: others →
      PointersSuffice baseline others) ↔ PointersSuffice first.1 (others.map Prod.fst) := by
    rw [results]
    constructor
    · exact fun every => every _ _ rfl
    · intro suffice baseline later same
      obtain ⟨rfl, rfl⟩ := List.cons.inj same
      exact suffice
  rw [single, pointersSuffice_iff formed, results, command]
  refine forall₂_congr fun a left => forall₂_congr fun b right => ?_
  rw [normalized_agree_iff rfl (formed a left) (formed b right)]
  simp only [named]

/-- Two sessions in which a tool answers with another number under a key with a comma. -/
def commaHistories : List SessionHistory :=
  [⟨"1", echoed [("a,b", .number (.posInt 1))]⟩, ⟨"2", echoed [("a,b", .number (.posInt 2))]⟩]

def commaSuggestion : Suggestion where
  kind := .ignorePointer
  description := "tool `echo`: response varies at 1 pointer(s) across 2 call(s) with otherwise stable structure"
  command := "mcptracer diff <a> <b> --ignore /a,b"
  confidence := 1 / 2
  provenance := ["2"]

theorem commaSuggestion_emitted :
    (("echo", commaSuggestion) ∈ perTool ignoreSuggestion (resultSamples Compact.codec commaHistories)) := by
  decide +kernel

theorem ignore_suggestion_suffices_commaHistories :
    (∀ a ∈ okResults Compact.codec commaHistories "echo", ∀ b ∈ okResults Compact.codec commaHistories "echo",
      compareValues "" (normalize (suggestedRules commaSuggestion.command) a)
        (normalize (suggestedRules commaSuggestion.command) b) = []) ↔
    ∀ baseline others, okResults Compact.codec commaHistories "echo" = baseline :: others →
      PointersSuffice baseline others :=
  ignore_suggestion_suffices_iff Compact.codec commaHistories commaSuggestion_emitted

theorem ignore_suggestion_split : ¬ ∀ (codec : Codec) (histories : List SessionHistory) (tool : String)
    (suggestion : Suggestion), (tool, suggestion) ∈ perTool ignoreSuggestion (resultSamples codec histories) →
      ∀ a ∈ okResults codec histories tool, ∀ b ∈ okResults codec histories tool,
        compareValues "" (normalize (suggestedRules suggestion.command) a)
          (normalize (suggestedRules suggestion.command) b) = [] := by
  intro every
  have results : okResults Compact.codec commaHistories "echo" =
      [.object [("a,b", .number (.posInt 1))], .object [("a,b", .number (.posInt 2))]] := by decide +kernel
  have agree := every Compact.codec commaHistories "echo" commaSuggestion commaSuggestion_emitted
  rw [results] at agree
  exact absurd (agree _ List.mem_cons_self _ (List.mem_cons_of_mem _ List.mem_cons_self)) (by decide +kernel)

/-- The first result is redacted where the others differ. -/
example : (varyingPointers (.object [("a", .string redactedPlaceholder), ("b", .bool true)])
    [(.object [("a", .null), ("b", .bool false)], "2"),
      (.object [("a", .bool true), ("b", .bool true)], "3")]) = ["/b"] := by
  decide +kernel

end McpTracer.Model
