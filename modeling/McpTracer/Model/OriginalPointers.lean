import McpTracer.Model.PointerDiffs

/-! Reported pointers and the bodies before normalization.

Normalization keeps every member under its key, but it closes up an array from which it takes elements.
A pointer that passes no array behind a taken element leads to the same place before and after.
-/

set_option autoImplicit false

namespace McpTracer.Model
open McpTracer.Foundation McpTracer.Json McpTracer.Redact

/-! ## Children of normalized values -/

section
variable {rules : IgnoreRules}

theorem isArray_of_walked {pointer : String} {v w : Value} (walked : normalizeWalk rules pointer v = some w) :
    w.isArray = v.isArray ∧ w.isObject = v.isObject := by
  cases v with
  | array items =>
    rw [normalizeWalk] at walked
    split_ifs at walked
    obtain rfl := Option.some.inj walked
    exact ⟨rfl, rfl⟩
  | object fields =>
    rw [normalizeWalk] at walked
    split_ifs at walked
    obtain rfl := Option.some.inj walked
    exact ⟨rfl, rfl⟩
  | _ =>
    rw [normalizeWalk_leaf pointer rfl rfl] at walked
    split_ifs at walked
    obtain rfl := Option.some.inj walked
    exact ⟨rfl, rfl⟩

/-- Up to an element that is taken out, every element keeps its index. -/
theorem getElem?_normalizeItems {pointer : String} {index j : Nat} {items : List Value}
    (kept : ∀ earlier ≤ j, rules.pointers.contains (childPointer pointer (toString (index + earlier))) = false) :
    (normalizeItems rules pointer index items)[j]? =
      items[j]?.bind (normalizeWalk rules (childPointer pointer (toString (index + j)))) := by
  induction items generalizing index j with
  | nil => simp [normalizeItems]
  | cons item rest ih =>
    have first := kept 0 (Nat.zero_le j)
    rw [normalizeItems]
    cases walked : normalizeWalk rules (childPointer pointer (toString index)) item with
    | none =>
      rw [normalizeWalk_eq_none_iff] at walked
      rw [Nat.add_zero, walked] at first
      cases first
    | some w =>
      cases j with
      | zero => simpa using walked.symm
      | succ j =>
        have position (n : Nat) : index + 1 + n = index + (n + 1) := by omega
        rw [List.getElem?_cons_succ, List.getElem?_cons_succ, ih fun earlier below => by
          rw [position]
          exact kept (earlier + 1) (Nat.succ_le_succ below), position]

/-- In an array, no element up to the one under the token is taken out. -/
def KeepsPlace (rules : IgnoreRules) (location : List String) (token : String) (v : Value) : Prop :=
  v.isArray = true → ∀ index, Pointer.arrayIndex token = some index → ∀ earlier ≤ index,
    Pointer.text (location ++ [toString earlier]) ∉ rules.pointers

/-- What normalization leaves at a location. -/
def walkAt (rules : IgnoreRules) (location : List String) (v : Value) : Option Value :=
  normalizeWalk rules (Pointer.text location) v

theorem walkAt_array_eq_some_iff {location : List String} {items : List Value} {w : Value} :
    walkAt rules location (.array items) = some w ↔ Pointer.text location ∉ rules.pointers ∧
      w = .array (normalizeItems rules (Pointer.text location) 0 items) := by
  rw [walkAt, normalizeWalk]
  split_ifs with ignored
  · rw [List.contains_iff_mem] at ignored
    simp [ignored]
  · rw [List.contains_iff_mem] at ignored
    simp [ignored, eq_comm]

theorem walkAt_object_eq_some_iff {location : List String} {fields : List (String × Value)} {w : Value} :
    walkAt rules location (.object fields) = some w ↔ Pointer.text location ∉ rules.pointers ∧
      w = .object (normalizeFields rules (Pointer.text location) fields) := by
  rw [walkAt, normalizeWalk]
  split_ifs with ignored
  · rw [List.contains_iff_mem] at ignored
    simp [ignored]
  · rw [List.contains_iff_mem] at ignored
    simp [ignored, eq_comm]

theorem childPointer_toString (location : List String) (index : Nat) :
    childPointer (Pointer.text location) (toString index) = Pointer.text (location ++ [toString index]) := by
  rw [← childPointer_text, escapePointerToken_eq, Pointer.escape_toString, String.ofList_toList]

theorem child_walked_array {location : List String} {items : List Value} {w : Value}
    (walked : walkAt rules location (.array items) = some w) {token : String}
    (place : KeepsPlace rules location token (.array items)) :
    w.child token = ((Value.array items).child token).bind (walkAt rules (location ++ [token])) := by
  obtain ⟨-, rfl⟩ := walkAt_array_eq_some_iff.1 walked
  cases read : Pointer.arrayIndex token with
  | none => simp [Value.child, read]
  | some index =>
    obtain rfl := Pointer.toString_of_arrayIndex read
    rw [Value.child_array_toString, Value.child_array_toString, getElem?_normalizeItems, Nat.zero_add,
      childPointer_toString]
    · rfl
    · intro earlier below
      rw [Nat.zero_add, childPointer_toString]
      simpa using place rfl index read earlier below

theorem child_walked_object {location : List String} {fields : List (String × Value)} {w : Value}
    (walked : walkAt rules location (.object fields) = some w) (token : String) :
    w.child token = if isVolatileKey token rules then none
      else ((Value.object fields).child token).bind (walkAt rules (location ++ [token])) := by
  obtain ⟨-, rfl⟩ := walkAt_object_eq_some_iff.1 walked
  rw [Value.child_object, Value.child_object, lookup_normalizeFields, childPointer_text]
  rfl

/-- A token that is not hidden leads to what normalization leaves there. -/
theorem child_walked {location : List String} {v w : Value} (walked : walkAt rules location v = some w) {token : String}
    (place : KeepsPlace rules location token v) (visible : v.isObject = true → isVolatileKey token rules = false) :
    w.child token = (v.child token).bind (walkAt rules (location ++ [token])) := by
  cases v with
  | array items => exact child_walked_array walked place
  | object fields => rw [child_walked_object walked, if_neg (by simp [visible rfl])]
  | _ =>
    rw [walkAt, normalizeWalk_leaf _ rfl rfl] at walked
    split_ifs at walked
    obtain rfl := Option.some.inj walked
    rfl

theorem visible_of_child {location : List String} {v w x : Value} (walked : walkAt rules location v = some w)
    {token : String} (found : w.child token = some x) (shape : v.isObject = true) : isVolatileKey token rules = false := by
  cases v with
  | object fields =>
    rw [child_walked_object walked] at found
    split_ifs at found with volatile
    simpa using volatile
  | _ => cases shape

/-! ## Differences of normalized values -/

/-- The location passes no array behind an element that is taken out. -/
def Undisturbed (rules : IgnoreRules) (location path : List String) (v : Value) : Prop :=
  ∀ front token back parent, path = front ++ token :: back → v.resolve front = some parent →
    KeepsPlace rules (location ++ front) token parent

theorem Undisturbed.place {location : List String} {token : String} {rest : List String} {v : Value}
    (undisturbed : Undisturbed rules location (token :: rest) v) : KeepsPlace rules location token v := by
  simpa using undisturbed [] token rest v rfl rfl

theorem Undisturbed.child {location : List String} {token : String} {rest : List String} {v child : Value}
    (undisturbed : Undisturbed rules location (token :: rest) v) (found : v.child token = some child) :
    Undisturbed rules (location ++ [token]) rest child := by
  intro front next back parent path inside
  have place := undisturbed (token :: front) next back parent (by rw [path, List.cons_append]) (by simpa [found] using inside)
  rwa [List.append_cons] at place

/-- The difference reports what normalization leaves at its location on either side. -/
def Reports (rules : IgnoreRules) (location : List String) (a b : Option Value) (difference : Difference) : Prop :=
  (a.bind (Value.resolve difference.path)).bind (walkAt rules (location ++ difference.path)) = difference.fromValue ∧
    (b.bind (Value.resolve difference.path)).bind (walkAt rules (location ++ difference.path)) = difference.toValue

theorem reports_root (location : List String) (a b : Option Value) :
    Reports rules location a b ⟨[], a.bind (walkAt rules location), b.bind (walkAt rules location)⟩ := by
  simp [Reports]

theorem Reports.below {location : List String} {token : String} {a b : Value} {difference : Difference}
    (reports : Reports rules (location ++ [token]) (a.child token) (b.child token) difference) :
    Reports rules location (some a) (some b) (difference.below token) := by
  simpa [Reports, Difference.below] using reports

theorem childDifferences_walked {location : List String} {x y : Option Value} {difference : Difference}
    (inner : ∀ v ∈ x, ∀ w ∈ y, ∀ v' ∈ walkAt rules location v, ∀ w' ∈ walkAt rules location w,
      difference ∈ differences v' w' → Reports rules location (some v) (some w) difference)
    (member : difference ∈ childDifferences (x.bind (walkAt rules location)) (y.bind (walkAt rules location))) :
    Reports rules location x y difference := by
  have root : Reports rules location x y _ := reports_root location x y
  cases left : x.bind (walkAt rules location) with
  | none =>
    cases right : y.bind (walkAt rules location) with
    | none => simp [left, right, childDifferences] at member
    | some w' =>
      obtain rfl : difference = ⟨[], none, some w'⟩ := by simpa [left, right, childDifferences] using member
      rwa [left, right] at root
  | some v' =>
    obtain ⟨v, rfl, walkedLeft⟩ := Option.bind_eq_some_iff.1 left
    cases right : y.bind (walkAt rules location) with
    | none =>
      obtain rfl : difference = ⟨[], some v', none⟩ := by simpa [left, right, childDifferences] using member
      rwa [left, right] at root
    | some w' =>
      obtain ⟨w, rfl, walkedRight⟩ := Option.bind_eq_some_iff.1 right
      rw [left, right] at member
      exact inner v rfl w rfl v' walkedLeft w' walkedRight member

theorem sameContainer_of_walked {location : List String} {a b na nb : Value} (left : walkAt rules location a = some na)
    (right : walkAt rules location b = some nb) : SameContainer na nb ↔ SameContainer a b := by
  rw [SameContainer, SameContainer, (isArray_of_walked left).1, (isArray_of_walked left).2, (isArray_of_walked right).1,
    (isArray_of_walked right).2]

theorem SameContainer.isObject {a b : Value} (same : SameContainer a b) (shape : b.isObject = true) :
    a.isObject = true := by
  rcases same with ⟨-, right⟩ | ⟨left, -⟩
  · cases b <;> simp_all [Value.isArray, Value.isObject]
  · exact left

theorem SameContainer.isArray {a b : Value} (same : SameContainer a b) (shape : b.isArray = true) : a.isArray = true := by
  rcases same with ⟨left, -⟩ | ⟨-, right⟩
  · exact left
  · cases b <;> simp_all [Value.isArray, Value.isObject]

/-- In arrays the same elements are taken out on both sides. -/
theorem KeepsPlace.other {location : List String} {token : String} {a b : Value} (place : KeepsPlace rules location token a)
    (same : SameContainer a b) : KeepsPlace rules location token b := fun shape => place (same.isArray shape)

theorem present_of_mem_childDifferences {x y : Option Value} {difference : Difference}
    (found : difference ∈ childDifferences x y) : x.isSome = true ∨ y.isSome = true := by
  cases x <;> cases y <;> simp_all [childDifferences]

/-- Nothing is left under a volatile key. -/
theorem visible_of_present {location : List String} {a b na nb : Value} (left : walkAt rules location a = some na)
    (right : walkAt rules location b = some nb) (same : SameContainer a b) {token : String}
    (present : (na.child token).isSome = true ∨ (nb.child token).isSome = true) (shape : a.isObject = true) :
    isVolatileKey token rules = false := by
  rcases present with present | present
  · obtain ⟨x, found⟩ := Option.isSome_iff_exists.1 present
    exact visible_of_child left found shape
  · obtain ⟨y, found⟩ := Option.isSome_iff_exists.1 present
    exact visible_of_child right found (same.symm.isObject shape)

theorem differences_walked {a b : Value} (formed : a.wellFormed = true) (other : b.wellFormed = true)
    {location : List String} {na nb : Value} (left : walkAt rules location a = some na)
    (right : walkAt rules location b = some nb) {difference : Difference} (member : difference ∈ differences na nb)
    (undisturbed : Undisturbed rules location difference.path a) :
    Reports rules location (some a) (some b) difference := by
  induction a using Value.induction_on_child generalizing b location na nb difference with
  | step a ih =>
    have formedLeft := normalizeWalk_wellFormed formed left
    have formedRight := normalizeWalk_wellFormed other right
    by_cases same : SameContainer na nb
    · obtain ⟨token, child, found, rfl⟩ := (mem_differences_container formedLeft formedRight same).1 member
      have place : KeepsPlace rules location token a := undisturbed.place
      have both := (sameContainer_of_walked left right).1 same
      have visible : a.isObject = true → isVolatileKey token rules = false :=
        visible_of_present left right both (present_of_mem_childDifferences found)
      have visibleToo : b.isObject = true → isVolatileKey token rules = false :=
        fun shape => visible (both.isObject shape)
      rw [child_walked left place visible, child_walked right (place.other both) visibleToo] at found
      refine Reports.below (childDifferences_walked (fun v here w there v' walkedLeft w' walkedRight within => ?_) found)
      exact ih token v here (Value.wellFormed_child formed here) (Value.wellFormed_child other there) walkedLeft
        walkedRight within (undisturbed.child here)
    · rw [differences_of_not_same same] at member
      split_ifs at member
      · cases member
      · cases member
      · obtain rfl := List.mem_singleton.1 member
        simpa [Reports] using ⟨left, right⟩

/-! ## Response bodies -/

/-- The result waits for input, so its request state is opaque. -/
def isInputRequired (rules : IgnoreRules) (body : Value) : Bool :=
  ((normalize rules body).get "resultType").bind Value.asStr = some "input_required"

/-- What is compared of a body at a location. -/
def bodyAt (rules : IgnoreRules) (body : Value) : List String → Option Value
  | [] => some (normalizeResponse rules body)
  | token :: rest =>
    if isInputRequired rules body && token = "requestState" then none
    else (body.resolve (token :: rest)).bind (walkAt rules (token :: rest))

theorem normalizeResponse_eq (rules : IgnoreRules) (body : Value) : normalizeResponse rules body =
    if isInputRequired rules body then (normalize rules body).remove "requestState" else normalize rules body := by
  rw [normalizeResponse, isInputRequired]
  by_cases waits : ((normalize rules body).get "resultType").bind Value.asStr = some "input_required"
  · rw [if_pos waits, if_pos (decide_eq_true waits)]
    cases normalize rules body <;> rfl
  · rw [if_neg waits, if_neg (by simpa using waits)]

theorem normalize_of_walked {body w : Value} (walked : walkAt rules [] body = some w) : normalize rules body = w := by
  rw [normalize, show normalizeWalk rules "" body = some w from walked, Option.getD_some]

theorem normalize_of_ignored {body : Value} (ignored : walkAt rules [] body = none) : normalize rules body = .null := by
  rw [normalize, show normalizeWalk rules "" body = none from ignored, Option.getD_none]

theorem normalizeResponse_of_ignored {body : Value} (ignored : walkAt rules [] body = none) :
    normalizeResponse rules body = .null := by
  rw [normalizeResponse_eq, normalize_of_ignored ignored]
  split_ifs <;> rfl

theorem shape_normalizeResponse {body w : Value} (walked : walkAt rules [] body = some w) :
    (normalizeResponse rules body).isArray = body.isArray ∧ (normalizeResponse rules body).isObject = body.isObject := by
  rw [normalizeResponse_eq, normalize_of_walked walked, ← (isArray_of_walked walked).1, ← (isArray_of_walked walked).2]
  split_ifs
  · exact ⟨by cases w <;> rfl, Value.isObject_remove w⟩
  · exact ⟨rfl, rfl⟩

theorem child_normalizeResponse {body w : Value} (walked : walkAt rules [] body = some w) (token : String) :
    (normalizeResponse rules body).child token =
      if isInputRequired rules body && token = "requestState" then none else w.child token := by
  rw [normalizeResponse_eq, normalize_of_walked walked]
  cases waits : isInputRequired rules body with
  | false => simp
  | true =>
    have shape : w.isObject = true := by
      rw [isInputRequired, normalize_of_walked walked, decide_eq_true_eq] at waits
      obtain ⟨v, found, -⟩ := Option.bind_eq_some_iff.1 waits
      exact Value.isObject_of_get found
    cases w with
    | object fields =>
      have removed := Value.get_remove "requestState" token (.object fields)
      simpa [Value.remove, Value.get] using removed
    | _ => cases shape

theorem walked_of_sameContainer {a b : Value}
    (same : SameContainer (normalizeResponse rules a) (normalizeResponse rules b)) :
    ∃ na nb, walkAt rules [] a = some na ∧ walkAt rules [] b = some nb ∧ SameContainer a b := by
  cases left : walkAt rules [] a with
  | none =>
    rw [normalizeResponse_of_ignored left] at same
    rcases same with ⟨impossible, -⟩ | ⟨impossible, -⟩ <;> cases impossible
  | some na =>
    cases right : walkAt rules [] b with
    | none =>
      rw [normalizeResponse_of_ignored right] at same
      rcases same with ⟨-, impossible⟩ | ⟨-, impossible⟩ <;> cases impossible
    | some nb =>
      rw [SameContainer, (shape_normalizeResponse left).1, (shape_normalizeResponse left).2,
        (shape_normalizeResponse right).1, (shape_normalizeResponse right).2] at same
      exact ⟨na, nb, rfl, rfl, same⟩

/-- The member of a body that is compared, as it was recorded; an opaque request state is not. -/
def comparedMember (rules : IgnoreRules) (body : Value) (token : String) : Option Value :=
  if isInputRequired rules body && token = "requestState" then none else body.child token

theorem bodyAt_cons (rules : IgnoreRules) (body : Value) (token : String) (rest : List String) :
    bodyAt rules body (token :: rest) =
      ((comparedMember rules body token).bind (Value.resolve rest)).bind (walkAt rules (token :: rest)) := by
  rw [bodyAt, comparedMember]
  split_ifs <;> rfl

theorem comparedMember_eq_some {body v : Value} {token : String} (found : comparedMember rules body token = some v) :
    body.child token = some v := by
  rw [comparedMember] at found
  split_ifs at found
  exact found

theorem present_of_normalizeResponse {body w : Value} (walked : walkAt rules [] body = some w) {token : String}
    (present : ((normalizeResponse rules body).child token).isSome = true) : (w.child token).isSome = true := by
  rw [child_normalizeResponse walked] at present
  split_ifs at present
  · cases present
  · exact present

theorem child_response_walked {body w : Value} (walked : walkAt rules [] body = some w) {token : String}
    (place : KeepsPlace rules [] token body) (visible : body.isObject = true → isVolatileKey token rules = false) :
    (normalizeResponse rules body).child token = (comparedMember rules body token).bind (walkAt rules [token]) := by
  rw [child_normalizeResponse walked, child_walked walked place visible, comparedMember]
  split_ifs <;> rfl

/-- A reported pointer that passes no array behind a taken element leads to what is compared there. -/
theorem differences_response {a b : Value} (formed : a.wellFormed = true) (other : b.wellFormed = true)
    {difference : Difference} (member : difference ∈ differences (normalizeResponse rules a) (normalizeResponse rules b))
    (undisturbed : Undisturbed rules [] difference.path a) :
    bodyAt rules a difference.path = difference.fromValue ∧ bodyAt rules b difference.path = difference.toValue := by
  have formedLeft : (normalizeResponse rules a).wellFormed = true := normalizeResponse_wellFormed formed
  have formedRight : (normalizeResponse rules b).wellFormed = true := normalizeResponse_wellFormed other
  by_cases same : SameContainer (normalizeResponse rules a) (normalizeResponse rules b)
  · obtain ⟨token, child, found, rfl⟩ := (mem_differences_container formedLeft formedRight same).1 member
    obtain ⟨na, nb, left, right, both⟩ := walked_of_sameContainer same
    have place : KeepsPlace rules [] token a := undisturbed.place
    have present := (present_of_mem_childDifferences found).imp (present_of_normalizeResponse left)
      (present_of_normalizeResponse right)
    have visible : a.isObject = true → isVolatileKey token rules = false := visible_of_present left right both present
    have visibleToo : b.isObject = true → isVolatileKey token rules = false := fun shape => visible (both.isObject shape)
    rw [child_response_walked left place visible, child_response_walked right (place.other both) visibleToo] at found
    rw [Difference.below, bodyAt_cons, bodyAt_cons]
    refine childDifferences_walked (fun v here w there v' walkedLeft w' walkedRight within => ?_) found
    have inside := comparedMember_eq_some here
    exact differences_walked (Value.wellFormed_child formed inside)
      (Value.wellFormed_child other (comparedMember_eq_some there)) walkedLeft walkedRight within (undisturbed.child inside)
  · rw [differences_of_not_same same] at member
    split_ifs at member
    · cases member
    · cases member
    · obtain rfl := List.mem_singleton.1 member
      exact ⟨rfl, rfl⟩

end

end McpTracer.Model
