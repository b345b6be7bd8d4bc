import McpTracer.Json.Update
import McpTracer.Model.Compare

/-! Normalization by keys alone.

Without ignored pointers, what is kept of a member depends on its key and its
value only, so normalization can be read member by member, and rewriting one
member is seen only below that member, or not at all when its key is volatile.
-/

set_option autoImplicit false

namespace McpTracer.Model
open McpTracer.Foundation McpTracer.Json

section Plain
variable {rules : IgnoreRules}

theorem normalizeWalk_pointer (plain : rules.pointers = []) (v : Value) (p q : String) :
    normalizeWalk rules p v = normalizeWalk rules q v := by
  induction v using Value.children generalizing p q with
  | array items ih =>
      have same (m n : Nat) : normalizeItems rules p m items = normalizeItems rules q n items := by
        induction items generalizing m n with
        | nil => rfl
        | cons item rest next =>
            rw [normalizeItems, normalizeItems, ih item List.mem_cons_self _
              (childPointer q (toString n)), next (fun x member => ih x (List.mem_cons_of_mem _ member))]
      simp [normalizeWalk, plain, same 0 0]
  | object fields ih =>
      have same : normalizeFields rules p fields = normalizeFields rules q fields := by
        induction fields with
        | nil => rfl
        | cons field rest next =>
            obtain ⟨key, child⟩ := field
            rw [normalizeFields, normalizeFields, ih (key, child) List.mem_cons_self _
              (childPointer q (escapePointerToken key)),
              next fun x member => ih x (List.mem_cons_of_mem _ member)]
      simp [normalizeWalk, plain, same]
  | _ => simp [normalizeWalk, plain]

theorem normalizeWalk_eq (plain : rules.pointers = []) (pointer : String) (v : Value) :
    normalizeWalk rules pointer v = some (normalize rules v) := by
  rw [normalizeWalk_pointer plain v pointer "", normalize]
  cases walked : normalizeWalk rules "" v with
  | none => exact absurd ((normalizeWalk_eq_none_iff "" v).mp walked) (by simp [plain])
  | some kept => rfl

theorem normalize_leaf (plain : rules.pointers = []) {v : Value} (noArray : v.isArray = false)
    (noObject : v.isObject = false) : normalize rules v = v := by
  rw [normalize, normalizeWalk_leaf "" noArray noObject]
  simp [plain]

theorem normalizeWalk_none_of_ignored {pointer : String} (ignored : rules.pointers.contains pointer = true)
    (v : Value) : normalizeWalk rules pointer v = none := (normalizeWalk_eq_none_iff pointer v).2 ignored

/-- A member is kept unless its key is volatile or its pointer ignored. -/
theorem lookup_normalizeFields (pointer key : String) (fields : List (String × Value)) :
    (normalizeFields rules pointer fields).lookup key =
      if isVolatileKey key rules then none
      else (fields.lookup key).bind (normalizeWalk rules (childPointer pointer (escapePointerToken key))) := by
  induction fields with
  | nil => simp [normalizeFields]
  | cons field rest ih =>
    obtain ⟨name, child⟩ := field
    rw [normalizeFields]
    by_cases same : key = name
    · subst same
      by_cases volatile : isVolatileKey key rules = true
      · simpa [volatile] using ih
      · rw [if_neg volatile] at ih ⊢
        cases walked : normalizeWalk rules (childPointer pointer (escapePointerToken key)) child with
        | some kept => simp [volatile, walked]
        | none =>
          -- The pointer is ignored, so a second member under the key would be dropped as well.
          have ignored := (normalizeWalk_eq_none_iff _ child).1 walked
          have gone : (rest.lookup key).bind (normalizeWalk rules (childPointer pointer (escapePointerToken key))) = none :=
            Option.bind_eq_none_iff.2 fun v _ => normalizeWalk_none_of_ignored ignored v
          rw [gone] at ih
          simp [volatile, walked, ih]
    · by_cases volatile : isVolatileKey name rules = true
      · simp [volatile, ih, lookup_cons_other same]
      · cases walked : normalizeWalk rules (childPointer pointer (escapePointerToken name)) child with
        | some kept => simp [volatile, ih, lookup_cons_other same]
        | none => simp [volatile, ih, lookup_cons_other same]

theorem normalizeFields_lookup (plain : rules.pointers = []) (pointer key : String)
    (fields : List (String × Value)) :
    (normalizeFields rules pointer fields).lookup key =
      if isVolatileKey key rules then none else (fields.lookup key).map (normalize rules) := by
  have walked : normalizeWalk rules (childPointer pointer (escapePointerToken key)) = fun v => some (normalize rules v) :=
    funext fun v => normalizeWalk_eq plain _ v
  rw [lookup_normalizeFields, walked, Option.map_eq_bind]
  rfl

theorem isObject_normalize (plain : rules.pointers = []) (v : Value) :
    (normalize rules v).isObject = v.isObject := by
  cases v <;> simp [normalize, normalizeWalk, plain, Value.isObject]

/-- A member is kept unless its key is volatile. -/
theorem get_normalize (plain : rules.pointers = []) (key : String) (v : Value) :
    (normalize rules v).get key =
      if isVolatileKey key rules then none else (v.get key).map (normalize rules) := by
  cases v with
  | object fields =>
      have kept : normalize rules (.object fields) = .object (normalizeFields rules "" fields) := by
        simp [normalize, normalizeWalk, plain]
      rw [kept]
      exact normalizeFields_lookup plain "" key fields
  | _ => rw [Value.get_of_not_object (isObject_normalize plain _)]; simp [Value.get]

/-! ## Objects, member by member -/

/-- Objects agree when they have the same keys and their members agree. -/
theorem agrees_iff_get {v w : Value} (left : v.isObject = true) (right : w.isObject = true) :
    Agrees isRedacted v w ↔ ∀ key, Option.Rel (Agrees isRedacted) (v.get key) (w.get key) := by
  cases v with
  | object fs =>
      cases w with
      | object gs =>
          constructor
          · intro agrees key
            cases agrees with
            | left _ hidden => cases hidden
            | right _ hidden => cases hidden
            | leaf _ noObject => cases noObject
            | object keys members =>
                have presence := keys key
                have member := members key
                simp only [Value.get]
                generalize fs.lookup key = x at presence member ⊢
                generalize gs.lookup key = y at presence member ⊢
                cases x <;> cases y
                · exact .none
                · cases presence
                · cases presence
                · exact .some (member _ _ rfl rfl)
          · intro members
            refine .object (fun key => ?_) fun key x y inLeft inRight => ?_
            · have related := members key
              simp only [Value.get] at related
              generalize fs.lookup key = x at related ⊢
              generalize gs.lookup key = y at related ⊢
              cases related <;> rfl
            · have related := members key
              simp only [Value.get, inLeft, inRight] at related
              cases related with
              | some same => exact same
      | _ => cases right
  | _ => cases left

/-- A rewritten member under a volatile key is not seen. -/
theorem normalize_update_volatile (plain : rules.pointers = []) {key : String}
    (volatile : isVolatileKey key rules = true) (f : Value → Value) (v w : Value) :
    Agrees isRedacted (normalize rules (v.update key f)) w ↔ Agrees isRedacted (normalize rules v) w := by
  suffices same : normalize rules (v.update key f) = normalize rules v by rw [same]
  cases v with
  | object fields =>
      simp only [Value.update, normalize, normalizeWalk, plain, List.contains_nil, Bool.false_eq_true,
        if_false, Option.getD_some, Value.object.injEq]
      induction fields with
      | nil => rfl
      | cons field rest ih =>
          obtain ⟨name, child⟩ := field
          by_cases here : name = key
          · subst here
            simp [normalizeFields, volatile, ih]
          · simp [normalizeFields, here, ih]
  | _ => rfl

/-- A rewritten member under another key is seen below that member only. -/
theorem agrees_update_iff (plain : rules.pointers = []) {key : String}
    (kept : isVolatileKey key rules = false) (f : Value → Value) (v : Value) :
    Agrees isRedacted (normalize rules v) (normalize rules (v.update key f)) ↔
      ∀ x, v.get key = some x → Agrees isRedacted (normalize rules x) (normalize rules (f x)) := by
  by_cases object : v.isObject = true
  · rw [agrees_iff_get (by rw [isObject_normalize plain, object])
      (by rw [isObject_normalize plain, Value.isObject_update, object])]
    constructor
    · intro members x found
      have related := members key
      rw [get_normalize plain, get_normalize plain, Value.get_update_same, found] at related
      simp only [kept, Bool.false_eq_true, if_false, Option.map_some] at related
      cases related with
      | some same => exact same
    · intro member other
      rw [get_normalize plain, get_normalize plain, Value.get_update]
      by_cases volatile : isVolatileKey other rules = true
      · simp only [volatile, if_true]
        exact .none
      · simp only [volatile, Bool.false_eq_true, if_false]
        by_cases here : other = key
        · subst here
          cases found : v.get other with
          | none => exact .none
          | some x => simpa using Option.Rel.some (member x found)
        · simpa [here] using option_rel_refl (.refl isRedacted) ((v.get other).map (normalize rules))
  · have noObject : v.isObject = false := by simpa using object
    rw [Value.update_of_not_object noObject]
    refine iff_of_true (.refl _ _) fun x found => ?_
    simp [Value.get_of_not_object noObject] at found

theorem get_normalizeRequest (key : String) (v : Value) :
    (normalizeRequest rules v).get key = ((normalize rules v).get key).map fun child =>
      if key = "requestState" && child.isString then opaqueRequestState else child := by
  unfold normalizeRequest
  cases normalize rules v with
  | object fields =>
      exact Value.lookup_map_members (fun name child =>
        if name = "requestState" && child.isString then opaqueRequestState else child) fields key
  | _ => rfl

theorem isObject_normalizeRequest (v : Value) :
    (normalizeRequest rules v).isObject = (normalize rules v).isObject := by
  unfold normalizeRequest
  cases normalize rules v <;> rfl

/-- Objects with one request state agree as parameters when they agree. -/
theorem requests_agree_of_normalized (plain : rules.pointers = []) {v w : Value}
    (left : v.isObject = true) (right : w.isObject = true)
    (state : v.get "requestState" = w.get "requestState")
    (agrees : Agrees isRedacted (normalize rules v) (normalize rules w)) :
    Agrees isRedacted (normalizeRequest rules v) (normalizeRequest rules w) := by
  have leftNormal := (isObject_normalize plain v).trans left
  have rightNormal := (isObject_normalize plain w).trans right
  rw [agrees_iff_get ((isObject_normalizeRequest v).trans leftNormal)
    ((isObject_normalizeRequest w).trans rightNormal)]
  intro key
  rw [get_normalizeRequest, get_normalizeRequest]
  by_cases here : key = "requestState"
  · subst here
    rw [get_normalize plain, get_normalize plain, state]
    exact option_rel_refl (.refl isRedacted) _
  · simpa [here] using (agrees_iff_get leftNormal rightNormal).mp agrees key

end Plain

end McpTracer.Model
