import McpTracer.Json.Value

/-! Rewriting the member under a key, where there is one. -/

set_option autoImplicit false

namespace McpTracer.Json.Value

/-- Rewrite the member under a key. -/
def update (key : String) (f : Value → Value) : Value → Value
  | .object fields => .object (fields.map fun field =>
      (field.1, if field.1 = key then f field.2 else field.2))
  | v => v

variable {f : Value → Value} {key other : String}

theorem get_update (f : Value → Value) (key other : String) (v : Value) :
    (v.update key f).get other = (v.get other).map fun child => if other = key then f child else child := by
  cases v with
  | object fields => exact lookup_map_members (fun k child => if k = key then f child else child) fields other
  | _ => rfl

@[simp] theorem get_update_same (v : Value) : (v.update key f).get key = (v.get key).map f := by
  simp [get_update]

theorem get_update_other (differs : other ≠ key) (v : Value) :
    (v.update key f).get other = v.get other := by
  simp [get_update, differs]

@[simp] theorem isObject_update (v : Value) : (v.update key f).isObject = v.isObject := by
  cases v <;> rfl

theorem update_of_not_object {v : Value} (plain : v.isObject = false) : v.update key f = v := by
  cases v <;> first | rfl | cases plain

theorem get_of_not_object {v : Value} (plain : v.isObject = false) : v.get key = none := by
  cases v <;> first | rfl | cases plain

theorem isObject_of_get {v child : Value} (found : v.get key = some child) : v.isObject = true := by
  by_contra plain
  rw [get_of_not_object (by simpa using plain)] at found
  cases found

theorem getPath_cons (path : List String) (v : Value) :
    v.getPath (key :: path) = (v.get key).bind (getPath path) := rfl

theorem getPath_pair (v : Value) : v.getPath [key, other] = (v.get key).bind (get other) := by
  rw [getPath_cons]
  refine congrArg _ (funext fun child => ?_)
  rw [getPath_cons]
  cases child.get other <;> rfl

end McpTracer.Json.Value
