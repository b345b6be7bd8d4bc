import McpTracer.Foundation.SortedMap
import McpTracer.Json.Update

/-! Putting members into an object and taking them out. -/

set_option autoImplicit false

namespace McpTracer.Foundation

variable {K V : Type} [LinearOrder K]

theorem lookup_insert (key other : K) (value : V) (map : List (K × V)) :
    (SortedMap.insert key value map).lookup other = if other = key then some value else map.lookup other := by
  induction map with
  | nil =>
    by_cases same : other = key
    · subst same
      simp [SortedMap.insert]
    · rw [SortedMap.insert, if_neg same, lookup_cons_other same]
  | cons binding rest ih =>
    obtain ⟨head, first⟩ := binding
    rw [SortedMap.insert]
    by_cases same : other = key
    · subst same
      rw [if_pos rfl] at ih ⊢
      split_ifs with less here
      · rw [lookup_cons_same]
      · rw [lookup_cons_same]
      · rw [lookup_cons_other here, ih]
    · rw [if_neg same] at ih ⊢
      split_ifs with less here
      · rw [lookup_cons_other same]
      · rw [lookup_cons_other same, lookup_cons_other (here ▸ same)]
      · rw [List.lookup_cons, List.lookup_cons, ih]

theorem SortedMap.insert_of_lookup {key : K} {value : V} {map : List (K × V)}
    (sorted : SortedMap.Sorted map) (found : map.lookup key = some value) : SortedMap.insert key value map = map := by
  induction map with
  | nil => cases found
  | cons binding rest ih =>
    obtain ⟨head, first⟩ := binding
    have later := List.pairwise_cons.1 sorted
    by_cases same : key = head
    · subst same
      obtain rfl : first = value := by simpa using found
      simp [SortedMap.insert]
    · have further : rest.lookup key = some value := by
        rwa [lookup_cons_other same] at found
      have below : head < key :=
        later.1 key (List.mem_map_of_mem (f := Prod.fst) (mem_of_lookup further))
      simp [SortedMap.insert, same, not_lt_of_gt below, ih later.2 further]

/-- What is taken out again makes no difference. -/
theorem filter_insert (key : K) (value : V) (map : List (K × V)) :
    (SortedMap.insert key value map).filter (fun binding => binding.1 ≠ key) =
      map.filter fun binding => binding.1 ≠ key := by
  induction map with
  | nil => simp [SortedMap.insert]
  | cons binding rest ih =>
    obtain ⟨head, first⟩ := binding
    rw [SortedMap.insert]
    split_ifs with less here
    · simp
    · simp [here]
    · rw [List.filter_cons, List.filter_cons, ih]

end McpTracer.Foundation

namespace McpTracer.Json.Value
open McpTracer.Foundation

/-- Put a member into an object, in place of the one under the same key. -/
def insert (v : Value) (key : String) (child : Value) : Value :=
  match v with
  | .object fields => .object (SortedMap.insert key child fields)
  | v => v

def remove (key : String) : Value → Value
  | .object fields => .object (fields.filter fun field => field.1 ≠ key)
  | v => v

variable {key other : String} {child : Value}

theorem get_insert (key other : String) (child : Value) {v : Value} (shape : v.isObject = true) :
    (v.insert key child).get other = if other = key then some child else v.get other := by
  cases v with
  | object fields => exact lookup_insert key other child fields
  | _ => cases shape

theorem get_insert_other (differs : other ≠ key) (v : Value) : (v.insert key child).get other = v.get other := by
  cases v with
  | object fields => exact (lookup_insert key other child fields).trans (if_neg differs)
  | _ => rfl

theorem insert_of_get {v : Value} (formed : v.wellFormed = true) (found : v.get key = some child) :
    v.insert key child = v := by
  cases v with
  | object fields =>
    simp only [wellFormed, Bool.and_eq_true, decide_eq_true_eq] at formed
    exact congrArg Value.object (SortedMap.insert_of_lookup formed.1 found)
  | _ => rfl

theorem get_remove (key other : String) (v : Value) :
    (v.remove key).get other = if other = key then none else v.get other := by
  cases v with
  | object fields => exact lookup_filter_ne key other fields
  | _ => simp [remove, get]

@[simp] theorem isObject_insert (v : Value) : (v.insert key child).isObject = v.isObject := by cases v <;> rfl

@[simp] theorem isObject_remove (v : Value) : (v.remove key).isObject = v.isObject := by cases v <;> rfl

@[simp] theorem remove_insert (v : Value) : (v.insert key child).remove key = v.remove key := by
  cases v with
  | object fields => exact congrArg Value.object (filter_insert key child fields)
  | _ => rfl

@[simp] theorem remove_remove (v : Value) : (v.remove key).remove key = v.remove key := by
  cases v <;> simp [remove]

theorem remove_comm (v : Value) : (v.remove key).remove other = (v.remove other).remove key := by
  cases v with
  | object fields =>
    simp only [remove, List.filter_filter, object.injEq]
    congr 1
    funext field
    rw [Bool.and_comm]
  | _ => rfl

/-- Rewriting one member and taking out another can be done in any order. -/
theorem remove_update (f : Value → Value) (v : Value) :
    (v.update key f).remove other = (v.remove other).update key f := by
  cases v with
  | object fields =>
    simp only [update, remove, List.filter_map, object.injEq]
    rfl
  | _ => rfl

theorem update_update (key : String) (f g : Value → Value) (v : Value) : (v.update key f).update key g = v.update key (g ∘ f) := by
  cases v with
  | object fields =>
    simp only [update, List.map_map, object.injEq]
    refine List.map_congr_left fun field _ => ?_
    by_cases here : field.1 = key <;> simp [here]
  | _ => rfl

end McpTracer.Json.Value
