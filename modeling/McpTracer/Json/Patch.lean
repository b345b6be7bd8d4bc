import McpTracer.Json.Members
import McpTracer.Json.Pointer

/-! Many replacements in one value at once.

Every edit says what comes into one place, or that nothing is left there. The places are those of the
value before any edit.
-/

set_option autoImplicit false

namespace McpTracer.Json
open McpTracer.Foundation

/-- What comes into a place; `none` takes away what is there. -/
structure Edit where
  path : List String
  value : Option Value
  deriving DecidableEq

namespace Edit

/-- The edit as it is seen from what a token leads to. -/
def below (token : String) (edit : Edit) : Option Edit :=
  match edit.path with
  | [] => none
  | head :: rest => if head = token then some ⟨rest, edit.value⟩ else none

/-- A new entry directly below the root. -/
def addition (isNew : String → Bool) (edit : Edit) : Option (String × Value) :=
  match edit.path, edit.value with
  | [token], some value => if isNew token then some (token, value) else none
  | _, _ => none

end Edit

def editsBelow (token : String) (edits : List Edit) : List Edit := edits.filterMap (Edit.below token)

def rootEdit (edits : List Edit) : Option (Option Value) := (edits.find? fun edit => edit.path = []).map Edit.value

def newMember (fields : List (String × Value)) (token : String) : Bool := (fields.lookup token).isNone

def newItem (length : Nat) (token : String) : Bool := (Pointer.arrayIndex token).any fun index => length ≤ index

mutual
/-- The value after the edits; new items go to the end of an array, in the order of the edits. -/
@[grind] def patch (edits : List Edit) : Value → Option Value
  | .object fields => (rootEdit edits).getD <| some <| .object <|
      (edits.filterMap (Edit.addition (newMember fields))).foldr (fun member => SortedMap.insert member.1 member.2)
        (patchFields edits fields)
  | .array items => (rootEdit edits).getD <| some <| .array <|
      patchItems edits 0 items ++ (edits.filterMap (Edit.addition (newItem items.length))).map Prod.snd
  | v => (rootEdit edits).getD (some v)
@[grind] def patchFields (edits : List Edit) : List (String × Value) → List (String × Value)
  | [] => []
  | (key, v) :: rest =>
    match patch (editsBelow key edits) v with
    | some w => (key, w) :: patchFields edits rest
    | none => patchFields edits rest
@[grind] def patchItems (edits : List Edit) (index : Nat) : List Value → List Value
  | [] => []
  | v :: rest =>
    match patch (editsBelow (toString index) edits) v with
    | some w => w :: patchItems edits (index + 1) rest
    | none => patchItems edits (index + 1) rest
end

theorem patch_root {edits : List Edit} {value : Option Value} (edited : rootEdit edits = some value) (v : Value) :
    patch edits v = value := by
  cases v <;> simp [patch, edited]

theorem patch_nil (v : Value) : patch [] v = some v := by
  induction v using Value.children with
  | array items ih =>
    have same (index : Nat) : patchItems [] index items = items := by
      induction items generalizing index with
      | nil => rfl
      | cons item rest next =>
        rw [patchItems, editsBelow, List.filterMap_nil, ih item List.mem_cons_self]
        exact congrArg (item :: ·) (next (fun x member => ih x (List.mem_cons_of_mem _ member)) (index + 1))
    rw [patch, same]
    simp [rootEdit]
  | object fields ih =>
    have same : patchFields [] fields = fields := by
      induction fields with
      | nil => rfl
      | cons field rest next =>
        obtain ⟨key, v⟩ := field
        rw [patchFields, editsBelow, List.filterMap_nil, ih (key, v) List.mem_cons_self]
        exact congrArg ((key, v) :: ·) (next fun x member => ih x (List.mem_cons_of_mem _ member))
    rw [patch, same]
    simp [rootEdit]
  | _ => rfl

theorem patchFields_lookup (edits : List Edit) (key : String) {fields : List (String × Value)}
    (unique : (fields.map Prod.fst).Nodup) :
    (patchFields edits fields).lookup key = (fields.lookup key).bind (patch (editsBelow key edits)) := by
  induction fields with
  | nil => rfl
  | cons field rest ih =>
    obtain ⟨name, v⟩ := field
    obtain ⟨fresh, others⟩ := List.nodup_cons.1 unique
    have later := ih others
    rw [patchFields]
    by_cases same : key = name
    · subst same
      have absent : rest.lookup key = none := by
        rw [← Option.not_isSome_iff_eq_none, lookup_isSome_iff]
        exact fresh
      rw [absent] at later
      cases patched : patch (editsBelow key edits) v with
      | some w => simp [patched]
      | none => simpa [patched] using later
    · cases patched : patch (editsBelow name edits) v with
      | some w => simp [lookup_cons_other same, later]
      | none => simp [lookup_cons_other same, later]

theorem lookup_foldr_insert (key : String) (members map : List (String × Value)) :
    (members.foldr (fun member => SortedMap.insert member.1 member.2) map).lookup key =
      (members.lookup key).or (map.lookup key) := by
  induction members with
  | nil => rfl
  | cons member rest ih =>
    obtain ⟨name, v⟩ := member
    rw [List.foldr_cons, lookup_insert, ih]
    by_cases same : key = name
    · subst same
      simp
    · rw [if_neg same, lookup_cons_other same]

/-- A member of a patched object is a patched member, or a new one. -/
theorem patch_object {edits : List Edit} (kept : rootEdit edits = none) {fields : List (String × Value)}
    (unique : (fields.map Prod.fst).Nodup) :
    ∃ members, patch edits (.object fields) = some (.object members) ∧ ∀ key, members.lookup key =
      ((edits.filterMap (Edit.addition (newMember fields))).lookup key).or
        ((fields.lookup key).bind (patch (editsBelow key edits))) := by
  refine ⟨_, by rw [patch, kept, Option.getD_none], fun key => ?_⟩
  rw [lookup_foldr_insert, patchFields_lookup edits key unique]

/-- Items that are kept as long as the other array goes on are related to it item by item. -/
theorem patchItems_forall₂ {R : Value → Value → Prop} {edits : List Edit} {index : Nat} {as bs : List Value}
    (kept : ∀ (n : Nat) (a b : Value), as[n]? = some a → bs[n]? = some b →
      ∃ c, patch (editsBelow (toString (index + n)) edits) a = some c ∧ R c b)
    (dropped : ∀ (n : Nat) (a : Value), as[n]? = some a → bs[n]? = none →
      patch (editsBelow (toString (index + n)) edits) a = none) :
    List.Forall₂ R (patchItems edits index as) (bs.take as.length) := by
  induction as generalizing index bs with
  | nil => simp [patchItems]
  | cons a as ih =>
    have position (n : Nat) : index + 1 + n = index + (n + 1) := by omega
    rw [patchItems]
    cases bs with
    | nil =>
      have gone := dropped 0 a rfl rfl
      rw [Nat.add_zero] at gone
      have others := @ih (index + 1) [] (fun n x y _ impossible => by cases impossible)
        fun n x there _ => by rw [position]; exact dropped (n + 1) x (by simpa using there) rfl
      rw [gone]
      simpa using others
    | cons b bs =>
      obtain ⟨c, stays, related⟩ := kept 0 a b rfl rfl
      rw [Nat.add_zero] at stays
      have others := @ih (index + 1) bs
        (fun n x y here there => by rw [position]; exact kept (n + 1) x y (by simpa using here) (by simpa using there))
        fun n x here gone => by rw [position]; exact dropped (n + 1) x (by simpa using here) (by simpa using gone)
      rw [stays, List.length_cons, List.take_succ_cons]
      exact .cons related others

end McpTracer.Json
