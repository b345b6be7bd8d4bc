import McpTracer.Json.Agreement
import McpTracer.Redact.Policy

/-! Normalization and comparison of message bodies.

Normalization drops ignored positions and opaque protocol state, comparison
lists the positions that differ. A comparison without differences is agreement
up to the redaction placeholder, which counts as unknown on either side.
-/

set_option autoImplicit false

namespace McpTracer.Model
open McpTracer.Foundation McpTracer.Json McpTracer.Redact

/-- Rules for stripping volatile content before comparing bodies. -/
structure IgnoreRules where
  /-- Exact pointers, relative to the compared subtree. -/
  pointers : List String
  /-- Key names ignored anywhere, in normalized form. -/
  volatileKeys : List String
  deriving DecidableEq

namespace IgnoreRules

def standard : IgnoreRules where
  pointers := []
  volatileKeys := ["timestamp", "requestid", "traceid"]

end IgnoreRules

/-- One value-level difference; `none` is an absent side. -/
structure PointerDiff where
  pointer : String
  fromValue : Option Value
  toValue : Option Value
  deriving DecidableEq

/-! ## Normalization -/

def isVolatileKey (key : String) (rules : IgnoreRules) : Bool :=
  rules.volatileKeys.contains (normalizeKey key)

/-- `~` and `/` are escaped, in this order. -/
def escapePointerToken (token : String) : String :=
  String.ofList <| token.toList.flatMap fun c =>
    if c = '~' then ['~', '0'] else if c = '/' then ['~', '1'] else [c]

def childPointer (pointer token : String) : String := pointer ++ "/" ++ token

section Walk
variable (rules : IgnoreRules)

mutual
def normalizeWalk (pointer : String) : Value → Option Value
  | .object map =>
    if rules.pointers.contains pointer then none else some (.object (normalizeFields pointer map))
  | .array items =>
    if rules.pointers.contains pointer then none else some (.array (normalizeItems pointer 0 items))
  | other => if rules.pointers.contains pointer then none else some other
def normalizeFields (pointer : String) : List (String × Value) → List (String × Value)
  | [] => []
  | (key, child) :: rest =>
    let kept :=
      if isVolatileKey key rules then none
      else normalizeWalk (childPointer pointer (escapePointerToken key)) child
    match kept with
    | some kept => (key, kept) :: normalizeFields pointer rest
    | none => normalizeFields pointer rest
def normalizeItems (pointer : String) (index : Nat) : List Value → List Value
  | [] => []
  | item :: rest =>
    match normalizeWalk (childPointer pointer (toString index)) item with
    | some kept => kept :: normalizeItems pointer (index + 1) rest
    | none => normalizeItems pointer (index + 1) rest
end

/-- Strip ignored pointers and volatile keys. -/
def normalize (value : Value) : Value := (normalizeWalk rules "" value).getD .null

/-- Request state is opaque; that there is one stays significant. -/
def opaqueRequestState : Value := .string "<opaque MCP request state>"

def normalizeRequest (value : Value) : Value :=
  match normalize rules value with
  | .object fields => .object <| fields.map fun (key, child) =>
      (key, if key = "requestState" && child.isString then opaqueRequestState else child)
  | other => other

def normalizeResponse (value : Value) : Value :=
  let normalized := normalize rules value
  if (normalized.get "resultType").bind Value.asStr = some "input_required" then
    match normalized with
    | .object fields => .object (fields.filter fun field => field.1 ≠ "requestState")
    | other => other
  else normalized

end Walk

/-! ## What normalization keeps -/

section Kept
variable {rules : IgnoreRules}

/-- Only an ignored pointer makes the walk drop a value. -/
theorem normalizeWalk_eq_none_iff (pointer : String) (v : Value) :
    normalizeWalk rules pointer v = none ↔ rules.pointers.contains pointer = true := by
  cases v <;> simp [normalizeWalk]

theorem normalizeWalk_leaf (pointer : String) {v : Value} (noArray : v.isArray = false)
    (noObject : v.isObject = false) : normalizeWalk rules pointer v =
      if rules.pointers.contains pointer then none else some v := by
  cases v with
  | array items => cases noArray
  | object fields => cases noObject
  | _ => rfl

theorem normalizeFields_keys (pointer : String) (fields : List (String × Value)) :
    ((normalizeFields rules pointer fields).map Prod.fst).Sublist (fields.map Prod.fst) := by
  induction fields with
  | nil => exact List.Sublist.refl _
  | cons field rest ih =>
      rw [normalizeFields]
      split
      · exact ih.cons_cons _
      · exact ih.cons _

theorem mem_normalizeFields {pointer : String} {fields : List (String × Value)}
    {kept : String × Value} (member : kept ∈ normalizeFields rules pointer fields) :
    ∃ field ∈ fields, ∃ child, normalizeWalk rules child field.2 = some kept.2 := by
  induction fields with
  | nil => cases member
  | cons field rest ih =>
      rw [normalizeFields] at member
      split at member
      · rename_i value walked
        rcases List.mem_cons.mp member with rfl | later
        · split_ifs at walked
          exact ⟨field, List.mem_cons_self, _, walked⟩
        · obtain ⟨other, found, rest⟩ := ih later
          exact ⟨other, List.mem_cons_of_mem _ found, rest⟩
      · obtain ⟨other, found, rest⟩ := ih member
        exact ⟨other, List.mem_cons_of_mem _ found, rest⟩

theorem mem_normalizeItems {pointer : String} {index : Nat} {items : List Value} {kept : Value}
    (member : kept ∈ normalizeItems rules pointer index items) :
    ∃ item ∈ items, ∃ child, normalizeWalk rules child item = some kept := by
  induction items generalizing index with
  | nil => cases member
  | cons item rest ih =>
      rw [normalizeItems] at member
      split at member
      · rename_i value walked
        rcases List.mem_cons.mp member with rfl | later
        · exact ⟨item, List.mem_cons_self, _, walked⟩
        · obtain ⟨other, found, rest⟩ := ih later
          exact ⟨other, List.mem_cons_of_mem _ found, rest⟩
      · obtain ⟨other, found, rest⟩ := ih member
        exact ⟨other, List.mem_cons_of_mem _ found, rest⟩

/-- Dropping members keeps keys sorted. -/
theorem normalizeWalk_wellFormed {v : Value} (formed : v.wellFormed = true) {pointer : String} {w : Value}
    (walked : normalizeWalk rules pointer v = some w) : w.wellFormed = true := by
  induction v using Value.children generalizing pointer w with
  | array items ih =>
      rw [normalizeWalk] at walked
      split_ifs at walked
      obtain rfl := Option.some.inj walked
      rw [Value.wellFormed, Value.wellFormedItems_iff]
      intro kept member
      obtain ⟨item, found, child, same⟩ := mem_normalizeItems member
      exact ih item found ((Value.wellFormedItems_iff items).mp formed item found) same
  | object fields ih =>
      rw [normalizeWalk] at walked
      split_ifs at walked
      obtain rfl := Option.some.inj walked
      simp only [Value.wellFormed, Bool.and_eq_true, decide_eq_true_eq, Value.wellFormedFields_iff]
        at formed ⊢
      refine ⟨formed.1.sublist (normalizeFields_keys pointer fields), fun kept member => ?_⟩
      obtain ⟨field, found, child, same⟩ := mem_normalizeFields member
      exact ih field found (formed.2 field found) same
  | _ =>
      rw [normalizeWalk_leaf pointer rfl rfl] at walked
      split_ifs at walked
      obtain rfl := Option.some.inj walked
      exact formed

theorem normalize_wellFormed {v : Value} (formed : v.wellFormed = true) :
    (normalize rules v).wellFormed = true := by
  unfold normalize
  cases walked : normalizeWalk rules "" v with
  | none => rfl
  | some w => exact normalizeWalk_wellFormed formed walked

theorem normalizeItems_forall₂ {R : Value → Value → Prop} {xs ys : List Value}
    (related : List.Forall₂ (fun x y => ∀ pointer,
      Option.Rel R (normalizeWalk rules pointer x) (normalizeWalk rules pointer y)) xs ys)
    (pointer : String) (index : Nat) :
    List.Forall₂ R (normalizeItems rules pointer index xs) (normalizeItems rules pointer index ys) := by
  induction related generalizing index with
  | nil => exact .nil
  | @cons x y xs ys head _ ih =>
      rw [normalizeItems, normalizeItems]
      have walks := head (childPointer pointer (toString index))
      generalize normalizeWalk rules _ x = left at walks ⊢
      generalize normalizeWalk rules _ y = right at walks ⊢
      cases walks with
      | some same => exact .cons same (ih (index + 1))
      | none => exact ih (index + 1)

theorem normalizeFields_forall₂ {R : Value → Value → Prop} {fs gs : List (String × Value)}
    (related : List.Forall₂ (fun f g => f.1 = g.1 ∧ ∀ pointer,
      Option.Rel R (normalizeWalk rules pointer f.2) (normalizeWalk rules pointer g.2)) fs gs)
    (pointer : String) :
    List.Forall₂ (fun f g => f.1 = g.1 ∧ R f.2 g.2) (normalizeFields rules pointer fs)
      (normalizeFields rules pointer gs) := by
  induction related with
  | nil => exact .nil
  | @cons f g fs gs head _ ih =>
      obtain ⟨key, x⟩ := f
      obtain ⟨other, y⟩ := g
      obtain ⟨rfl, walks⟩ := head
      rw [normalizeFields, normalizeFields]
      by_cases ignored : isVolatileKey key rules = true
      · simpa [ignored] using ih
      · simp only [ignored, Bool.false_eq_true, if_false]
        have walked := walks (childPointer pointer (escapePointerToken key))
        dsimp only at walked
        generalize normalizeWalk rules _ x = left at walked ⊢
        generalize normalizeWalk rules _ y = right at walked ⊢
        cases walked with
        | some same => exact .cons ⟨rfl, same⟩ ih
        | none => exact ih

/-- Normalizing a masked value masks the normalized value: positions are ignored on both sides. -/
theorem normalizeWalk_masks {mask v w : Value} (noArray : mask.isArray = false)
    (noObject : mask.isObject = false) (masks : Masks mask v w) (pointer : String) :
    Option.Rel (Masks mask) (normalizeWalk rules pointer v) (normalizeWalk rules pointer w) := by
  induction masks generalizing pointer with
  | masked v =>
      -- The mask is walked too, so an ignored pointer drops it where it drops the value.
      by_cases ignored : rules.pointers.contains pointer = true
      · rw [(normalizeWalk_eq_none_iff pointer v).mpr ignored,
          (normalizeWalk_eq_none_iff pointer mask).mpr ignored]
        exact .none
      · rw [normalizeWalk_leaf pointer noArray noObject, if_neg ignored]
        cases walked : normalizeWalk rules pointer v with
        | none => exact absurd ((normalizeWalk_eq_none_iff pointer v).mp walked) ignored
        | some kept => exact .some (.masked kept)
  | leaf v _ _ =>
      exact option_rel_refl (.refl mask) (normalizeWalk rules pointer v)
  | array length _ ih =>
      rw [normalizeWalk, normalizeWalk]
      split_ifs
      · exact .none
      · exact .some (.array_of_forall₂
          (normalizeItems_forall₂ (forall₂_iff_getElem?.mpr ⟨length, ih⟩) pointer 0))
  | object keys _ ih =>
      rw [normalizeWalk, normalizeWalk]
      split_ifs
      · exact .none
      · have members := forall₂_of_keys (R := fun x y => ∀ pointer,
          Option.Rel (Masks mask) (normalizeWalk rules pointer x) (normalizeWalk rules pointer y)) keys ih
        exact .some (.object_of_forall₂ (normalizeFields_forall₂ members pointer))

theorem normalize_masks {mask v w : Value} (noArray : mask.isArray = false)
    (noObject : mask.isObject = false) (masks : Masks mask v w) :
    Masks mask (normalize rules v) (normalize rules w) :=
  option_rel_getD (normalizeWalk_masks noArray noObject masks "") (.refl mask .null)

/-- Replacing and removing a member keeps keys sorted. -/
theorem normalizeRequest_wellFormed {v : Value} (formed : v.wellFormed = true) :
    (normalizeRequest rules v).wellFormed = true := by
  have kept : (normalize rules v).wellFormed = true := normalize_wellFormed formed
  unfold normalizeRequest
  split
  · rename_i fields same
    rw [same] at kept
    simp only [Value.wellFormed, Bool.and_eq_true, decide_eq_true_eq, Value.wellFormedFields_iff,
      List.map_map, List.forall_mem_map] at kept ⊢
    refine ⟨kept.1, fun field member => ?_⟩
    split_ifs
    · rfl
    · exact kept.2 field member
  · exact kept

theorem normalizeResponse_wellFormed {v : Value} (formed : v.wellFormed = true) :
    (normalizeResponse rules v).wellFormed = true := by
  have kept : (normalize rules v).wellFormed = true := normalize_wellFormed formed
  unfold normalizeResponse
  dsimp only
  split_ifs
  · split
    · rename_i fields same
      rw [same] at kept
      simp only [Value.wellFormed, Bool.and_eq_true, decide_eq_true_eq, Value.wellFormedFields_iff]
        at kept ⊢
      exact ⟨kept.1.sublist (List.filter_sublist.map Prod.fst),
        fun field member => kept.2 field (List.mem_filter.mp member).1⟩
    · exact kept
  · exact kept

end Kept

/-! ## Comparison -/

def isRedacted : Value → Bool
  | .string s => s = redactedPlaceholder
  | _ => false

/-- Items of one side only, from an index on. -/
def absentItems (build : String → Value → PointerDiff) (pointer : String) (index : Nat) :
    List Value → List PointerDiff
  | [] => []
  | item :: rest => build (childPointer pointer (toString index)) item ::
      absentItems build pointer (index + 1) rest

def removedItem (pointer : String) (item : Value) : PointerDiff := ⟨pointer, some item, none⟩

def addedItem (pointer : String) (item : Value) : PointerDiff := ⟨pointer, none, some item⟩

mutual
/-- Structural comparison. Redacted values compare equal to anything. -/
def compareValues (pointer : String) : Value → Value → List PointerDiff
  | .object as, .object bs =>
    compareFields pointer bs as ++
      (bs.filter fun field => (as.lookup field.1).isNone).map fun field =>
        addedItem (childPointer pointer (escapePointerToken field.1)) field.2
  | .array as, .array bs => compareItems pointer 0 as bs
  -- A placeholder against a container of another kind lands here as well.
  | a, b =>
    if isRedacted a || isRedacted b then [] else if a.beq b then [] else [⟨pointer, some a, some b⟩]
def compareFields (pointer : String) (bs : List (String × Value)) :
    List (String × Value) → List PointerDiff
  | [] => []
  | (key, a) :: rest =>
    let child := childPointer pointer (escapePointerToken key)
    (match bs.lookup key with
      | some b => compareValues child a b
      | none => [removedItem child a]) ++ compareFields pointer bs rest
def compareItems (pointer : String) (index : Nat) : List Value → List Value → List PointerDiff
  | a :: as, b :: bs =>
    compareValues (childPointer pointer (toString index)) a b ++ compareItems pointer (index + 1) as bs
  | as, [] => absentItems removedItem pointer index as
  | [], bs => absentItems addedItem pointer index bs
end

/-- Comparing lists finds nothing when the lengths and the items at every position agree. -/
theorem compareItems_eq_nil_iff (pointer : String) (index : Nat) (as bs : List Value) :
    compareItems pointer index as bs = [] ↔ as.length = bs.length ∧
      ∀ (n : Nat) (a b : Value), as[n]? = some a → bs[n]? = some b →
        compareValues (childPointer pointer (toString (index + n))) a b = [] := by
  induction as generalizing index bs with
  | nil =>
      cases bs <;> simp [compareItems, absentItems]
  | cons a as ih =>
      cases bs with
      | nil => simp [compareItems, absentItems]
      | cons b bs =>
          rw [compareItems, List.append_eq_nil_iff, ih]
          constructor
          · rintro ⟨head, length, tail⟩
            refine ⟨by simpa using length, fun n x y left right => ?_⟩
            cases n with
            | zero =>
                obtain rfl : a = x := by simpa using left
                obtain rfl : b = y := by simpa using right
                exact head
            | succ n =>
                have position : index + (n + 1) = index + 1 + n := by omega
                rw [position]
                exact tail n x y (by simpa using left) (by simpa using right)
          · rintro ⟨length, items⟩
            refine ⟨items 0 a b rfl rfl, by simpa using length, fun n x y left right => ?_⟩
            have position : index + 1 + n = index + (n + 1) := by omega
            rw [position]
            exact items (n + 1) x y (by simpa using left) (by simpa using right)

theorem compareFields_eq_nil_iff (pointer : String) (bs as : List (String × Value)) :
    compareFields pointer bs as = [] ↔ ∀ field ∈ as, ∃ b, bs.lookup field.1 = some b ∧
      compareValues (childPointer pointer (escapePointerToken field.1)) field.2 b = [] := by
  induction as with
  | nil => simp [compareFields]
  | cons field rest ih =>
      rw [compareFields, List.append_eq_nil_iff, ih, List.forall_mem_cons]
      cases found : bs.lookup field.1 <;> simp

theorem compareValues_leaf (pointer : String) {a b : Value}
    (noArrays : a.isArray = true → b.isArray = false)
    (noObjects : a.isObject = true → b.isObject = false) : compareValues pointer a b =
      if isRedacted a || isRedacted b then [] else if a.beq b then [] else [⟨pointer, some a, some b⟩] := by
  cases a <;> cases b <;> first
    | rfl
    | exact absurd (noArrays rfl) (by simp [Value.isArray])
    | exact absurd (noObjects rfl) (by simp [Value.isObject])

/-- The comparison of two values that are no containers of one kind. -/
theorem compareLeaf_eq_nil_iff (pointer : String) {a b : Value}
    (noArrays : a.isArray = true → b.isArray = false)
    (noObjects : a.isObject = true → b.isObject = false) :
    compareValues pointer a b = [] ↔ Agrees isRedacted a b := by
  rw [compareValues_leaf pointer noArrays noObjects]
  constructor
  · intro quiet
    split_ifs at quiet with hidden same
    · rcases Bool.or_eq_true_iff.mp hidden with left | right
      · exact .left b left
      · exact .right a right
    · refine .leaf ?_ ?_ same
      · cases a <;> cases b <;> simp_all [Value.beq, Value.isArray]
      · cases a <;> cases b <;> simp_all [Value.beq, Value.isObject]
  · intro agrees
    cases agrees with
    | left _ hidden => simp [hidden]
    | right _ hidden => simp [hidden]
    | leaf _ _ same => simp [same]
    | array => exact absurd (noArrays rfl) (by simp [Value.isArray])
    | object => exact absurd (noObjects rfl) (by simp [Value.isObject])

/-- Arrays are compared by position. -/
theorem compareArrays_eq_nil_iff (pointer : String) {items others : List Value}
    (agree : ∀ item ∈ items, ∀ child other,
      compareValues child item other = [] ↔ Agrees isRedacted item other) :
    compareValues pointer (.array items) (.array others) = [] ↔
      Agrees isRedacted (.array items) (.array others) := by
  rw [compareValues, compareItems_eq_nil_iff]
  constructor
  · rintro ⟨length, same⟩
    refine .array length fun n x y left right => ?_
    exact (agree x (List.mem_of_getElem? left) _ y).mp (same n x y left right)
  · intro agrees
    cases agrees with
    | left _ hidden => cases hidden
    | right _ hidden => cases hidden
    | leaf noArray => cases noArray
    | array length same =>
        refine ⟨length, fun n x y left right => ?_⟩
        exact (agree x (List.mem_of_getElem? left) _ y).mpr (same n x y left right)

/-- Objects are compared by key: first the members of the left one, then the keys it lacks. -/
theorem compareObjects_eq_nil_iff (pointer : String) {fields others : List (String × Value)}
    (unique : (fields.map Prod.fst).Nodup)
    (agree : ∀ field ∈ fields, ∀ child other,
      compareValues child field.2 other = [] ↔ Agrees isRedacted field.2 other) :
    compareValues pointer (.object fields) (.object others) = [] ↔
      Agrees isRedacted (.object fields) (.object others) := by
  rw [compareValues, List.append_eq_nil_iff, List.map_eq_nil_iff, List.filter_eq_nil_iff,
    compareFields_eq_nil_iff]
  constructor
  · rintro ⟨same, noMore⟩
    refine .object (fun key => ?_) fun key x y left right => ?_
    · rw [Bool.eq_iff_iff, lookup_isSome_iff, lookup_isSome_iff, List.mem_map, List.mem_map]
      constructor
      · rintro ⟨field, member, rfl⟩
        obtain ⟨y, found, -⟩ := same field member
        exact ⟨_, mem_of_lookup found, rfl⟩
      · rintro ⟨field, member, rfl⟩
        have bound := noMore field member
        rw [Bool.not_eq_true, Option.isNone_eq_false_iff, lookup_isSome_iff, List.mem_map] at bound
        exact bound
    · have member := mem_of_lookup left
      obtain ⟨z, found, agrees⟩ := same (key, x) member
      obtain rfl : y = z := Option.some.inj (right.symm.trans found)
      exact (agree (key, x) member _ y).mp agrees
  · intro agrees
    cases agrees with
    | left _ hidden => cases hidden
    | right _ hidden => cases hidden
    | leaf _ noObject => cases noObject
    | object keys members =>
        refine ⟨fun field member => ?_, fun field member => ?_⟩
        · -- a member is what its key is looked up to, since keys are unique
          have left := (lookup_eq_some_iff unique field.1 field.2).mpr member
          have bound : (others.lookup field.1).isSome = true := by rw [← keys, left]; rfl
          obtain ⟨y, right⟩ := Option.isSome_iff_exists.mp bound
          exact ⟨y, right, (agree field member _ y).mpr (members field.1 field.2 y left right)⟩
        · rw [Bool.not_eq_true, Option.isNone_eq_false_iff, keys, lookup_isSome_iff]
          exact List.mem_map_of_mem member

/-- A comparison without differences is agreement up to redacted positions. -/
theorem compareValues_eq_nil_iff (pointer : String) {a : Value} (formed : a.wellFormed = true) (b : Value) :
    compareValues pointer a b = [] ↔ Agrees isRedacted a b := by
  induction a using Value.children generalizing pointer b with
  | array items ih =>
      cases b with
      | array others =>
          have formedItems := (Value.wellFormedItems_iff items).mp formed
          exact compareArrays_eq_nil_iff pointer fun item member child other =>
            ih item member child (formedItems item member) other
      | _ => exact compareLeaf_eq_nil_iff pointer (fun _ => rfl) (by simp [Value.isObject])
  | object fields ih =>
      cases b with
      | object others =>
          obtain ⟨unique, formedMembers⟩ := Value.wellFormed_object formed
          exact compareObjects_eq_nil_iff pointer unique fun field member child other =>
            ih field member child (formedMembers field member) other
      | _ => exact compareLeaf_eq_nil_iff pointer (by simp [Value.isArray]) (fun _ => rfl)
  | null => exact compareLeaf_eq_nil_iff pointer (by simp [Value.isArray]) (by simp [Value.isObject])
  | bool v => exact compareLeaf_eq_nil_iff pointer (by simp [Value.isArray]) (by simp [Value.isObject])
  | number v => exact compareLeaf_eq_nil_iff pointer (by simp [Value.isArray]) (by simp [Value.isObject])
  | string v => exact compareLeaf_eq_nil_iff pointer (by simp [Value.isArray]) (by simp [Value.isObject])

end McpTracer.Model
