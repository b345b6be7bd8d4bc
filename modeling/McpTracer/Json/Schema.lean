import Mathlib.Algebra.Field.Rat
import McpTracer.Json.Value

/-! The keywords of JSON Schema that speak of types, enumerations and the members of objects.

An instance is a value of the data model: a number is a rational whatever its notation, and an
object is a map. A schema accepts an instance when each of its keywords does.
-/

set_option autoImplicit false

namespace McpTracer.Json
open McpTracer.Foundation

/-! ## Instances -/

inductive Instance where
  | null
  | bool (b : Bool)
  | number (q : ℚ)
  | string (s : String)
  | array (items : List Instance)
  | object (members : List (String × Instance))

namespace Instance

/-- Objects are maps: every object lists its members in strictly increasing key order. -/
inductive WellFormed : Instance → Prop where
  | null : WellFormed .null
  | bool (b : Bool) : WellFormed (.bool b)
  | number (q : ℚ) : WellFormed (.number q)
  | string (s : String) : WellFormed (.string s)
  | array {items : List Instance} (formed : ∀ item ∈ items, WellFormed item) : WellFormed (.array items)
  | object {members : List (String × Instance)} (keys : (members.map Prod.fst).Pairwise (· < ·))
      (formed : ∀ member ∈ members, WellFormed member.2) : WellFormed (.object members)

def get (name : String) : Instance → Option Instance
  | .object members => members.lookup name
  | _ => none

/-- The names of the types that an instance has. -/
def typeNames : Instance → List String
  | .null => ["null"]
  | .bool _ => ["boolean"]
  | .number q => if q.den = 1 then ["integer", "number"] else ["number"]
  | .string _ => ["string"]
  | .array _ => ["array"]
  | .object _ => ["object"]

theorem number_of_integer {i : Instance} (integer : "integer" ∈ i.typeNames) : "number" ∈ i.typeNames := by
  cases i with
  | number q =>
    by_cases whole : q.den = 1 <;> simp_all [typeNames]
  | _ => simp [typeNames] at integer

end Instance

/-! ## The instance a tree denotes -/

/-- The rational that a double denotes: a significand scaled by a power of two. -/
def F64.toRat (x : F64) : ℚ :=
  let fraction := (x.bits.extractLsb' 0 52).toNat
  let exponent := (x.bits.extractLsb' 52 11).toNat
  let magnitude : ℚ :=
    if exponent = 0 then fraction / 2 ^ 1074 else (2 ^ 52 + fraction) * 2 ^ exponent / 2 ^ 1075
  if x.bits.msb then -magnitude else magnitude

theorem F64.toRat_of_isZero {x : F64} (zero : x.isZero = true) : x.toRat = 0 := by
  have low : x.bits.toNat % 2 ^ 63 = 0 := by
    have bits := congrArg BitVec.toNat (beq_iff_eq.1 zero)
    simpa [BitVec.extractLsb'_toNat] using bits
  have fraction : (x.bits.extractLsb' 0 52).toNat = 0 := by
    rw [BitVec.extractLsb'_toNat, Nat.shiftRight_zero]
    omega
  have exponent : (x.bits.extractLsb' 52 11).toNat = 0 := by
    rw [BitVec.extractLsb'_toNat, Nat.shiftRight_eq_div_pow]
    omega
  simp [F64.toRat, fraction, exponent]

theorem F64.toRat_of_beq {x y : F64} (same : x.beq y = true) : x.toRat = y.toRat := by
  rcases Bool.or_eq_true_iff.1 same with bits | zeros
  · unfold toRat
    rw [beq_iff_eq.1 bits]
  · obtain ⟨left, right⟩ := Bool.and_eq_true_iff.1 zeros
    rw [toRat_of_isZero left, toRat_of_isZero right]

def Number.toRat : Number → ℚ
  | .posInt n => n.toNat
  | .negInt n => -(n.val + 1)
  | .float x => x.toRat

theorem Number.toRat_of_beq {m n : Number} (same : m.beq n = true) : m.toRat = n.toRat := by
  cases m <;> cases n <;> try cases same
  · rw [beq_iff_eq.1 (show _ == _ from same)]
  · rw [beq_iff_eq.1 (show _ == _ from same)]
  · exact F64.toRat_of_beq same

namespace Value

mutual
def denote : Value → Instance
  | .null => .null
  | .bool b => .bool b
  | .number n => .number n.toRat
  | .string s => .string s
  | .array items => .array (denoteItems items)
  | .object fields => .object (denoteFields fields)
def denoteItems : List Value → List Instance
  | [] => []
  | item :: rest => denote item :: denoteItems rest
def denoteFields : List (String × Value) → List (String × Instance)
  | [] => []
  | (name, value) :: rest => (name, denote value) :: denoteFields rest
end

/-- Trees that compare equal denote one instance. -/
theorem denote_of_beq {v w : Value} (same : v.beq w = true) : v.denote = w.denote := by
  induction v using children generalizing w with
  | null => cases w <;> simp_all [beq]
  | bool b => cases w <;> simp_all [beq]
  | number n =>
    cases w with
    | number m =>
      rw [denote, denote, Number.toRat_of_beq (by simpa [beq] using same)]
    | _ => simp [beq] at same
  | string s => cases w <;> simp_all [beq]
  | array items ih =>
    cases w with
    | array others =>
      rw [beq, beqItems_iff] at same
      rw [denote, denote]
      induction same with
      | nil => rfl
      | cons head _ rest =>
        obtain ⟨here, later⟩ := List.forall_mem_cons.1 ih
        rw [denoteItems, denoteItems, here head, Instance.array.inj (rest later)]
    | _ => simp [beq] at same
  | object fields ih =>
    cases w with
    | object others =>
      rw [beq, beqFields_iff] at same
      rw [denote, denote]
      induction same with
      | nil => rfl
      | @cons f g _ _ head _ rest =>
        obtain ⟨here, later⟩ := List.forall_mem_cons.1 ih
        obtain ⟨name, value⟩ := f
        obtain ⟨other, child⟩ := g
        obtain ⟨rfl, equal⟩ := head
        rw [denoteFields, denoteFields, here equal, Instance.object.inj (rest later)]
    | _ => simp [beq] at same

/-! ## Members of equal trees -/

theorem optionBeq_iff {v w : Option Value} :
    (v == w) = true ↔ Option.Rel (fun old new => old.beq new = true) v w := by
  cases v with
  | none => cases w <;> simp
  | some old =>
    cases w with
    | none => simp
    | some new =>
      rw [Option.some_beq_some, Option.rel_some_some]
      rfl

theorem lookup_beq {fields others : List (String × Value)}
    (same : (Value.object fields).beq (.object others) = true) (key : String) :
    (fields.lookup key == others.lookup key) = true := by
  rw [beq, beqFields_iff] at same
  exact optionBeq_iff.2 (lookup_forall₂ same key)

theorem get_beq {v w : Value} (same : v.beq w = true) (key : String) : (v.get key == w.get key) = true := by
  cases v with
  | object fields =>
    cases w with
    | object others => exact lookup_beq same key
    | _ => cases same
  | _ => cases w <;> first | rfl | cases same

end Value

/-! ## Keywords -/

/-- A type name is the array of it. -/
def typeItems : Option Value → Option (List Value)
  | some (.string name) => some [.string name]
  | some (.array items) => some items
  | _ => none

/-- An absent `required` is the empty array. -/
def requiredItems : Option Value → Option (List Value)
  | none => some []
  | some (.array items) => some items
  | some _ => none

def enumItems (values : Option Value) : Option (List Value) := values.bind Value.asArray

/-- The instance has one of the types, if any are listed. -/
def TypeAllows (type : Option Value) (i : Instance) : Prop :=
  ∀ items, typeItems type = some items → ∃ name ∈ i.typeNames, Value.string name ∈ items

/-- The instance equals one of the members, if any are listed. -/
def EnumAllows (enum : Option Value) (i : Instance) : Prop :=
  ∀ items, enumItems enum = some items → ∃ item ∈ items, item.denote = i

/-- An object has every required member. -/
def RequiredAllows (required : Option Value) (i : Instance) : Prop :=
  ∀ items, requiredItems required = some items → "object" ∈ i.typeNames →
    ∀ name, Value.string name ∈ items → (i.get name).isSome = true

/-- The definition of a property, where the schema has one. -/
def definitionOf (fields : List (String × Value)) (name : String) : Option Value :=
  (fields.lookup "properties").bind (Value.get name)

/-- What a schema of these keywords accepts. Nothing is accepted by `false`. -/
inductive Accepts : Value → Instance → Prop where
  | any (i : Instance) : Accepts (.bool true) i
  | object {fields : List (String × Value)} {i : Instance} (type : TypeAllows (fields.lookup "type") i)
      (enum : EnumAllows (fields.lookup "enum") i) (required : RequiredAllows (fields.lookup "required") i)
      (declared : ∀ name member definition, i.get name = some member →
        definitionOf fields name = some definition → Accepts definition member)
      (additional : ∀ name member schema, i.get name = some member → definitionOf fields name = none →
        fields.lookup "additionalProperties" = some schema → Accepts schema member) :
      Accepts (.object fields) i

theorem accepts_empty (i : Instance) : Accepts (.object []) i := by
  refine .object ?_ ?_ ?_ ?_ ?_
  · intro items listed
    cases listed
  · intro items listed
    cases listed
  · rintro items ⟨⟩ _ name member
    cases member
  · intro name member definition _ declared
    cases declared
  · intro name member schema _ _ declared
    cases declared

/-! ## Keywords that allow no less -/

/-- Every item of the one list is among the items of the other. -/
def Covered (items others : List Value) : Prop := ∀ item ∈ items, ∃ other ∈ others, item.beq other = true

theorem covered_of_subset {items others : List Value} (subset : ∀ item ∈ items, item ∈ others) :
    Covered items others :=
  fun item member => ⟨item, subset item member, item.beq_self⟩

theorem covered_of_forall₂ {items others : List Value}
    (same : List.Forall₂ (fun old new => old.beq new = true) items others) :
    Covered items others ∧ Covered others items := by
  induction same with
  | nil => simp [Covered]
  | @cons x y _ _ head _ ih =>
    constructor
    · refine List.forall_mem_cons.2 ⟨⟨y, List.mem_cons_self, head⟩, fun item member => ?_⟩
      obtain ⟨other, found, equal⟩ := ih.1 item member
      exact ⟨other, List.mem_cons_of_mem _ found, equal⟩
    · refine List.forall_mem_cons.2 ⟨⟨x, List.mem_cons_self, Value.beq_symm head⟩, fun item member => ?_⟩
      obtain ⟨other, found, equal⟩ := ih.2 item member
      exact ⟨other, List.mem_cons_of_mem _ found, equal⟩

theorem string_mem_of_covered {items others : List Value} (covered : Covered items others) {name : String}
    (member : Value.string name ∈ items) : Value.string name ∈ others := by
  obtain ⟨other, found, same⟩ := covered _ member
  cases other with
  | string s =>
    obtain rfl : name = s := by simpa [Value.beq] using same
    exact found
  | _ => cases same

section
variable {before after : Option Value} {i : Instance}

theorem TypeAllows.mono (allows : TypeAllows before i)
    (wider : ∀ news, typeItems after = some news → ∃ olds, typeItems before = some olds ∧ Covered olds news) :
    TypeAllows after i := by
  intro news listed
  obtain ⟨olds, earlier, covered⟩ := wider news listed
  obtain ⟨name, has, member⟩ := allows olds earlier
  exact ⟨name, has, string_mem_of_covered covered member⟩

theorem EnumAllows.mono (allows : EnumAllows before i)
    (wider : ∀ news, enumItems after = some news → ∃ olds, enumItems before = some olds ∧ Covered olds news) :
    EnumAllows after i := by
  intro news listed
  obtain ⟨olds, earlier, covered⟩ := wider news listed
  obtain ⟨item, member, equal⟩ := allows olds earlier
  obtain ⟨other, found, same⟩ := covered item member
  exact ⟨other, found, by rw [← Value.denote_of_beq same, equal]⟩

theorem RequiredAllows.mono (allows : RequiredAllows before i)
    (fewer : ∀ news, requiredItems after = some news →
      ∃ olds, requiredItems before = some olds ∧ Covered news olds) : RequiredAllows after i := by
  intro news listed object name member
  obtain ⟨olds, earlier, covered⟩ := fewer news listed
  exact allows olds earlier object name (string_mem_of_covered covered member)

/-! ## Equal schemas accept the same -/

theorem typeItems_beq (same : (before == after) = true) :
    Option.Rel (List.Forall₂ fun old new => old.beq new = true) (typeItems before) (typeItems after) := by
  cases Value.optionBeq_iff.1 same with
  | none => exact .none
  | @some old new equal =>
    cases old <;> cases new <;> try cases equal
    all_goals first
      | exact .none
      | exact .some (.cons equal .nil)
      | exact .some ((Value.beqItems_iff _ _).1 equal)

theorem requiredItems_beq (same : (before == after) = true) :
    Option.Rel (List.Forall₂ fun old new => old.beq new = true) (requiredItems before) (requiredItems after) := by
  cases Value.optionBeq_iff.1 same with
  | none => exact .some .nil
  | @some old new equal =>
    cases old <;> cases new <;> try cases equal
    all_goals first
      | exact .none
      | exact .some ((Value.beqItems_iff _ _).1 equal)

theorem enumItems_beq (same : (before == after) = true) :
    Option.Rel (List.Forall₂ fun old new => old.beq new = true) (enumItems before) (enumItems after) := by
  cases Value.optionBeq_iff.1 same with
  | none => exact .none
  | @some old new equal =>
    cases old <;> cases new <;> try cases equal
    all_goals first
      | exact .none
      | exact .some ((Value.beqItems_iff _ _).1 equal)

/-- Items that are equal one by one cover each other. -/
theorem covered_of_rel {olds? news? : Option (List Value)}
    (same : Option.Rel (List.Forall₂ fun old new => old.beq new = true) olds? news?) {news : List Value}
    (listed : news? = some news) : ∃ olds, olds? = some olds ∧ Covered olds news ∧ Covered news olds := by
  cases same with
  | none => cases listed
  | @some olds _ equal =>
    obtain rfl := Option.some.inj listed
    exact ⟨olds, rfl, covered_of_forall₂ equal⟩

end

theorem definitionOf_beq {before after : List (String × Value)}
    (same : (before.lookup "properties" == after.lookup "properties") = true) (name : String) :
    (definitionOf before name == definitionOf after name) = true := by
  unfold definitionOf
  have keyword := Value.optionBeq_iff.1 same
  generalize before.lookup "properties" = left at keyword ⊢
  generalize after.lookup "properties" = right at keyword ⊢
  cases keyword with
  | none => rfl
  | some equal => exact Value.get_beq equal name

theorem Accepts.of_beq {schema other : Value} {i : Instance} (accepts : Accepts schema i)
    (same : schema.beq other = true) : Accepts other i := by
  induction accepts generalizing other with
  | any i =>
    cases other with
    | bool b =>
      obtain rfl : true = b := by simpa [Value.beq] using same
      exact .any i
    | _ => cases same
  | @object fields i type enum required declared additional declaredIh additionalIh =>
    cases other with
    | object others =>
      have keyword := Value.lookup_beq same
      refine .object (type.mono fun news listed => ?_) (enum.mono fun news listed => ?_)
        (required.mono fun news listed => ?_) ?_ ?_
      · obtain ⟨olds, earlier, covered, -⟩ := covered_of_rel (typeItems_beq (keyword "type")) listed
        exact ⟨olds, earlier, covered⟩
      · obtain ⟨olds, earlier, covered, -⟩ := covered_of_rel (enumItems_beq (keyword "enum")) listed
        exact ⟨olds, earlier, covered⟩
      · obtain ⟨olds, earlier, -, covered⟩ := covered_of_rel (requiredItems_beq (keyword "required")) listed
        exact ⟨olds, earlier, covered⟩
      · intro name member definition has declares
        have equal := Value.optionBeq_iff.1 (definitionOf_beq (keyword "properties") name)
        rw [declares] at equal
        generalize earlier : definitionOf fields name = old at equal
        cases equal with
        | some equal => exact declaredIh name member _ has earlier equal
      · intro name member schema has undeclared listed
        have equal := Value.optionBeq_iff.1 (definitionOf_beq (keyword "properties") name)
        have restriction := Value.optionBeq_iff.1 (keyword "additionalProperties")
        rw [undeclared] at equal
        rw [listed] at restriction
        generalize absent : definitionOf fields name = definition at equal
        generalize earlier : fields.lookup "additionalProperties" = old at restriction
        cases equal with
        | none =>
          cases restriction with
          | some same => exact additionalIh name member _ has absent earlier same
    | _ => cases same

end McpTracer.Json
