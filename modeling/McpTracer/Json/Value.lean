import Mathlib.Data.List.Basic
import Mathlib.Data.List.Forall2
import Mathlib.Data.String.Basic
import McpTracer.Foundation.Assoc

/-! JSON trees as a sorted-map implementation keeps them.

Objects are association lists. The lists a parser builds are strictly
increasing in their keys, which `wellFormed` records; every operation below is
defined on all lists and the invariant is a premise only where order matters.
Numbers keep the three representations a machine decoder distinguishes.
-/

set_option autoImplicit false

namespace McpTracer.Json
open McpTracer.Foundation

/-- A finite IEEE double, by its bit pattern. A JSON tree holds no NaN and no infinity. -/
structure F64 where
  bits : BitVec 64
  finite : bits.extractLsb' 52 11 ≠ BitVec.allOnes 11
  deriving DecidableEq

def F64.isZero (x : F64) : Bool := x.bits.extractLsb' 0 63 == 0

/-- Numeric equality: the two zeros are equal although their bits differ. -/
def F64.beq (x y : F64) : Bool := x.bits == y.bits || (x.isZero && y.isZero)

/-- `posInt` is a `u64`; `negInt n` is the negative `i64` with value `-(n + 1)`. -/
inductive Number where
  | posInt (n : UInt64)
  | negInt (n : Fin (2 ^ 63))
  | float (x : F64)
  deriving DecidableEq

def Number.beq : Number → Number → Bool
  | .posInt m, .posInt n => m == n
  | .negInt m, .negInt n => m == n
  | .float x, .float y => x.beq y
  | _, _ => false

/-- The integer in the `i64` range that the number denotes, if it denotes one. -/
def Number.asI64 : Number → Option Int
  | .posInt n => if n.toNat < 2 ^ 63 then some n.toNat else none
  | .negInt n => some (-(n.val + 1 : Int))
  | .float _ => none

inductive Value where
  | null
  | bool (b : Bool)
  | number (n : Number)
  | string (s : String)
  | array (items : List Value)
  | object (fields : List (String × Value))

namespace Value

/-- Induction over a tree, with the hypothesis for every child of a container. -/
theorem children {motive : Value → Prop} (null : motive .null)
    (bool : ∀ b, motive (.bool b)) (number : ∀ n, motive (.number n))
    (string : ∀ s, motive (.string s))
    (array : ∀ items, (∀ item ∈ items, motive item) → motive (.array items))
    (object : ∀ fields, (∀ field ∈ fields, motive field.2) → motive (.object fields))
    (value : Value) : motive value :=
  @Value.rec motive (fun items => ∀ item ∈ items, motive item)
    (fun fields => ∀ field ∈ fields, motive field.2) (fun field => motive field.2)
    null bool number string array object
    (fun _ member => absurd member List.not_mem_nil)
    (fun _ _ head tail => List.forall_mem_cons.mpr ⟨head, tail⟩)
    (fun _ member => absurd member List.not_mem_nil)
    (fun _ _ head tail => List.forall_mem_cons.mpr ⟨head, tail⟩)
    (fun _ _ child => child) value

/-! ## Equality -/

mutual
private def decEq (v w : Value) : Decidable (v = w) :=
  match v, w with
  | .null, .null => isTrue rfl
  | .bool b, .bool c => decidable_of_iff (b = c) (by simp)
  | .number m, .number n => decidable_of_iff (m = n) (by simp)
  | .string s, .string t => decidable_of_iff (s = t) (by simp)
  | .array xs, .array ys =>
      haveI := decEqItems xs ys
      decidable_of_iff (xs = ys) (by simp)
  | .object fs, .object gs =>
      haveI := decEqFields fs gs
      decidable_of_iff (fs = gs) (by simp)
  | .null, .bool _ | .null, .number _ | .null, .string _ | .null, .array _ | .null, .object _
  | .bool _, .null | .bool _, .number _ | .bool _, .string _ | .bool _, .array _
  | .bool _, .object _ | .number _, .null | .number _, .bool _ | .number _, .string _
  | .number _, .array _ | .number _, .object _ | .string _, .null | .string _, .bool _
  | .string _, .number _ | .string _, .array _ | .string _, .object _ | .array _, .null
  | .array _, .bool _ | .array _, .number _ | .array _, .string _ | .array _, .object _
  | .object _, .null | .object _, .bool _ | .object _, .number _ | .object _, .string _
  | .object _, .array _ => isFalse (by intro h; cases h)
private def decEqItems (xs ys : List Value) : Decidable (xs = ys) :=
  match xs, ys with
  | [], [] => isTrue rfl
  | x :: xs, y :: ys =>
      haveI := decEq x y
      haveI := decEqItems xs ys
      decidable_of_iff (x = y ∧ xs = ys) (by simp)
  | [], _ :: _ | _ :: _, [] => isFalse (by intro h; cases h)
private def decEqFields (fs gs : List (String × Value)) : Decidable (fs = gs) :=
  match fs, gs with
  | [], [] => isTrue rfl
  | (k, x) :: fs, (l, y) :: gs =>
      haveI := decEq x y
      haveI := decEqFields fs gs
      decidable_of_iff ((k = l ∧ x = y) ∧ fs = gs) (by simp)
  | [], _ :: _ | _ :: _, [] => isFalse (by intro h; cases h)
end

instance : DecidableEq Value := decEq

mutual
/-- The comparison a tree library offers: structural, numbers by numeric equality. -/
def beq : Value → Value → Bool
  | .null, .null => true
  | .bool b, .bool c => b == c
  | .number m, .number n => m.beq n
  | .string s, .string t => s == t
  | .array xs, .array ys => beqItems xs ys
  | .object fs, .object gs => beqFields fs gs
  | _, _ => false
def beqItems : List Value → List Value → Bool
  | [], [] => true
  | x :: xs, y :: ys => beq x y && beqItems xs ys
  | _, _ => false
def beqFields : List (String × Value) → List (String × Value) → Bool
  | [], [] => true
  | (k, x) :: fs, (l, y) :: gs => k == l && beq x y && beqFields fs gs
  | _, _ => false
end

instance : BEq Value := ⟨beq⟩

end Value

theorem F64.beq_self (x : F64) : x.beq x = true := by simp [F64.beq]

theorem F64.beq_comm (x y : F64) : x.beq y = y.beq x := by
  simp only [F64.beq, Bool.and_comm, Bool.beq_comm]

@[simp] theorem Number.beq_self (n : Number) : n.beq n = true := by
  cases n <;> simp [Number.beq, F64.beq_self]

theorem Number.beq_comm (m n : Number) : m.beq n = n.beq m := by
  cases m <;> cases n <;> simp only [Number.beq, F64.beq_comm, Bool.beq_comm]

namespace Value

theorem beqItems_iff (xs ys : List Value) :
    beqItems xs ys = true ↔ List.Forall₂ (fun x y => beq x y = true) xs ys := by
  induction xs generalizing ys with
  | nil => cases ys <;> simp [beqItems]
  | cons x xs ih => cases ys <;> simp [beqItems, ih]

theorem beqFields_iff (fs gs : List (String × Value)) :
    beqFields fs gs = true ↔
      List.Forall₂ (fun f g => f.1 = g.1 ∧ beq f.2 g.2 = true) fs gs := by
  induction fs generalizing gs with
  | nil => cases gs <;> simp [beqFields]
  | cons f fs ih => cases gs <;> simp [beqFields, ih, and_assoc]

@[simp] theorem beq_self (v : Value) : beq v v = true := by
  induction v using children with
  | null => rfl
  | bool b => simp [beq]
  | number n => simp [beq]
  | string s => simp [beq]
  | array items ih =>
      rw [beq, beqItems_iff]
      exact List.forall₂_same.mpr ih
  | object fields ih =>
      rw [beq, beqFields_iff]
      exact List.forall₂_same.mpr fun field member => ⟨rfl, ih field member⟩

instance : ReflBEq Value := ⟨@beq_self⟩

theorem beq_symm {v w : Value} (same : beq v w = true) : beq w v = true := by
  induction v using children generalizing w with
  | null => cases w <;> simp_all [beq]
  | bool b => cases w <;> simp_all [beq]
  | number n => cases w <;> simp_all [beq, Number.beq_comm]
  | string s => cases w <;> simp_all [beq]
  | array items ih =>
      cases w with
      | array others =>
          rw [beq, beqItems_iff] at same ⊢
          refine List.Forall₂.flip ?_
          exact List.forall₂_iff_zip.mpr ⟨same.length_eq, fun {x y} member =>
            ih x (List.of_mem_zip member).1 ((List.forall₂_iff_zip.mp same).2 member)⟩
      | _ => simp [beq] at same
  | object fields ih =>
      cases w with
      | object others =>
          rw [beq, beqFields_iff] at same ⊢
          refine List.Forall₂.flip ?_
          refine List.forall₂_iff_zip.mpr ⟨same.length_eq, fun {f g} member => ?_⟩
          obtain ⟨keys, child⟩ := (List.forall₂_iff_zip.mp same).2 member
          exact ⟨keys.symm, ih f (List.of_mem_zip member).1 child⟩
      | _ => simp [beq] at same

theorem beq_comm (v w : Value) : beq v w = beq w v :=
  Bool.eq_iff_iff.mpr ⟨beq_symm, beq_symm⟩

/-! ## Shape and access -/

def isObject : Value → Bool
  | .object _ => true
  | _ => false

def isArray : Value → Bool
  | .array _ => true
  | _ => false

def isBoolean : Value → Bool
  | .bool _ => true
  | _ => false

def isString : Value → Bool
  | .string _ => true
  | _ => false

def isNumber : Value → Bool
  | .number _ => true
  | _ => false

def asStr : Value → Option String
  | .string s => some s
  | _ => none

def asBool : Value → Option Bool
  | .bool b => some b
  | _ => none

def asArray : Value → Option (List Value)
  | .array items => some items
  | _ => none

def asObject : Value → Option (List (String × Value))
  | .object fields => some fields
  | _ => none

def asI64 : Value → Option Int
  | .number n => n.asI64
  | _ => none

@[simp] theorem asObject_eq_some_iff {v : Value} {fields : List (String × Value)} :
    v.asObject = some fields ↔ v = .object fields := by
  cases v <;> simp [asObject]

/-- Member access by key; only objects have members. -/
def get (key : String) : Value → Option Value
  | .object fields => fields.lookup key
  | _ => none

/-- Rewriting members in place rewrites what is found under a key. -/
theorem lookup_map_members (rewrite : String → Value → Value) (fields : List (String × Value))
    (key : String) : (fields.map fun field => (field.1, rewrite field.1 field.2)).lookup key =
      (fields.lookup key).map (rewrite key) := by
  induction fields with
  | nil => rfl
  | cons field rest ih =>
      obtain ⟨name, v⟩ := field
      rw [List.map_cons, List.lookup_cons, List.lookup_cons]
      by_cases same : key = name
      · subst same
        simp
      · have differs : (key == name) = false := by simpa using same
        simp only [differs, ih]

/-- Member access along a path of keys, as a pointer whose tokens are all keys resolves it. -/
def getPath : List String → Value → Option Value
  | [], v => some v
  | key :: path, v => (v.get key).bind (getPath path)

/-! ## The invariant of parsed trees -/

mutual
/-- Every object lists its members in strictly increasing key order. -/
def wellFormed : Value → Bool
  | .array items => wellFormedItems items
  | .object fields => decide ((fields.map Prod.fst).Pairwise (· < ·)) && wellFormedFields fields
  | _ => true
def wellFormedItems : List Value → Bool
  | [] => true
  | v :: rest => wellFormed v && wellFormedItems rest
def wellFormedFields : List (String × Value) → Bool
  | [] => true
  | (_, v) :: rest => wellFormed v && wellFormedFields rest
end

mutual
/-- How many containers enclose the deepest leaf. -/
def depth : Value → Nat
  | .array items => depthItems items + 1
  | .object fields => depthFields fields + 1
  | _ => 0
def depthItems : List Value → Nat
  | [] => 0
  | v :: rest => max (depth v) (depthItems rest)
def depthFields : List (String × Value) → Nat
  | [] => 0
  | (_, v) :: rest => max (depth v) (depthFields rest)
end

mutual
/-- No leaf is a floating-point number. -/
def floatFree : Value → Bool
  | .number (.float _) => false
  | .array items => floatFreeItems items
  | .object fields => floatFreeFields fields
  | _ => true
def floatFreeItems : List Value → Bool
  | [] => true
  | v :: rest => floatFree v && floatFreeItems rest
def floatFreeFields : List (String × Value) → Bool
  | [] => true
  | (_, v) :: rest => floatFree v && floatFreeFields rest
end

@[simp] theorem wellFormedItems_iff (items : List Value) :
    wellFormedItems items = true ↔ ∀ item ∈ items, wellFormed item = true := by
  induction items with
  | nil => simp [wellFormedItems]
  | cons item rest ih => simp [wellFormedItems, ih]

@[simp] theorem wellFormedFields_iff (fields : List (String × Value)) :
    wellFormedFields fields = true ↔ ∀ field ∈ fields, wellFormed field.2 = true := by
  induction fields with
  | nil => simp [wellFormedFields]
  | cons field rest ih => simp [wellFormedFields, ih]

theorem wellFormed_object {fields : List (String × Value)}
    (formed : wellFormed (.object fields) = true) :
    (fields.map Prod.fst).Nodup ∧ ∀ field ∈ fields, wellFormed field.2 = true := by
  simp only [wellFormed, Bool.and_eq_true, decide_eq_true_eq, wellFormedFields_iff] at formed
  exact ⟨formed.1.imp fun less => ne_of_lt less, formed.2⟩

theorem wellFormed_get {v w : Value} {key : String} (formed : v.wellFormed = true)
    (found : v.get key = some w) : w.wellFormed = true := by
  cases v with
  | object fields => exact (wellFormed_object formed).2 _ (mem_of_lookup found)
  | _ => cases found

end Value

end McpTracer.Json
