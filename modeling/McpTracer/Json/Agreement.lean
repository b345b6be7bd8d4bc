import McpTracer.Foundation.Assoc
import McpTracer.Foundation.Pointwise
import McpTracer.Json.Value

/-! Equality of trees up to unknown positions, and masking.

Two trees agree when they are equal except below positions where one of them is
unknown. A masked tree arises by putting one value in the place of subtrees. A
masked tree agrees with its original when the mask counts as unknown.
-/

set_option autoImplicit false

namespace McpTracer.Json
open McpTracer.Foundation

/-- Equality up to positions where either side is unknown. Members are compared by key. -/
inductive Agrees (unknown : Value → Bool) : Value → Value → Prop where
  | left {v : Value} (w : Value) (hidden : unknown v = true) : Agrees unknown v w
  | right (v : Value) {w : Value} (hidden : unknown w = true) : Agrees unknown v w
  | leaf {v w : Value} (noArray : v.isArray = false) (noObject : v.isObject = false)
      (same : v.beq w = true) : Agrees unknown v w
  | array {xs ys : List Value} (length : xs.length = ys.length)
      (items : ∀ (n : Nat) (x y : Value), xs[n]? = some x → ys[n]? = some y → Agrees unknown x y) :
      Agrees unknown (.array xs) (.array ys)
  | object {fs gs : List (String × Value)}
      (keys : ∀ key, (fs.lookup key).isSome = (gs.lookup key).isSome)
      (members : ∀ (key : String) (x y : Value), fs.lookup key = some x → gs.lookup key = some y →
        Agrees unknown x y) : Agrees unknown (.object fs) (.object gs)

/-- The second tree is the first with `mask` put in the place of some subtrees. -/
inductive Masks (mask : Value) : Value → Value → Prop where
  | masked (v : Value) : Masks mask v mask
  | leaf (v : Value) (noArray : v.isArray = false) (noObject : v.isObject = false) : Masks mask v v
  | array {xs ys : List Value} (length : xs.length = ys.length)
      (items : ∀ (n : Nat) (x y : Value), xs[n]? = some x → ys[n]? = some y → Masks mask x y) :
      Masks mask (.array xs) (.array ys)
  | object {fs gs : List (String × Value)} (keys : fs.map Prod.fst = gs.map Prod.fst)
      (members : ∀ (n : Nat) (f g : String × Value), fs[n]? = some f → gs[n]? = some g →
        Masks mask f.2 g.2) : Masks mask (.object fs) (.object gs)

namespace Agrees

theorem refl (unknown : Value → Bool) (v : Value) : Agrees unknown v v := by
  induction v using Value.children with
  | array items ih =>
      refine .array rfl fun n x y left right => ?_
      obtain rfl : x = y := Option.some.inj (left.symm.trans right)
      exact ih x (List.mem_of_getElem? left)
  | object fields ih =>
      refine .object (fun _ => rfl) fun key x y left right => ?_
      obtain rfl : x = y := Option.some.inj (left.symm.trans right)
      exact ih (key, x) (mem_of_lookup left)
  | null => exact .leaf rfl rfl (Value.beq_self _)
  | bool b => exact .leaf rfl rfl (Value.beq_self _)
  | number n => exact .leaf rfl rfl (Value.beq_self _)
  | string s => exact .leaf rfl rfl (Value.beq_self _)

theorem leaf_symm {v w : Value} (noArray : v.isArray = false) (noObject : v.isObject = false)
    (same : v.beq w = true) : w.isArray = false ∧ w.isObject = false := by
  cases v <;> cases w <;> simp_all [Value.beq, Value.isArray, Value.isObject]

theorem symm {unknown : Value → Bool} {v w : Value} (agrees : Agrees unknown v w) :
    Agrees unknown w v := by
  induction agrees with
  | left w hidden => exact .right w hidden
  | right v hidden => exact .left v hidden
  | leaf noArray noObject same =>
      obtain ⟨plain, closed⟩ := leaf_symm noArray noObject same
      exact .leaf plain closed (Value.beq_symm same)
  | array length _ ih => exact .array length.symm fun n x y left right => ih n y x right left
  | object keys _ ih =>
      exact .object (fun key => (keys key).symm) fun key x y left right => ih key y x right left

end Agrees

namespace Masks

theorem refl (mask v : Value) : Masks mask v v := by
  induction v using Value.children with
  | array items ih =>
      refine .array rfl fun n x y left right => ?_
      obtain rfl : x = y := Option.some.inj (left.symm.trans right)
      exact ih x (List.mem_of_getElem? left)
  | object fields ih =>
      refine .object rfl fun n f g left right => ?_
      obtain rfl : f = g := Option.some.inj (left.symm.trans right)
      exact ih f (List.mem_of_getElem? left)
  | null => exact .leaf _ rfl rfl
  | bool b => exact .leaf _ rfl rfl
  | number n => exact .leaf _ rfl rfl
  | string s => exact .leaf _ rfl rfl

theorem array_of_forall₂ {mask : Value} {xs ys : List Value} (related : List.Forall₂ (Masks mask) xs ys) :
    Masks mask (.array xs) (.array ys) :=
  .array (forall₂_iff_getElem?.mp related).1 (forall₂_iff_getElem?.mp related).2

theorem object_of_forall₂ {mask : Value} {fs gs : List (String × Value)}
    (related : List.Forall₂ (fun f g => f.1 = g.1 ∧ Masks mask f.2 g.2) fs gs) :
    Masks mask (.object fs) (.object gs) := by
  refine .object ?_ fun n f g left right => ((forall₂_iff_getElem?.mp related).2 n f g left right).2
  exact map_eq_map_iff_forall₂.mpr (related.imp fun _ _ both => both.1)

/-- A masked tree agrees with its original. -/
theorem agrees {unknown : Value → Bool} {mask v w : Value} (hidden : unknown mask = true)
    (masks : Masks mask v w) : Agrees unknown v w := by
  induction masks with
  | masked v => exact .right v hidden
  | leaf v noArray noObject => exact .leaf noArray noObject (Value.beq_self v)
  | array length _ ih => exact .array length ih
  | object keys _ ih =>
      refine .object (fun key => ?_) fun key x y left right => ?_
      · rw [Bool.eq_iff_iff, lookup_isSome_iff, lookup_isSome_iff, keys]
      · obtain ⟨n, here, there⟩ := lookup_aligned keys left right
        exact ih n _ _ here there

end Masks

end McpTracer.Json
