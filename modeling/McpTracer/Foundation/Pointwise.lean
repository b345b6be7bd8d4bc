import Mathlib.Data.List.Forall2
import Mathlib.Data.List.Sort

/-! Lists and optional values related position by position.

A pair of related lists is one list of pairs. Appending, changing one position
and sorting by a common key act on the list of pairs, and a list with its image
is such a pair. Related optional values are both there or both absent.
-/

set_option autoImplicit false

namespace McpTracer.Foundation

variable {A B : Type} {R : A → B → Prop}

/-- Related lists, position by position. -/
theorem forall₂_iff_getElem? {xs : List A} {ys : List B} :
    List.Forall₂ R xs ys ↔ xs.length = ys.length ∧
      ∀ (n : Nat) (x : A) (y : B), xs[n]? = some x → ys[n]? = some y → R x y := by
  induction xs generalizing ys with
  | nil => cases ys <;> simp
  | cons x xs ih =>
      cases ys with
      | nil => simp
      | cons y ys =>
          rw [List.forall₂_cons, ih]
          constructor
          · rintro ⟨head, length, tail⟩
            refine ⟨by simpa using length, fun n a b left right => ?_⟩
            cases n with
            | zero =>
                obtain rfl : x = a := by simpa using left
                obtain rfl : y = b := by simpa using right
                exact head
            | succ n => exact tail n a b (by simpa using left) (by simpa using right)
          · rintro ⟨length, items⟩
            exact ⟨items 0 x y rfl rfl, by simpa using length, fun n a b left right =>
              items (n + 1) a b (by simpa using left) (by simpa using right)⟩

theorem exists_of_forall₂_right {xs : List A} {ys : List B} (related : List.Forall₂ R xs ys) {y : B}
    (member : y ∈ ys) : ∃ x ∈ xs, R x y := by
  induction related with
  | nil => cases member
  | @cons x head xs ys first _ ih =>
    rcases List.mem_cons.mp member with rfl | later
    · exact ⟨x, List.mem_cons_self, first⟩
    · obtain ⟨found, inside, holds⟩ := ih later
      exact ⟨found, List.mem_cons_of_mem _ inside, holds⟩

/-- A relation that reaches every element of a list reaches the list. -/
theorem exists_forall₂ {xs : List A} (each : ∀ x ∈ xs, ∃ y, R x y) : ∃ ys, List.Forall₂ R xs ys := by
  induction xs with
  | nil => exact ⟨[], .nil⟩
  | cons x rest ih =>
    obtain ⟨⟨y, first⟩, others⟩ := List.forall_mem_cons.1 each
    obtain ⟨ys, related⟩ := ih others
    exact ⟨y :: ys, .cons first related⟩

/-- Lists related to a common one are related to each other. -/
theorem forall₂_common {C : Type} {S : A → C → Prop} {T : B → C → Prop}
    (both : ∀ a b c, R a b → S a c → T b c) {xs : List A} {ys : List B} {zs : List C}
    (left : List.Forall₂ R xs ys) (right : List.Forall₂ S xs zs) : List.Forall₂ T ys zs := by
  induction left generalizing zs with
  | nil =>
    cases right
    exact .nil
  | cons first _ ih =>
    cases right with
    | cons second rest => exact .cons (both _ _ _ first second) (ih rest)

theorem forall₂_concat {xs : List A} {ys : List B} {x : A} {y : B} (length : xs.length = ys.length) :
    List.Forall₂ R (xs ++ [x]) (ys ++ [y]) ↔ List.Forall₂ R xs ys ∧ R x y := by
  constructor
  · intro related
    have front := List.forall₂_take_append _ ys [y] related
    have last := List.forall₂_drop_append _ ys [y] related
    rw [← length, List.take_left] at front
    rw [← length, List.drop_left] at last
    exact ⟨front, (List.forall₂_cons.mp last).1⟩
  · rintro ⟨related, last⟩
    exact List.rel_append related (.cons last .nil)

/-- A list related to one with a place in it has a place there as well. -/
theorem forall₂_split {before after : List A} {x : A} {ys : List B}
    (related : List.Forall₂ R (before ++ x :: after) ys) : ∃ front y back, ys = front ++ y :: back ∧
      List.Forall₂ R before front ∧ R x y ∧ List.Forall₂ R after back := by
  induction before generalizing ys with
  | nil =>
      cases related with
      | @cons _ y _ back here rest => exact ⟨[], y, back, rfl, .nil, here, rest⟩
  | cons head before ih =>
      cases related with
      | @cons _ first _ ys here rest =>
          obtain ⟨front, y, back, rfl, left, same, right⟩ := ih rest
          exact ⟨first :: front, y, back, rfl, .cons here left, same, right⟩

/-- Changing one position of related lists leaves them related when the new elements are. -/
theorem forall₂_modify_iff {xs : List A} {ys : List B} {index : Nat} {x : A} {y : B}
    (left : xs[index]? = some x) (right : ys[index]? = some y) (before : R x y)
    (change : A → A) (alter : B → B) :
    List.Forall₂ R (xs.modify index change) (ys.modify index alter) ↔
      List.Forall₂ R xs ys ∧ R (change x) (alter y) := by
  simp only [forall₂_iff_getElem?, List.length_modify, List.getElem?_modify]
  constructor
  · rintro ⟨length, related⟩
    refine ⟨⟨length, fun n a b here there => ?_⟩, ?_⟩
    · by_cases same : index = n
      · subst same
        obtain rfl := Option.some.inj (left.symm.trans here)
        obtain rfl := Option.some.inj (right.symm.trans there)
        exact before
      · exact related n a b (by simp [same, here]) (by simp [same, there])
    · exact related index _ _ (by simp [left]) (by simp [right])
  · rintro ⟨⟨length, related⟩, after⟩
    refine ⟨length, fun n a b here there => ?_⟩
    by_cases same : index = n
    · subst same
      obtain rfl : change x = a := by simpa [left] using here
      obtain rfl : alter y = b := by simpa [right] using there
      exact after
    · exact related n a b (by simpa [same] using here) (by simpa [same] using there)

/-- Related lists are the two sides of one list of related pairs. -/
theorem exists_pairs {xs : List A} {ys : List B} (related : List.Forall₂ R xs ys) :
    ∃ pairs : List (A × B), pairs.map Prod.fst = xs ∧ pairs.map Prod.snd = ys ∧
      ∀ pair ∈ pairs, R pair.1 pair.2 :=
  ⟨xs.zip ys, List.map_fst_zip related.length_eq.le, List.map_snd_zip related.length_eq.ge,
    fun _ member => (List.forall₂_iff_zip.mp related).2 member⟩

theorem forall₂_pairs (pairs : List (A × B)) :
    List.Forall₂ R (pairs.map Prod.fst) (pairs.map Prod.snd) ↔ ∀ pair ∈ pairs, R pair.1 pair.2 := by
  rw [List.forall₂_map_left_iff, List.forall₂_map_right_iff, List.forall₂_same]

/-- Sorting both sides by a common order sorts the pairs. -/
theorem map_insertionSort_pairs {r : A → A → Prop} {s : B → B → Prop} [DecidableRel r] [DecidableRel s]
    (pairs : List (A × B))
    (common : ∀ p ∈ pairs, ∀ q ∈ pairs, r p.1 q.1 ↔ s p.2 q.2) :
    ∃ sorted : List (A × B), sorted.Perm pairs ∧
      sorted.map Prod.fst = (pairs.map Prod.fst).insertionSort r ∧
      sorted.map Prod.snd = (pairs.map Prod.snd).insertionSort s :=
  ⟨pairs.insertionSort fun p q => r p.1 q.1, List.perm_insertionSort _ _,
    List.map_insertionSort _ _ _ _ fun _ _ _ _ => Iff.rfl,
    List.map_insertionSort _ _ _ _ common⟩

/-! ## Images of lists -/

section Images
variable {C : Type}

theorem map_eq_map_iff_forall₂ {f : A → C} {g : B → C} {xs : List A} {ys : List B} :
    xs.map f = ys.map g ↔ List.Forall₂ (fun x y => f x = g y) xs ys := by
  rw [← List.forall₂_eq_eq_eq, List.forall₂_map_left_iff, List.forall₂_map_right_iff]

/-- Lists related position by position have equal images under maps that agree on related elements. -/
theorem map_eq_map_of_zip {f : A → C} {g : B → C} {xs : List A} {ys : List B}
    (length : xs.length = ys.length) (agree : ∀ pair ∈ xs.zip ys, f pair.1 = g pair.2) :
    xs.map f = ys.map g :=
  map_eq_map_iff_forall₂.mpr (List.forall₂_iff_zip.mpr ⟨length, fun member => agree _ member⟩)

/-- Lists of one key sequence, with values that are related position by position. -/
theorem forall₂_of_keys {fs : List (C × A)} {gs : List (C × B)}
    (keys : fs.map Prod.fst = gs.map Prod.fst)
    (values : ∀ (n : Nat) (f : C × A) (g : C × B), fs[n]? = some f → gs[n]? = some g → R f.2 g.2) :
    List.Forall₂ (fun f g => f.1 = g.1 ∧ R f.2 g.2) fs gs := by
  obtain ⟨length, same⟩ := forall₂_iff_getElem?.mp (map_eq_map_iff_forall₂.mp keys)
  exact forall₂_iff_getElem?.mpr ⟨length, fun n f g left right =>
    ⟨same n f g left right, values n f g left right⟩⟩

/-- Every pair of a list with its own image is an element with its image. -/
theorem eq_of_mem_zip_map {f : A → B} {xs : List A} {pair : A × B}
    (member : pair ∈ xs.zip (xs.map f)) : pair.1 ∈ xs ∧ pair.2 = f pair.1 := by
  rw [List.zip_map_right, List.mem_map] at member
  obtain ⟨⟨x, y⟩, both, rfl⟩ := member
  obtain ⟨found, same⟩ : x ∈ xs ∧ x = y := by
    simpa [List.zip_eq_zipWith, List.zipWith_self, and_comm, eq_comm] using both
  exact ⟨found, same ▸ rfl⟩

/-- Pairing a list of images with the arguments they were made with. -/
theorem of_mem_zip_zipWith {f : A → B → C} {xs : List A} {ys : List B} {pair : C × B}
    (member : pair ∈ (List.zipWith f xs ys).zip ys) : ∃ x, pair.1 = f x pair.2 := by
  induction xs generalizing ys with
  | nil => simp at member
  | cons x xs ih =>
      cases ys with
      | nil => simp at member
      | cons y ys =>
          rcases List.mem_cons.mp member with rfl | later
          · exact ⟨x, rfl⟩
          · exact ih later

theorem modify_append_cons (front : List A) (x : A) (back : List A) (change : A → A) :
    (front ++ x :: back).modify front.length change = front ++ change x :: back := by
  induction front with
  | nil => rfl
  | cons y front ih => simp [ih]

/-- Replacing one element adds the new value, and loses no other value than the old one. -/
theorem mem_map_modify {image : A → B} {change : A → A} {xs : List A} {index : Nat}
    {old : A} (found : xs[index]? = some old) {value : B} (differs : value ≠ image old) :
    value ∈ (xs.modify index change).map image ↔ value ∈ xs.map image ∨ value = image (change old) := by
  simp only [List.mem_iff_getElem?, List.getElem?_map, List.getElem?_modify]
  constructor
  · rintro ⟨position, here⟩
    split_ifs at here with same
    · subst same
      exact .inr (by simpa [found, eq_comm] using here)
    · exact .inl ⟨position, by simpa using here⟩
  · rintro (⟨position, here⟩ | rfl)
    · refine ⟨position, ?_⟩
      by_cases same : index = position
      · subst same
        exact absurd (by simpa [found, eq_comm] using here) differs
      · simpa [same] using here
    · exact ⟨index, by simp [found]⟩

/-- A change that an image does not see leaves the images as they are. -/
theorem map_modify_kept {image : A → B} {change : A → A} (kept : ∀ x, image (change x) = image x)
    (xs : List A) (index : Nat) : (xs.modify index change).map image = xs.map image := by
  refine List.ext_getElem? fun position => ?_
  rw [List.getElem?_map, List.getElem?_modify, List.getElem?_map]
  split_ifs
  · cases xs[position]? <;> simp [kept]
  · simp

theorem filterMap_modify_kept {f : A → Option B} {change : A → A} (kept : ∀ x, f (change x) = f x)
    (xs : List A) (index : Nat) : (xs.modify index change).filterMap f = xs.filterMap f := by
  have images := congrArg (List.filterMap id) (map_modify_kept kept xs index)
  simpa only [List.filterMap_map, Function.id_comp] using images

/-- An element that gives nothing starts to give a value, and the others give what they gave. -/
theorem filterMap_modify_gained {f : A → Option B} {change : A → A} {xs : List A} {index : Nat} {old : A}
    {value : B} (found : xs[index]? = some old) (before : f old = none)
    (after : f (change old) = some value) :
    ((xs.modify index change).filterMap f).Perm (value :: xs.filterMap f) := by
  obtain ⟨inside, rfl⟩ := List.getElem?_eq_some_iff.mp found
  have changed := List.modify_eq_take_cons_drop (f := change) inside
  have original := List.take_append_drop index xs
  rw [List.drop_eq_getElem_cons inside] at original
  rw [changed]
  conv_rhs => rw [← original]
  simp only [List.filterMap_append, List.filterMap_cons, before, after]
  exact List.perm_middle

theorem mem_modify {change : A → A} {xs : List A} {index : Nat} {old x : A}
    (found : xs[index]? = some old) (member : x ∈ xs.modify index change) : x ∈ xs ∨ x = change old := by
  obtain ⟨position, here⟩ := List.mem_iff_getElem?.mp member
  rw [List.getElem?_modify] at here
  by_cases same : index = position
  · subst same
    exact .inr (by simpa [found, eq_comm] using here)
  · exact .inl (List.mem_of_getElem? (by simpa [same] using here))

end Images

/-! ## Optional values -/

section Optional
variable {C D : Type} {S : C → D → Prop} {x : Option A} {y : Option B}

theorem option_rel_refl {R : A → A → Prop} (reflexive : ∀ a, R a a) (x : Option A) :
    Option.Rel R x x := by
  cases x with
  | none => exact .none
  | some a => exact .some (reflexive a)

theorem option_rel_symm {T : B → A → Prop} (related : Option.Rel R x y)
    (turned : ∀ a b, R a b → T b a) : Option.Rel T y x := by
  cases related with
  | none => exact .none
  | some same => exact .some (turned _ _ same)

theorem option_rel_imp {T : A → B → Prop} (related : Option.Rel R x y)
    (weaker : ∀ a b, R a b → T a b) : Option.Rel T x y := by
  cases related with
  | none => exact .none
  | some same => exact .some (weaker _ _ same)

/-- Reading related values gives related values when reading members does. -/
theorem option_rel_bind {f : A → Option C} {g : B → Option D} (related : Option.Rel R x y)
    (reads : ∀ a b, R a b → Option.Rel S (f a) (g b)) : Option.Rel S (x.bind f) (y.bind g) := by
  cases related with
  | none => exact .none
  | some same => exact reads _ _ same

theorem option_rel_map {f : A → C} {g : B → D} (related : Option.Rel R x y)
    (reads : ∀ a b, R a b → S (f a) (g b)) : Option.Rel S (x.map f) (y.map g) := by
  cases related with
  | none => exact .none
  | some same => exact .some (reads _ _ same)

theorem option_rel_getD {a : A} {b : B} (related : Option.Rel R x y) (absent : R a b) :
    R (x.getD a) (y.getD b) := by
  cases related with
  | none => exact absent
  | some same => exact same

theorem of_option_rel {a : A} {b : B} (related : Option.Rel R (some a) (some b)) : R a b := by
  cases related with
  | some same => exact same

theorem eq_of_option_rel {x y : Option A} (related : Option.Rel Eq x y) : x = y := by
  cases related with
  | none => rfl
  | some same => exact congrArg some same

end Optional

/-! ## Optional images of one list -/

/-- Elements that give one value are one element when no value is given twice. -/
theorem eq_of_filterMap_nodup {f : A → Option B} {xs : List A} (unique : (xs.filterMap f).Nodup) {x y : A}
    {value : B} (first : x ∈ xs) (second : y ∈ xs) (left : f x = some value) (right : f y = some value) :
    x = y := by
  induction xs with
  | nil => cases first
  | cons head rest ih =>
    have others : (rest.filterMap f).Nodup := by
      cases image : f head <;> simp_all
    have fresh {z : A} (later : z ∈ rest) (same : f z = some value) : f head ≠ some value := fun image => by
      have again : value ∈ rest.filterMap f := List.mem_filterMap.2 ⟨z, later, same⟩
      simp [image, again] at unique
    rcases List.mem_cons.1 first with rfl | firstLater <;> rcases List.mem_cons.1 second with rfl | secondLater
    · rfl
    · exact absurd left (fresh secondLater right)
    · exact absurd right (fresh firstLater left)
    · exact ih others firstLater secondLater

theorem filterMap_length_le {f g : A → Option B} {xs : List A}
    (fewer : ∀ x ∈ xs, g x = none → f x = none) :
    (xs.filterMap f).length ≤ (xs.filterMap g).length := by
  induction xs with
  | nil => simp
  | cons x xs ih =>
    have rest := ih fun y member => fewer y (List.mem_cons_of_mem x member)
    cases right : g x with
    | none =>
      have left : f x = none := fewer x List.mem_cons_self right
      simpa [List.filterMap_cons, left, right] using rest
    | some b =>
      cases left : f x with
      | none =>
        simp only [List.filterMap_cons, left, right, List.length_cons]
        omega
      | some a => simpa [List.filterMap_cons, left, right] using rest

/-- The images are one list only if they agree everywhere, when the first has no more of them. -/
theorem filterMap_eq_iff {f g : A → Option B} {xs : List A}
    (fewer : ∀ x ∈ xs, g x = none → f x = none) :
    xs.filterMap f = xs.filterMap g ↔ ∀ x ∈ xs, f x = g x := by
  refine ⟨fun same => ?_, fun agree => List.filterMap_congr agree⟩
  induction xs with
  | nil => simp
  | cons x xs ih =>
    have others : ∀ y ∈ xs, g y = none → f y = none := fun y member =>
      fewer y (List.mem_cons_of_mem x member)
    suffices agrees : f x = g x by
      rw [List.filterMap_cons, List.filterMap_cons, agrees] at same
      refine List.forall_mem_cons.2 ⟨agrees, ih others ?_⟩
      cases image : g x with
      | none => simpa [image] using same
      | some b => simpa [image] using same
    cases right : g x with
    | none => exact fewer x List.mem_cons_self right
    | some b =>
      cases left : f x with
      | some a =>
        simp only [List.filterMap_cons, left, right, List.cons.injEq] at same
        rw [same.1]
      | none =>
        -- The first image would be missing and the others cannot make up for it.
        have lengths := congrArg List.length same
        have bound := filterMap_length_le others
        simp only [List.filterMap_cons, left, right, List.length_cons] at lengths
        omega

end McpTracer.Foundation
