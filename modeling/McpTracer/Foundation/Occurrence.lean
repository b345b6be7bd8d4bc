import McpTracer.Foundation.Table

/-! Numbering the occurrences of a label along a list.

A loop that keeps a counter for each label tags an element with its label and
the number of earlier elements under it. The tags are pairwise distinct, and an
element's tag is its position among the elements that share its label. Written
as text, label and number can be read back: the last separator is the written one.
-/

set_option autoImplicit false

namespace McpTracer.Foundation.Occurrence

variable {A B : Type} [DecidableEq B]

/-- Elements without a label are skipped. -/
def tagFrom (label : A → Option B) (counts : Table B Nat) : List A → List ((B × Nat) × A)
  | [] => []
  | x :: rest =>
    match label x with
    | none => tagFrom label counts rest
    | some b =>
      let ordinal := (counts b).getD 0
      ((b, ordinal), x) :: tagFrom label (counts.insert b (ordinal + 1)) rest

def tag (label : A → Option B) (xs : List A) : List ((B × Nat) × A) :=
  tagFrom label Table.empty xs

/-- The elements under one label, in order. -/
def labelled (label : A → Option B) (b : B) (xs : List A) : List A :=
  xs.filter fun x => label x = some b

theorem mem_tagFrom_iff (label : A → Option B) (counts : Table B Nat) (xs : List A) (b : B)
    (n : Nat) (x : A) :
    ((b, n), x) ∈ tagFrom label counts xs ↔
      (counts b).getD 0 ≤ n ∧ (labelled label b xs)[n - (counts b).getD 0]? = some x := by
  induction xs generalizing counts with
  | nil => simp [tagFrom, labelled]
  | cons y rest ih =>
      cases found : label y with
      | none => simp [tagFrom, labelled, found, ih]
      | some c =>
          by_cases same : c = b
          · subst same
            simp only [tagFrom, found, List.mem_cons, Prod.mk.injEq, true_and, ih,
              Table.insert_same, Option.getD_some, labelled, List.filter_cons, decide_true, if_true]
            rcases Nat.lt_trichotomy ((counts c).getD 0) n with less | equal | greater
            · obtain ⟨k, step⟩ : ∃ k, n - (counts c).getD 0 = k + 1 := ⟨n - (counts c).getD 0 - 1, by omega⟩
              have before : n - ((counts c).getD 0 + 1) = k := by omega
              have distinct : n ≠ (counts c).getD 0 := by omega
              simp [step, before, distinct, Nat.le_of_lt less, Nat.succ_le_of_lt less]
            · subst equal
              simp [Nat.not_succ_le_self, eq_comm]
            · have distinct : n ≠ (counts c).getD 0 := by omega
              simp [distinct, Nat.not_le.mpr greater, Nat.not_le.mpr (Nat.lt_succ_of_lt greater)]
          · have other := Table.insert_other counts ((counts c).getD 0 + 1) (Ne.symm same)
            have notHead : b ≠ c := Ne.symm same
            simp [tagFrom, labelled, found, ih, other, same, notHead]

/-- An element's ordinal is its position among the elements with its label. -/
theorem mem_tag_iff (label : A → Option B) (xs : List A) (b : B) (n : Nat) (x : A) :
    ((b, n), x) ∈ tag label xs ↔ (labelled label b xs)[n]? = some x := by
  rw [tag, mem_tagFrom_iff]
  simp [Table.empty]

theorem tagFrom_nodup (label : A → Option B) (counts : Table B Nat) (xs : List A) :
    ((tagFrom label counts xs).map Prod.fst).Nodup := by
  induction xs generalizing counts with
  | nil => simp [tagFrom]
  | cons y rest ih =>
      cases found : label y with
      | none => simpa [tagFrom, found] using ih counts
      | some c =>
          simp only [tagFrom, found, List.map_cons, List.nodup_cons]
          refine ⟨fun member => ?_, ih _⟩
          obtain ⟨⟨⟨b, n⟩, x⟩, later, same⟩ := List.mem_map.mp member
          obtain ⟨rfl, rfl⟩ := Prod.mk.inj same
          have past := ((mem_tagFrom_iff ..).mp later).1
          simp only [Table.insert_same, Option.getD_some] at past
          exact Nat.not_succ_le_self _ past

theorem tag_nodup (label : A → Option B) (xs : List A) : ((tag label xs).map Prod.fst).Nodup :=
  tagFrom_nodup label Table.empty xs

theorem tagFrom_map_snd (label : A → Option B) (counts : Table B Nat) (xs : List A) :
    (tagFrom label counts xs).map Prod.snd = xs.filter fun x => (label x).isSome := by
  induction xs generalizing counts with
  | nil => rfl
  | cons y rest ih => cases found : label y <;> simp [tagFrom, found, ih]

/-- The entry at a position is numbered by the earlier entries under its label. -/
theorem tagFrom_getElem? (label : A → Option B) (counts : Table B Nat) (xs : List A) (i : Nat) (b : B)
    (n : Nat) (x : A) (here : (tagFrom label counts xs)[i]? = some ((b, n), x)) :
    label x = some b ∧ n = (counts b).getD 0 +
      (((tagFrom label counts xs).map Prod.snd).take i).countP fun y => label y = some b := by
  induction xs generalizing counts i with
  | nil => simp [tagFrom] at here
  | cons y rest ih =>
      cases found : label y with
      | none =>
          simp only [tagFrom, found] at here ⊢
          exact ih counts i here
      | some c =>
          simp only [tagFrom, found] at here ⊢
          cases i with
          | zero =>
              simp only [List.getElem?_cons_zero, Option.some.injEq, Prod.mk.injEq] at here
              obtain ⟨⟨rfl, rfl⟩, rfl⟩ := here
              exact ⟨found, by simp⟩
          | succ i =>
              obtain ⟨own, number⟩ := ih _ i (by simpa using here)
              refine ⟨own, ?_⟩
              by_cases same : c = b
              · subst same
                simp only [Table.insert_same, Option.getD_some] at number
                simp only [List.map_cons, List.take_succ_cons, List.countP_cons, found, decide_true,
                  if_true]
                omega
              · rw [Table.insert_other _ _ (Ne.symm same)] at number
                simpa [List.countP_cons, found, same] using number

theorem tag_getElem? (label : A → Option B) (xs : List A) (i : Nat) (b : B) (n : Nat) (x : A)
    (here : (tag label xs)[i]? = some ((b, n), x)) : label x = some b ∧
      n = (((tag label xs).map Prod.snd).take i).countP fun y => label y = some b := by
  simpa [tag, Table.empty] using tagFrom_getElem? label Table.empty xs i b n x here

/-- The elements under one label, read off the tagged list. -/
theorem labelled_eq_filter_tag (label : A → Option B) (b : B) (xs : List A) :
    labelled label b xs = ((tag label xs).map Prod.snd).filter fun x => label x = some b := by
  rw [tag, tagFrom_map_snd, List.filter_filter, labelled]
  refine List.filter_congr fun x _ => ?_
  cases label x <;> simp

/-- Where a label is read from a part of an element, the labelled elements have the labelled parts. -/
theorem labelled_parts {R : Type} {label : A → Option B} {part : A → Option R} {g : R → Option B}
    {xs : List A} (through : ∀ x ∈ xs, label x = (part x).bind g) (b : B) :
    (labelled label b xs).map part = (labelled g b (xs.filterMap part)).map some := by
  induction xs with
  | nil => rfl
  | cons x rest ih =>
    obtain ⟨here, later⟩ := List.forall_mem_cons.1 through
    specialize ih later
    unfold labelled at ih ⊢
    cases found : part x with
    | none => simpa [here, found] using ih
    | some r =>
      by_cases same : g r = some b
      · simpa [here, found, same] using ih
      · simpa [here, found, same] using ih

/-- The elements with the label before a position are the first ones with the label. -/
theorem filter_take {α : Type} (keep : α → Bool) (xs : List α) (i : Nat) :
    (xs.take i).filter keep = (xs.filter keep).take ((xs.take i).countP keep) := by
  conv_rhs => rw [← List.take_append_drop i xs, List.filter_append]
  rw [List.take_append_drop, List.countP_eq_length_filter, List.take_left']
  rfl

/-! ## Tags as text -/

/-- `label#ordinal`. -/
def render (tag : String × Nat) : String := tag.1 ++ "#" ++ toString tag.2

/-- A separator that neither suffix contains splits a list at its last occurrence. -/
theorem split_last {α : Type} {sep : α} {left right before after : List α}
    (same : left ++ sep :: before = right ++ sep :: after)
    (freshBefore : sep ∉ before) (freshAfter : sep ∉ after) : left = right ∧ before = after := by
  rcases List.append_eq_append_iff.mp same with ⟨middle, rfl, rest⟩ | ⟨middle, rfl, rest⟩
  · cases middle with
    | nil => exact ⟨by simp, by simpa using rest⟩
    | cons first tail =>
        have inside : sep ∈ before := by
          rw [(List.cons.inj rest).2]
          simp
        exact absurd inside freshBefore
  · cases middle with
    | nil => exact ⟨by simp, by simpa using rest.symm⟩
    | cons first tail =>
        have inside : sep ∈ after := by
          rw [(List.cons.inj rest).2]
          simp
        exact absurd inside freshAfter

theorem render_injective : Function.Injective render := by
  rintro ⟨b, m⟩ ⟨c, n⟩ same
  have fresh : ∀ k : Nat, '#' ∉ (toString k).toList := by
    intro k member
    rw [Nat.toString_eq_repr, Nat.toList_repr] at member
    exact absurd (Nat.isDigit_of_mem_toDigits (by decide) (by decide) member) (by decide)
  have texts : b.toList ++ '#' :: (toString m).toList = c.toList ++ '#' :: (toString n).toList := by
    simpa [render] using congrArg String.toList same
  obtain ⟨labels, digits⟩ := split_last texts (fresh m) (fresh n)
  have numbers : m = n := by
    rw [Nat.toString_eq_repr, Nat.toString_eq_repr, Nat.toList_repr, Nat.toList_repr] at digits
    simpa using congrArg (Nat.ofDigitChars 10 · 0) digits
  rw [String.toList_injective labels, numbers]

/-- The elements under the texts of their tags. -/
def keyed (label : A → Option String) (xs : List A) : List (String × A) :=
  (tag label xs).map fun tagged => (render tagged.1, tagged.2)

theorem keyed_nodup (label : A → Option String) (xs : List A) :
    ((keyed label xs).map Prod.fst).Nodup := by
  have distinct := (tag_nodup label xs).map render_injective
  simpa [keyed, List.map_map, Function.comp_def] using distinct

theorem exists_keyed_iff (label : A → Option String) (xs : List A) (x : A) :
    (∃ key, (key, x) ∈ keyed label xs) ↔ x ∈ xs ∧ (label x).isSome = true := by
  have kept : x ∈ (tag label xs).map Prod.snd ↔ x ∈ xs ∧ (label x).isSome = true := by
    rw [tag, tagFrom_map_snd, List.mem_filter]
  rw [← kept]
  simp only [keyed, List.mem_map, Prod.mk.injEq]
  exact ⟨fun ⟨_, tagged, member, _, same⟩ => ⟨tagged, member, same⟩,
    fun ⟨tagged, member, same⟩ => ⟨_, tagged, member, rfl, same⟩⟩

theorem keyed_filter (label : A → Option String) (xs : List A) :
    keyed label (xs.filter fun x => (label x).isSome) = keyed label xs := by
  have tagged (counts : Table String Nat) : tagFrom label counts (xs.filter fun x => (label x).isSome) =
      tagFrom label counts xs := by
    induction xs generalizing counts with
    | nil => rfl
    | cons x rest ih => cases found : label x <;> simp [tagFrom, found, ih]
  rw [keyed, tag, tagged]
  rfl

theorem length_keyed (label : A → Option String) (xs : List A) :
    (keyed label xs).length = (xs.filter fun x => (label x).isSome).length := by
  rw [← tagFrom_map_snd label Table.empty xs, keyed, List.length_map, List.length_map]
  rfl

theorem keyed_eq_nil_iff (label : A → Option String) (xs : List A) :
    keyed label xs = [] ↔ ∀ x ∈ xs, label x = none := by
  rw [← List.length_eq_zero_iff, length_keyed, List.length_eq_zero_iff, List.filter_eq_nil_iff]
  simp only [Bool.not_eq_true, Option.isSome_eq_false_iff, Option.isNone_iff_eq_none]

/-! ## Two lists side by side -/

section Pairs
variable {C : Type} {label : A → Option B} {other : C → Option B}

theorem tagFrom_map (f : C → A) (counts : Table B Nat) (xs : List C) :
    tagFrom label counts (xs.map f) =
      (tagFrom (fun x => label (f x)) counts xs).map fun tagged => (tagged.1, f tagged.2) := by
  induction xs generalizing counts with
  | nil => rfl
  | cons x rest ih => cases found : label (f x) <;> simp [tagFrom, found, ih]

theorem tagFrom_congr {label other : A → Option B} (counts : Table B Nat) {xs : List A}
    (same : ∀ x ∈ xs, label x = other x) : tagFrom label counts xs = tagFrom other counts xs := by
  induction xs generalizing counts with
  | nil => rfl
  | cons x rest ih =>
      have later := fun counts => ih counts fun y member => same y (List.mem_cons_of_mem _ member)
      rw [tagFrom, tagFrom, same x List.mem_cons_self]
      cases other x <;> simp [later]

/-- Lists of one label sequence are tagged as the list of their pairs. -/
theorem tag_pairs {pairs : List (A × C)} (same : ∀ pair ∈ pairs, label pair.1 = other pair.2) :
    tag other (pairs.map Prod.snd) =
      (tag (fun pair => label pair.1) pairs).map fun tagged => (tagged.1, tagged.2.2) := by
  rw [tag, tagFrom_map, ← tagFrom_congr _ same]
  rfl

end Pairs

section KeyedPairs
variable {C : Type} {label : A → Option String} {other : C → Option String} {pairs : List (A × C)}

/-- Lists of one label sequence have one key sequence. -/
theorem keyed_pairs_keys (same : ∀ pair ∈ pairs, label pair.1 = other pair.2) :
    (keyed label (pairs.map Prod.fst)).map Prod.fst = (keyed other (pairs.map Prod.snd)).map Prod.fst := by
  rw [keyed, keyed, tag_pairs same, tag, tagFrom_map]
  simp [Function.comp_def, tag]

/-- Under one key stand the two sides of a pair. -/
theorem keyed_pairs_iff (same : ∀ pair ∈ pairs, label pair.1 = other pair.2) (a : A) (c : C) :
    (∃ key, (key, a) ∈ keyed label (pairs.map Prod.fst) ∧ (key, c) ∈ keyed other (pairs.map Prod.snd)) ↔
      (a, c) ∈ pairs ∧ (label a).isSome = true := by
  have left : keyed label (pairs.map Prod.fst) =
      (keyed (fun pair : A × C => label pair.1) pairs).map fun entry => (entry.1, entry.2.1) := by
    simp [keyed, tag, tagFrom_map, Function.comp_def]
  have right : keyed other (pairs.map Prod.snd) =
      (keyed (fun pair : A × C => label pair.1) pairs).map fun entry => (entry.1, entry.2.2) := by
    simp [keyed, tag_pairs same, Function.comp_def]
  rw [← exists_keyed_iff (fun pair : A × C => label pair.1) pairs (a, c), left, right]
  constructor
  · rintro ⟨key, inA, inC⟩
    obtain ⟨⟨k, x, y⟩, here, sameA⟩ := List.mem_map.mp inA
    obtain ⟨⟨l, u, v⟩, there, sameC⟩ := List.mem_map.mp inC
    obtain ⟨rfl, rfl⟩ := Prod.mk.inj sameA
    obtain ⟨rfl, rfl⟩ := Prod.mk.inj sameC
    have one := List.inj_on_of_nodup_map (keyed_nodup _ pairs) here there rfl
    obtain ⟨rfl, rfl⟩ : x = u ∧ y = v := by simpa using one
    exact ⟨_, here⟩
  · rintro ⟨key, member⟩
    exact ⟨key, List.mem_map_of_mem (f := fun entry : String × A × C => (entry.1, entry.2.1)) member,
      List.mem_map_of_mem (f := fun entry : String × A × C => (entry.1, entry.2.2)) member⟩

end KeyedPairs

end McpTracer.Foundation.Occurrence
