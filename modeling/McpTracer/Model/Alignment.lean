import McpTracer.Model.Diff

/-! What the alignment text says about two aligned exchanges.

Within a session the texts are pairwise distinct, since label and ordinal can be
read back. Across sessions the label is a flattening of origin, method and tool,
and an exchange is aligned with whatever stands at the same rank under it.
-/

set_option autoImplicit false

namespace McpTracer.Model
open McpTracer.Foundation McpTracer.Json McpTracer.Protocol McpTracer.Storage

theorem alignmentKeys_nodup (exchanges : List Exchange) :
    ((alignmentKeys exchanges).map Prod.fst).Nodup :=
  Occurrence.keyed_nodup alignmentBase exchanges

theorem notificationAlignmentKeys_nodup (messages : List StoredMessage) :
    ((notificationAlignmentKeys messages).map Prod.fst).Nodup :=
  Occurrence.keyed_nodup notificationBase messages

/-- What two aligned exchanges are meant to have in common. -/
def Exchange.call (exchange : Exchange) : Direction × Option String × Option String :=
  (exchange.origin, exchange.method, exchange.toolName)

/-- How many of the entries before a position are of this call. -/
def callOrdinal (keys : List (String × Exchange)) (position : Nat)
    (call : Direction × Option String × Option String) : Nat :=
  (keys.take position).countP fun entry => entry.2.call = call

/-- Aligned exchanges are of one call, at one ordinal of it, and keys are unique in a session. -/
def AlignsSameCalls (aKeys bKeys : List (String × Exchange)) : Prop :=
  (aKeys.map Prod.fst).Nodup ∧ (bKeys.map Prod.fst).Nodup ∧
    ∀ (i j : Nat) (key : String) (a b : Exchange), aKeys[i]? = some (key, a) →
      bKeys[j]? = some (key, b) →
      a.origin = b.origin ∧ a.method = b.method ∧ a.toolName = b.toolName ∧
        callOrdinal aKeys i a.call = callOrdinal bKeys j b.call

/-- Under every alignment text, the exchanges at one rank are of one call. -/
def SameCallsAtRanks (as bs : List Exchange) : Prop :=
  ∀ (base : String) (n : Nat) (a b : Exchange),
    (Occurrence.labelled alignmentBase base as)[n]? = some a →
    (Occurrence.labelled alignmentBase base bs)[n]? = some b → a.call = b.call

/-- An entry of the key list, as a tagged exchange. -/
theorem alignmentKeys_getElem? {exchanges : List Exchange} {i : Nat} {key : String}
    {exchange : Exchange} (here : (alignmentKeys exchanges)[i]? = some (key, exchange)) :
    ∃ base n, key = Occurrence.render (base, n) ∧
      (Occurrence.tag alignmentBase exchanges)[i]? = some ((base, n), exchange) := by
  rw [alignmentKeys, Occurrence.keyed, List.getElem?_map, Option.map_eq_some_iff] at here
  obtain ⟨⟨⟨base, n⟩, found⟩, tagged, same⟩ := here
  obtain ⟨rfl, rfl⟩ := Prod.mk.inj same
  exact ⟨base, n, rfl, tagged⟩

theorem alignmentBase_eq_of_call {a b : Exchange} {base : String} (same : a.call = b.call)
    (aBase : alignmentBase a = some base) (plain : b.status ≠ .orphanResponse) :
    alignmentBase b = some base := by
  simp only [Exchange.call, Prod.mk.injEq] at same
  obtain ⟨origin, method, tool⟩ := same
  unfold alignmentBase at aBase ⊢
  split_ifs at aBase with orphan
  rw [if_neg plain, ← origin, ← method, ← tool]
  exact aBase

/-- The ordinal of a call is its count among the exchanges under the alignment text. -/
theorem callOrdinal_eq {exchanges : List Exchange} {i n : Nat} {base : String} {exchange : Exchange}
    (tagged : (Occurrence.tag alignmentBase exchanges)[i]? = some ((base, n), exchange)) :
    callOrdinal (alignmentKeys exchanges) i exchange.call =
      ((Occurrence.labelled alignmentBase base exchanges).take n).countP
        fun other => other.call = exchange.call := by
  obtain ⟨own, number⟩ := Occurrence.tag_getElem? alignmentBase exchanges i base n exchange tagged
  set entries := (Occurrence.tag alignmentBase exchanges).map Prod.snd with entriesEq
  have ordinal : callOrdinal (alignmentKeys exchanges) i exchange.call =
      (entries.take i).countP fun other => other.call = exchange.call := by
    simp [callOrdinal, alignmentKeys, Occurrence.keyed, entriesEq, ← List.map_take, List.countP_map,
      Function.comp_def]
  rw [ordinal, Occurrence.labelled_eq_filter_tag, ← entriesEq, number, ← Occurrence.filter_take,
    List.countP_filter]
  refine List.countP_congr fun other member => ?_
  have participates : other.status ≠ .orphanResponse := by
    have inEntries := List.mem_of_mem_take member
    rw [entriesEq, Occurrence.tag, Occurrence.tagFrom_map_snd] at inEntries
    intro orphan
    simp [alignmentBase, orphan] at inEntries
  constructor
  · intro same
    have sameCall : other.call = exchange.call := by simpa using same
    simp [sameCall, alignmentBase_eq_of_call sameCall.symm own participates]
  · intro both
    simpa using (Bool.and_eq_true_iff.mp both).1

/-- Alignment joins exchanges of one call exactly when the alignment texts do at every rank. -/
theorem alignsSameCalls_iff (as bs : List Exchange) :
    AlignsSameCalls (alignmentKeys as) (alignmentKeys bs) ↔ SameCallsAtRanks as bs := by
  constructor
  · rintro ⟨-, -, same⟩ base n a b left right
    rw [← Occurrence.mem_tag_iff] at left right
    obtain ⟨i, aTagged⟩ := List.mem_iff_getElem?.mp left
    obtain ⟨j, bTagged⟩ := List.mem_iff_getElem?.mp right
    have aKey : (alignmentKeys as)[i]? = some (Occurrence.render (base, n), a) := by
      simp [alignmentKeys, Occurrence.keyed, aTagged]
    have bKey : (alignmentKeys bs)[j]? = some (Occurrence.render (base, n), b) := by
      simp [alignmentKeys, Occurrence.keyed, bTagged]
    obtain ⟨origin, method, tool, -⟩ := same i j _ a b aKey bKey
    simp [Exchange.call, origin, method, tool]
  · intro ranks
    refine ⟨alignmentKeys_nodup as, alignmentKeys_nodup bs, fun i j key a b left right => ?_⟩
    obtain ⟨base, n, rfl, aTagged⟩ := alignmentKeys_getElem? left
    obtain ⟨other, m, same, bTagged⟩ := alignmentKeys_getElem? right
    obtain ⟨rfl, rfl⟩ := Prod.mk.inj (Occurrence.render_injective same)
    have aRank := (Occurrence.mem_tag_iff ..).mp (List.mem_of_getElem? aTagged)
    have bRank := (Occurrence.mem_tag_iff ..).mp (List.mem_of_getElem? bTagged)
    have call := ranks base n a b aRank bRank
    have ordinals : callOrdinal (alignmentKeys as) i a.call = callOrdinal (alignmentKeys bs) j b.call := by
      rw [callOrdinal_eq aTagged, callOrdinal_eq bTagged, ← call]
      have calls : ((Occurrence.labelled alignmentBase base as).take n).map Exchange.call =
          ((Occurrence.labelled alignmentBase base bs).take n).map Exchange.call := by
        refine List.ext_getElem? fun position => ?_
        rw [List.getElem?_map, List.getElem?_map, List.getElem?_take, List.getElem?_take]
        split_ifs with before
        · have aInside := before.trans (List.getElem?_eq_some_iff.mp aRank).1
          have bInside := before.trans (List.getElem?_eq_some_iff.mp bRank).1
          rw [List.getElem?_eq_getElem aInside, List.getElem?_eq_getElem bInside]
          exact congrArg some (ranks base position _ _ (List.getElem?_eq_getElem aInside)
            (List.getElem?_eq_getElem bInside))
        · rfl
      have counted (exchanges : List Exchange) :
          exchanges.countP (fun other => other.call = a.call) =
            (exchanges.map Exchange.call).countP fun call => call = a.call := by
        rw [List.countP_map]
        rfl
      rw [counted, counted, calls]
    simp only [Exchange.call, Prod.mk.injEq] at call
    exact ⟨call.1, call.2.1, call.2.2, ordinals⟩

/-! ## Methods that flatten without confusion -/

/-- A method name without a blank and without the tag of server calls. -/
def PlainMethod (method : String) : Prop :=
  ' ' ∉ method.toList ∧ ¬ "server:".toList <+: method.toList

/-- The characters that follow the method in an alignment text. -/
def toolSuffix (tool : Option String) : List Char :=
  tool.elim [] fun name => ' ' :: name.toList

theorem alignmentBase_toList {exchange : Exchange} {base : String}
    (found : alignmentBase exchange = some base) : ∃ method, exchange.method = some method ∧
      base.toList = (originTag exchange.origin).toList ++ (method.toList ++ toolSuffix exchange.toolName) := by
  unfold alignmentBase at found
  split_ifs at found
  cases named : exchange.method with
  | none => simp [named] at found
  | some method =>
      cases tool : exchange.toolName <;> simp only [named, tool, Option.some.injEq] at found <;>
        exact ⟨method, rfl, by simp [← found, toolSuffix]⟩

/-- A text splits at its first blank in one way only. -/
theorem split_blank {first second rest other : List Char} (noBlank : ' ' ∉ first)
    (alsoNone : ' ' ∉ second) (starts : rest = [] ∨ rest.head? = some ' ')
    (alsoStarts : other = [] ∨ other.head? = some ' ') (same : first ++ rest = second ++ other) :
    first = second ∧ rest = other := by
  rcases List.append_eq_append_iff.mp same with ⟨middle, rfl, rfl⟩ | ⟨middle, rfl, rfl⟩
  · cases middle with
    | nil => simp
    | cons c middle =>
        obtain rfl : c = ' ' := by simpa using starts
        exact absurd (by simp) alsoNone
  · cases middle with
    | nil => simp
    | cons c middle =>
        obtain rfl : c = ' ' := by simpa using alsoStarts
        exact absurd (by simp) noBlank

theorem toolSuffix_starts (tool : Option String) :
    toolSuffix tool = [] ∨ (toolSuffix tool).head? = some ' ' := by
  cases tool <;> simp [toolSuffix]

theorem toolSuffix_injective : Function.Injective toolSuffix := by
  intro tool other same
  cases tool <;> cases other <;> simp_all [toolSuffix, String.toList_inj]

/-- A client call never flattens to the text of a server call. -/
theorem tag_ne_plain {method : String} (plain : PlainMethod method) (tool : Option String)
    (rest : List Char) : "server:".toList ++ rest ≠ method.toList ++ toolSuffix tool := by
  intro same
  rcases List.append_eq_append_iff.mp same with ⟨middle, whole, -⟩ | ⟨middle, whole, tail⟩
  · exact plain.2 ⟨middle, whole.symm⟩
  · cases middle with
    | nil => exact plain.2 ⟨[], by simpa using whole⟩
    | cons c middle =>
        have blank : c = ' ' := by
          have starts := toolSuffix_starts tool
          rw [tail] at starts
          simpa using starts
        have inside : ' ' ∈ "server:".toList := by
          rw [whole, blank]
          simp
        exact absurd inside (by decide)

theorem call_eq_of_alignmentBase {a b : Exchange} {base : String}
    (aPlain : ∀ method, a.method = some method → PlainMethod method)
    (bPlain : ∀ method, b.method = some method → PlainMethod method)
    (aBase : alignmentBase a = some base) (bBase : alignmentBase b = some base) : a.call = b.call := by
  obtain ⟨method, aMethod, aText⟩ := alignmentBase_toList aBase
  obtain ⟨other, bMethod, bText⟩ := alignmentBase_toList bBase
  have same := aText.symm.trans bText
  have origins : a.origin = b.origin := by
    cases aOrigin : a.origin <;> cases bOrigin : b.origin <;>
      simp only [aOrigin, bOrigin, originTag, String.toList_empty, List.nil_append] at same ⊢
    · exact absurd same.symm (tag_ne_plain (aPlain method aMethod) _ _)
    · exact absurd same (tag_ne_plain (bPlain other bMethod) _ _)
  rw [origins, List.append_cancel_left_eq] at same
  obtain ⟨methods, tools⟩ := split_blank (aPlain method aMethod).1 (bPlain other bMethod).1
    (toolSuffix_starts _) (toolSuffix_starts _) same
  simp [Exchange.call, origins, aMethod, bMethod, String.toList_injective methods,
    toolSuffix_injective tools]

/-- With plain method names on both sides, every alignment joins exchanges of one call. -/
theorem sameCallsAtRanks_of_plain {as bs : List Exchange}
    (plain : ∀ exchange ∈ as ++ bs, ∀ method, exchange.method = some method → PlainMethod method) :
    SameCallsAtRanks as bs := by
  intro base n a b left right
  have aMember := List.mem_filter.mp (List.mem_of_getElem? left)
  have bMember := List.mem_filter.mp (List.mem_of_getElem? right)
  exact call_eq_of_alignmentBase (plain a (by simp [aMember.1])) (plain b (by simp [bMember.1]))
    (by simpa using aMember.2) (by simpa using bMember.2)

/-- What the session diff aligns, for all sessions. -/
theorem diffSessions_alignsSameCalls_iff (codec : Codec) (as bs : List StoredMessage) :
    AlignsSameCalls (alignmentKeys (correlate codec as).exchanges)
        (alignmentKeys (correlate codec bs).exchanges) ↔
      SameCallsAtRanks (correlate codec as).exchanges (correlate codec bs).exchanges :=
  alignsSameCalls_iff _ _

def requestMessage (method : String) (tool : Option String) : StoredMessage :=
  ⟨0, 0, "c2s", "request", some "1", some method, tool, "", 0, false, none⟩

/-- A method with a space in it is aligned with a method and a tool. -/
theorem tools_call_confused : ¬ AlignsSameCalls
    (alignmentKeys (correlate Compact.codec [requestMessage "tools/call echo" none]).exchanges)
    (alignmentKeys (correlate Compact.codec [requestMessage "tools/call" (some "echo")]).exchanges) := by
  intro aligned
  have same := aligned.2.2 0 0 "tools/call echo#0"
    (Exchange.opened .clientToServer (requestMessage "tools/call echo" none))
    (Exchange.opened .clientToServer (requestMessage "tools/call" (some "echo")))
    (by decide +kernel) (by decide +kernel)
  exact absurd same.2.1 (by decide)

end McpTracer.Model
