import McpTracer.Json.Members
import McpTracer.Model.Emptiness

/-! The catalog as the last chain of cursors.

A page is a listing whose result carries an array of tools. A chain begins at
the last listing that was requested without a cursor and takes, from there on,
each page that was requested with the cursor the page before it advertised.
-/

set_option autoImplicit false

namespace McpTracer.Model
open McpTracer.Foundation McpTracer.Json McpTracer.Storage

/-- The string at `params.cursor` of an exchange's request. -/
def requestCursor (payloads : Table Nat Value) (exchange : Exchange) : Option String :=
  ((exchange.requestSeq.bind payloads).bind (Value.getPath ["params", "cursor"])).bind Value.asStr

structure ToolPage where
  tools : List Value
  nextCursor : Option String

def toolPage (payloads : Table Nat Value) (exchange : Exchange) : Option ToolPage := do
  let result ← (exchange.responseSeq.bind payloads).bind (Value.get "result")
  let tools ← (result.get "tools").bind Value.asArray
  return ⟨tools, (result.get "nextCursor").bind Value.asStr⟩

/-- The pages taken from listings when the cursor of the first of them is expected. -/
inductive Chained (payloads : Table Nat Value) : Option String → List Exchange → List ToolPage → Prop where
  | done (expected : Option String) : Chained payloads expected [] []
  | taken {expected : Option String} {exchange : Exchange} {listings : List Exchange} {page : ToolPage}
      {pages : List ToolPage} (asked : requestCursor payloads exchange = expected)
      (answered : toolPage payloads exchange = some page) (rest : Chained payloads page.nextCursor listings pages) :
      Chained payloads expected (exchange :: listings) (page :: pages)
  | stale {expected : Option String} {exchange : Exchange} {listings : List Exchange} {pages : List ToolPage}
      (other : requestCursor payloads exchange ≠ expected) (rest : Chained payloads expected listings pages) :
      Chained payloads expected (exchange :: listings) pages
  | malformed {expected : Option String} {exchange : Exchange} {listings : List Exchange} {pages : List ToolPage}
      (unreadable : toolPage payloads exchange = none) (rest : Chained payloads expected listings pages) :
      Chained payloads expected (exchange :: listings) pages

/-- The pages of the last snapshot. There are none when every request has a cursor. -/
inductive LastChain (payloads : Table Nat Value) (listings : List Exchange) : List ToolPage → Prop where
  | fresh {earlier later : List Exchange} {first : Exchange} {pages : List ToolPage}
      (split : listings = earlier ++ first :: later) (opened : requestCursor payloads first = none)
      (last : ∀ exchange ∈ later, requestCursor payloads exchange ≠ none)
      (chain : Chained payloads none (first :: later) pages) : LastChain payloads listings pages
  | never (continued : ∀ exchange ∈ listings, requestCursor payloads exchange ≠ none) :
      LastChain payloads listings []

/-- The definition that a listed tool gives of a name. -/
def definitionUnder (name : String) (tool : Value) : Option ToolDef :=
  if (tool.get "name").bind Value.asStr = some name then some (.ofValue tool) else none

/-- The last definition of a name, or the one there was before. -/
def lastDefinition (name : String) (tools : List Value) : Option ToolDef :=
  tools.reverse.findSome? (definitionUnder name)

theorem lastDefinition_cons (name : String) (tool : Value) (tools : List Value) :
    lastDefinition name (tool :: tools) = (lastDefinition name tools).or (definitionUnder name tool) := by
  simp [lastDefinition, List.findSome?_append]

/-! ## Chains -/

theorem Chained.unique {payloads : Table Nat Value} {expected : Option String} {listings : List Exchange}
    {pages others : List ToolPage} (chain : Chained payloads expected listings pages)
    (another : Chained payloads expected listings others) : pages = others := by
  induction chain generalizing others with
  | done => cases another; rfl
  | taken asked answered _ ih =>
      cases another with
      | taken _ found rest =>
          obtain rfl := Option.some.inj (answered.symm.trans found)
          rw [ih rest]
      | stale other => exact absurd asked other
      | malformed unreadable => cases answered.symm.trans unreadable
  | stale other _ ih =>
      cases another with
      | taken asked => exact absurd asked other
      | stale _ rest => exact ih rest
      | malformed _ rest => exact ih rest
  | malformed unreadable _ ih =>
      cases another with
      | taken _ answered => cases answered.symm.trans unreadable
      | stale _ rest => exact ih rest
      | malformed _ rest => exact ih rest

/-- The suffix from the last element with a property is unique. -/
theorem last_split_unique {α : Type} {P : α → Prop} {xs ys us vs : List α} {x u : α}
    (same : xs ++ x :: ys = us ++ u :: vs) (left : P x) (right : P u) (leftLast : ∀ a ∈ ys, ¬ P a)
    (rightLast : ∀ a ∈ vs, ¬ P a) : x :: ys = u :: vs := by
  induction xs generalizing us with
  | nil =>
      cases us with
      | nil => exact same
      | cons head rest =>
          obtain ⟨rfl, rfl⟩ := List.cons.inj same
          exact absurd right (leftLast u (by simp))
  | cons head rest ih =>
      cases us with
      | nil =>
          obtain ⟨rfl, rfl⟩ := List.cons.inj same
          exact absurd left (rightLast x (by simp))
      | cons _ tail => exact ih (List.cons.inj same).2

theorem LastChain.unique {payloads : Table Nat Value} {listings : List Exchange} {pages others : List ToolPage}
    (chain : LastChain payloads listings pages) (another : LastChain payloads listings others) : pages = others := by
  cases chain with
  | fresh split opened last chain =>
      cases another with
      | fresh split' opened' last' chain' =>
          have same := last_split_unique (split.symm.trans split') opened opened' last last'
          rw [same] at chain
          exact chain.unique chain'
      | never continued => exact absurd opened (continued _ (split ▸ by simp))
  | never continued =>
      cases another with
      | fresh split opened => exact absurd opened (continued _ (split ▸ by simp))
      | never => rfl

/-! ## Steps -/

/-- A page that was expected. -/
def CatalogState.accept (state : CatalogState) (page : ToolPage) : CatalogState :=
  ⟨⟨insertTools state.catalog page.tools, page.nextCursor.isNone⟩, page.nextCursor, state.collecting⟩

theorem CatalogState.step_eq (payloads : Table Nat Value) (state : CatalogState) (exchange : Exchange) :
    state.step payloads exchange =
      let current := if requestCursor payloads exchange = none then restart else state
      if current.collecting = false ∨ requestCursor payloads exchange ≠ current.expectedCursor then current
      else (toolPage payloads exchange).elim current current.accept := by
  unfold step toolPage
  rw [← requestCursor]
  dsimp only
  generalize (if requestCursor payloads exchange = none then restart else state) = current
  by_cases stale : current.collecting = false ∨ requestCursor payloads exchange ≠ current.expectedCursor
  · rw [if_pos stale, if_pos (by simpa using stale)]
  rw [if_neg stale, if_neg (by simpa using stale)]
  cases (exchange.responseSeq.bind payloads).bind (Value.get "result") with
  | none => rfl
  | some result =>
      cases listed : (result.get "tools").bind Value.asArray with
      | none => simp [listed]
      | some tools => simp [listed, accept]

/-- What was collected before a request without a cursor is dropped. -/
theorem CatalogState.step_opened {payloads : Table Nat Value} {exchange : Exchange}
    (opened : requestCursor payloads exchange = none) (state : CatalogState) :
    state.step payloads exchange = (toolPage payloads exchange).elim restart restart.accept := by
  simp [step_eq, opened, restart]

/-- A continuation is taken when its cursor is expected and its page readable. -/
theorem CatalogState.step_continued {payloads : Table Nat Value} {exchange : Exchange}
    (continued : requestCursor payloads exchange ≠ none) {state : CatalogState} (collecting : state.collecting = true) :
    state.step payloads exchange =
      if requestCursor payloads exchange = state.expectedCursor then (toolPage payloads exchange).elim state state.accept
      else state := by
  simp [step_eq, continued, collecting]

theorem CatalogState.step_idle {payloads : Table Nat Value} {exchange : Exchange}
    (continued : requestCursor payloads exchange ≠ none) {state : CatalogState} (idle : state.collecting = false) :
    state.step payloads exchange = state := by
  simp [step_eq, continued, idle]

/-! ## Runs -/

/-- Over continuations, a collecting state accepts the pages of a chain. -/
theorem CatalogState.run_continued {payloads : Table Nat Value} {listings : List Exchange}
    (continued : ∀ exchange ∈ listings, requestCursor payloads exchange ≠ none) {state : CatalogState}
    (collecting : state.collecting = true) :
    ∃ pages, Chained payloads state.expectedCursor listings pages ∧
      listings.foldl (step payloads) state = pages.foldl accept state := by
  induction listings generalizing state with
  | nil => exact ⟨[], .done _, rfl⟩
  | cons exchange rest ih =>
      obtain ⟨head, tail⟩ := List.forall_mem_cons.1 continued
      rw [List.foldl_cons, step_continued head collecting]
      by_cases asked : requestCursor payloads exchange = state.expectedCursor
      · rw [if_pos asked]
        cases answered : toolPage payloads exchange with
        | none =>
            obtain ⟨pages, chain, run⟩ := ih tail collecting
            exact ⟨pages, .malformed answered chain, run⟩
        | some page =>
            obtain ⟨pages, chain, run⟩ := @ih tail (state.accept page) collecting
            exact ⟨page :: pages, .taken asked answered chain, run⟩
      · rw [if_neg asked]
        obtain ⟨pages, chain, run⟩ := ih tail collecting
        exact ⟨pages, .stale asked chain, run⟩

/-- From a request without a cursor on, whatever came before. -/
theorem CatalogState.run_opened {payloads : Table Nat Value} {first : Exchange} {later : List Exchange}
    (opened : requestCursor payloads first = none)
    (continued : ∀ exchange ∈ later, requestCursor payloads exchange ≠ none) (state : CatalogState) :
    ∃ pages, Chained payloads none (first :: later) pages ∧
      (first :: later).foldl (step payloads) state = pages.foldl accept restart := by
  rw [List.foldl_cons, step_opened opened]
  cases answered : toolPage payloads first with
  | none =>
      obtain ⟨pages, chain, run⟩ := @run_continued payloads later continued restart rfl
      exact ⟨pages, .malformed answered chain, run⟩
  | some page =>
      obtain ⟨pages, chain, run⟩ := @run_continued payloads later continued (restart.accept page) rfl
      exact ⟨page :: pages, .taken opened answered chain, run⟩

theorem CatalogState.run_idle {payloads : Table Nat Value} {listings : List Exchange}
    (continued : ∀ exchange ∈ listings, requestCursor payloads exchange ≠ none) {state : CatalogState}
    (idle : state.collecting = false) : listings.foldl (step payloads) state = state := by
  induction listings with
  | nil => rfl
  | cons exchange rest ih =>
      obtain ⟨head, tail⟩ := List.forall_mem_cons.1 continued
      rw [List.foldl_cons, step_idle head idle, ih tail]

/-- A list either has a last element with a property or none that has it. -/
theorem exists_last_or_none {α : Type} (P : α → Prop) (xs : List α) :
    (∃ earlier x later, xs = earlier ++ x :: later ∧ P x ∧ ∀ a ∈ later, ¬ P a) ∨ ∀ a ∈ xs, ¬ P a := by
  induction xs with
  | nil => exact .inr (by simp)
  | cons head rest ih =>
      rcases ih with ⟨earlier, x, later, rfl, holds, last⟩ | none
      · exact .inl ⟨head :: earlier, x, later, rfl, holds, last⟩
      · by_cases holds : P head
        · exact .inl ⟨[], head, rest, rfl, holds, none⟩
        · exact .inr (List.forall_mem_cons.2 ⟨holds, none⟩)

/-- The loop accepts the pages of the last chain, from a fresh state if it collects at all. -/
theorem CatalogState.run_chain (payloads : Table Nat Value) (listings : List Exchange) :
    ∃ pages, LastChain payloads listings pages ∧
      (listings.foldl (step payloads) start).catalog = (pages.foldl accept restart).catalog := by
  rcases exists_last_or_none (fun exchange => requestCursor payloads exchange = none) listings with
    ⟨earlier, first, later, rfl, opened, last⟩ | continued
  · obtain ⟨pages, chain, run⟩ := run_opened opened last (earlier.foldl (step payloads) start)
    exact ⟨pages, .fresh rfl opened last chain, by rw [List.foldl_append, run]⟩
  · exact ⟨[], .never continued, by rw [run_idle continued rfl]; rfl⟩

/-! ## Catalogs -/

theorem insertTools_lookup (catalog : ToolCatalog) (tools : List Value) (name : String) :
    (CatalogState.insertTools catalog tools).lookup name =
      (lastDefinition name tools).or (catalog.tools.lookup name) := by
  unfold CatalogState.insertTools
  generalize catalog.tools = found
  induction tools generalizing found with
  | nil => rfl
  | cons tool rest ih =>
      rw [List.foldl_cons, ih, lastDefinition_cons, Option.or_assoc]
      congr 1
      unfold definitionUnder
      cases (tool.get "name").bind Value.asStr with
      | none => rfl
      | some other =>
          rw [lookup_insert]
          by_cases same : name = other
          · simp [same]
          · simp [same, Ne.symm same]

theorem accepted_lookup (pages : List ToolPage) (state : CatalogState) (name : String) :
    (pages.foldl CatalogState.accept state).catalog.tools.lookup name =
      (lastDefinition name (pages.flatMap ToolPage.tools)).or (state.catalog.tools.lookup name) := by
  induction pages generalizing state with
  | nil => rfl
  | cons page rest ih =>
      rw [List.foldl_cons, ih, CatalogState.accept, insertTools_lookup, ← Option.or_assoc]
      simp [lastDefinition, List.findSome?_append]

theorem accepted_complete (pages : List ToolPage) (state : CatalogState) :
    (pages.foldl CatalogState.accept state).catalog.complete =
      pages.getLast?.elim state.catalog.complete fun page => page.nextCursor.isNone := by
  induction pages using List.reverseRecOn with
  | nil => rfl
  | append_singleton pages page _ => simp [CatalogState.accept]

/-- A catalog is what the one last chain defines, each name as defined last in it, and complete
when its last page advertises no other. -/
theorem extractToolCatalog_last_chain (codec : Codec) (messages : List StoredMessage) :
    ∃! pages, LastChain (payloadsBySeq codec messages) ((correlate codec messages).exchanges.filter isListing) pages ∧
      SortedMap.Sorted (extractToolCatalog codec messages).tools ∧
      (∀ name, (extractToolCatalog codec messages).tools.lookup name =
        lastDefinition name (pages.flatMap ToolPage.tools)) ∧
      ((extractToolCatalog codec messages).complete = true ↔
        ∃ page, pages.getLast? = some page ∧ page.nextCursor = none) := by
  obtain ⟨pages, chain, run⟩ := CatalogState.run_chain (payloadsBySeq codec messages)
    ((correlate codec messages).exchanges.filter isListing)
  refine ⟨pages, ⟨chain, extractTools_sorted codec messages, fun name => ?_, ?_⟩, fun others found => found.1.unique chain⟩
  · rw [extractToolCatalog, run, accepted_lookup]
    exact Option.or_none
  · rw [extractToolCatalog, run, accepted_complete]
    cases pages.getLast? with
    | none => simp [CatalogState.restart]
    | some page => simp

end McpTracer.Model
