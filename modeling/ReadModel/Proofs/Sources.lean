import Mathlib.Data.List.Nodup
import ReadModel.EventLog
import ReadModel.Proofs.Selecting

/-!
The log in a database against the log in memory.

The statement of a selection is read as the selection itself (`EventSelect.readSelect?_call`), and the
tests of a clause hold for the rows of the events that match it. So both logs find the same events.
-/

namespace ReadModel

namespace ColumnTest

/-- The column that is tested. -/
def column : ColumnTest → String
  | .compare column .. | .among column _ | .notAmong column _ => column

/-- The test as a part of a statement. -/
def sqlTest : ColumnTest → SqlTest
  | .compare column comparison v => .compare column comparison v
  | .among column texts => .anyOf column (.textArray texts)
  | .notAmong column texts => .not (.anyOf column (.textArray texts))

/-- The items of a test that a column has one of some texts. -/
def amongItems (column : String) (texts : List String) : List SqlItem :=
  [.word column, .word "=", .word "ANY", .word "(", .value (.textArray texts), .word ")"]

/-- The items of a test. -/
def items : ColumnTest → List SqlItem
  | .compare column comparison v => [.word column, .word comparison.sign, .value v]
  | .among column texts => amongItems column texts
  | .notAmong column texts =>
    .word "NOT" :: .word "(" :: amongItems column texts ++ [.word ")"]

/-- The test is on a column of events. -/
def OfEvents (t : ColumnTest) : Prop := t.column ∈ eventColumns.map (·.name)

/-- Words that are not names where a test is read. -/
def reserved : List String := ["TRUE", "NOT", "(", "ORDER"]

theorem isName_eventColumns : ∀ name ∈ eventColumns.map (·.name), IsName name := by
  simp [eventColumns, ← isPlainName_iff, isPlainName, isNameRest]

theorem eventColumns_free : ∀ name ∈ eventColumns.map (·.name), name ∉ reserved := by
  decide

theorem isChain_fragments (t : ColumnTest) : t.fragments.IsChain Fragment.Apart := by
  cases t with
  | compare column comparison v =>
    have ends : endsLoose (column ++ " " ++ comparison.sign ++ " ") = true := endsLoose_append _ rfl
    simp [fragments, Fragment.Apart, Fragment.endsLoose, ends]
  | among column texts =>
    have ends : endsLoose (column ++ " = ANY(") = true := endsLoose_append _ rfl
    have starts : startsLoose ")" = true := rfl
    simp [fragments, Fragment.Apart, Fragment.endsLoose, Fragment.startsLoose, ends, starts]
  | notAmong column texts =>
    have ends : endsLoose ("NOT (" ++ column ++ " = ANY(") = true := endsLoose_append _ rfl
    have starts : startsLoose "))" = true := rfl
    simp [fragments, Fragment.Apart, Fragment.endsLoose, Fragment.startsLoose, ends, starts]

/-- The tokens of the texts of a test. -/
theorem sqlTokens_compare {column : String} (plain : IsName column) (comparison : Comparison) :
    sqlTokens (column ++ " " ++ comparison.sign ++ " ") = [column, comparison.sign] := by
  rw [sqlTokens_between _ (endsLoose_append _ rfl) rfl, sqlTokens_append_of_loose (.inr rfl),
    plain.tokens]
  cases comparison <;> rfl

theorem sqlTokens_among {column : String} (plain : IsName column) :
    sqlTokens (column ++ " = ANY(") = [column, "=", "ANY", "("] := by
  rw [sqlTokens_append_of_loose (.inr rfl), plain.tokens]
  rfl

theorem sqlTokens_notAmong {column : String} (plain : IsName column) :
    sqlTokens ("NOT (" ++ column ++ " = ANY(") = ["NOT", "(", column, "=", "ANY", "("] := by
  rw [sqlTokens_between _ rfl rfl, plain.tokens]
  rfl

theorem items_fragments {t : ColumnTest} (plain : IsName t.column) :
    t.fragments.flatMap Fragment.items = t.items := by
  have closing : sqlTokens ")" = [")"] := rfl
  have closings : sqlTokens "))" = [")", ")"] := rfl
  cases t with
  | compare column comparison v =>
    replace plain : IsName column := plain
    have words := sqlTokens_compare plain comparison
    simp [fragments, Fragment.items, items, words]
  | among column texts =>
    replace plain : IsName column := plain
    have words := sqlTokens_among plain
    simp [fragments, Fragment.items, items, amongItems, words, closing]
  | notAmong column texts =>
    replace plain : IsName column := plain
    have words := sqlTokens_notAmong plain
    simp [fragments, Fragment.items, items, amongItems, words, closings]

theorem unmarked_items {t : ColumnTest} (plain : IsName t.column) :
    ∀ item ∈ t.items, item.Unmarked := by
  have inColumn : '$' ∉ t.column.toList := plain.unmarked
  cases t with
  | compare column comparison v =>
    cases comparison <;> simp_all [items, SqlItem.Unmarked, ColumnTest.column, Comparison.sign]
  | among column texts => simp_all [items, amongItems, SqlItem.Unmarked, ColumnTest.column]
  | notAmong column texts => simp_all [items, amongItems, SqlItem.Unmarked, ColumnTest.column]

/-- The word that ends the test of a selection is not in the test. -/
theorem isWord_order {t : ColumnTest} (free : t.column ∉ reserved) :
    ∀ item ∈ t.items, item.isWord "ORDER" = false := by
  simp only [reserved, List.mem_cons, not_or] at free
  cases t with
  | compare column comparison v =>
    cases comparison <;> simp_all [items, SqlItem.isWord, ColumnTest.column, Comparison.sign]
  | among column texts => simp_all [items, amongItems, SqlItem.isWord, ColumnTest.column]
  | notAmong column texts => simp_all [items, amongItems, SqlItem.isWord, ColumnTest.column]

theorem ofSign?_sign (comparison : Comparison) :
    Comparison.ofSign? comparison.sign = some comparison := by
  cases comparison <;> decide

theorem begin_column {column : String} (free : column ∉ reserved) (r : TestReader) :
    r.begin (.word column) = { r with pending := [.word column] } := by
  simp only [reserved, List.mem_cons, not_or] at free
  obtain ⟨notTrue, notNot, notOpening, -⟩ := free
  simp [TestReader.begin, SqlItem.isWord, notTrue, notNot, notOpening]

theorem read_compare {column : String} (free : column ∉ reserved) (comparison : Comparison)
    (v : SqlParam) (level : TestLevel) (outer : List TestLevel) :
    TestReader.read { level, outer } [.word column, .word comparison.sign, .value v] =
      some (TestReader.complete { level, outer } (.compare column comparison v)) := by
  have whole : SqlTest.ofItems? [.word column, .word comparison.sign, .value v] =
      some (.compare column comparison v) :=
    congrArg (Option.map _) (ofSign?_sign comparison)
  have first : TestReader.step { level, outer } (.word column) =
      some { level, outer, pending := [.word column] } :=
    congrArg some (begin_column free _)
  have second : TestReader.step { level, outer, pending := [.word column] }
      (.word comparison.sign) =
        some { level, outer, pending := [.word column, .word comparison.sign] } := rfl
  have last : TestReader.step
      { level, outer, pending := [.word column, .word comparison.sign] } (.value v) =
        some (TestReader.complete { level, outer } (.compare column comparison v)) := by
    dsimp only [TestReader.step]
    rw [if_neg (by simp), List.cons_append, List.cons_append, List.nil_append, whole]
    rfl
  rw [TestReader.read_cons, first, Option.bind_some, TestReader.read_cons, second,
    Option.bind_some, TestReader.read_cons, last]
  rfl

theorem read_among {column : String} (free : column ∉ reserved) (texts : List String)
    (level : TestLevel) (outer : List TestLevel) :
    TestReader.read { level, outer } (amongItems column texts) =
      some (TestReader.complete { level, outer } (.anyOf column (.textArray texts))) := by
  have first : TestReader.step { level, outer } (.word column) =
      some { level, outer, pending := [.word column] } :=
    congrArg some (begin_column free _)
  rw [amongItems, TestReader.read_cons, first]
  rfl

/-- A test is read as a part of what is read. -/
theorem read_items {t : ColumnTest} (free : t.column ∉ reserved)
    (alternatives parts : Option SqlTest) (outer : List TestLevel) :
    TestReader.read { level := { alternatives, parts }, outer } t.items =
      some { level := { alternatives, parts }, outer, last := some t.sqlTest } := by
  cases t with
  | compare column comparison v => exact read_compare free comparison v _ outer
  | among column texts => exact read_among free texts _ outer
  | notAmong column texts =>
    replace free : column ∉ reserved := free
    have inner := read_among free texts {} ({ alternatives, parts, negations := 1 } :: outer)
    rw [items, List.cons_append, List.cons_append]
    change TestReader.read { outer := { alternatives, parts, negations := 1 } :: outer }
      (amongItems column texts ++ [.word ")"]) = _
    rw [TestReader.read_append, inner]
    rfl

end ColumnTest

namespace EventSelect

/-- One of the alternatives, as a test. -/
def conjunction (tests : List ColumnTest) : SqlTest :=
  tests.foldl (fun s t => .and s t.sqlTest) .always

/-- The items of one of the alternatives. -/
def alternativeItems (tests : List ColumnTest) : List SqlItem :=
  [.word "(", .word "TRUE"] ++ tests.flatMap (fun t => .word "AND" :: t.items) ++ [.word ")"]

theorem read_tests {tests : List ColumnTest} (free : ∀ t ∈ tests, t.column ∉ ColumnTest.reserved)
    (outer : List TestLevel) (parts : Option SqlTest) (last : SqlTest) :
    ∃ parts' last', TestReader.read { level := { parts }, outer, last := some last }
        (tests.flatMap fun t => .word "AND" :: t.items) =
          some { level := { parts := parts' }, outer, last := some last' } ∧
      TestLevel.conjoined { parts := parts' } last' =
        tests.foldl (fun s t => .and s t.sqlTest) (TestLevel.conjoined { parts } last) := by
  induction tests generalizing parts last with
  | nil => exact ⟨parts, last, rfl, rfl⟩
  | cons t tests ih =>
    have ⟨here, others⟩ := List.forall_mem_cons.mp free
    obtain ⟨parts', last', reads, same⟩ :=
      ih others (some (TestLevel.conjoined { parts } last)) t.sqlTest
    refine ⟨parts', last', ?_, same⟩
    have first := t.read_items here none (some (TestLevel.conjoined { parts } last)) outer
    have joined : TestReader.step { level := { parts }, outer, last := some last } (.word "AND") =
        some { level := { parts := some (TestLevel.conjoined { parts } last) }, outer } := rfl
    rw [List.flatMap_cons, TestReader.read_append, TestReader.read_cons, joined, Option.bind_some,
      first, Option.bind_some, reads]

/-- An alternative is read as a part of what is read. -/
theorem read_alternative {tests : List ColumnTest}
    (free : ∀ t ∈ tests, t.column ∉ ColumnTest.reserved) (alternatives : Option SqlTest) :
    TestReader.read { level := { alternatives } } (alternativeItems tests) =
      some { level := { alternatives }, last := some (conjunction tests) } := by
  obtain ⟨parts, last, reads, same⟩ := read_tests free [{ alternatives }] none .always
  rw [alternativeItems, TestReader.read_append, TestReader.read_append]
  have opened : TestReader.read { level := { alternatives } } [.word "(", .word "TRUE"] =
      some { outer := [{ alternatives }], last := some .always } := rfl
  rw [opened, Option.bind_some, reads, Option.bind_some]
  change some (TestReader.complete _ (TestLevel.conjoined { parts } last)) = _
  rw [same]
  rfl

/-- The alternatives, as one test. -/
def disjunction (first : List ColumnTest) (rest : List (List ColumnTest)) : SqlTest :=
  rest.foldl (fun s tests => .or s (conjunction tests)) (conjunction first)

theorem read_alternatives {rest : List (List ColumnTest)}
    (free : ∀ tests ∈ rest, ∀ t ∈ tests, t.column ∉ ColumnTest.reserved)
    (alternatives : Option SqlTest) (last : SqlTest) :
    ∃ alternatives' last', TestReader.read { level := { alternatives }, last := some last }
        (rest.flatMap fun tests => .word "OR" :: alternativeItems tests) =
          some { level := { alternatives := alternatives' }, last := some last' } ∧
      TestLevel.closed { alternatives := alternatives' } last' =
        rest.foldl (fun s tests => .or s (conjunction tests))
          (TestLevel.closed { alternatives } last) := by
  induction rest generalizing alternatives last with
  | nil => exact ⟨alternatives, last, rfl, rfl⟩
  | cons tests rest ih =>
    have ⟨here, others⟩ := List.forall_mem_cons.mp free
    obtain ⟨alternatives', last', reads, same⟩ :=
      ih others (some (TestLevel.closed { alternatives } last)) (conjunction tests)
    refine ⟨alternatives', last', ?_, same⟩
    have first := read_alternative here (some (TestLevel.closed { alternatives } last))
    have joined : TestReader.step { level := { alternatives }, last := some last } (.word "OR") =
        some { level := { alternatives := some (TestLevel.closed { alternatives } last) } } := by
      simp [TestReader.step, TestReader.connect, SqlItem.isWord]
    rw [List.flatMap_cons, TestReader.read_append, TestReader.read_cons, joined, Option.bind_some,
      first, Option.bind_some, reads]

/-- The items of the test of a selection. -/
def testItems (alternatives : List (List ColumnTest)) : List SqlItem :=
  [.word "OR"].intercalate (alternatives.map alternativeItems)

theorem readTest?_testItems {first : List ColumnTest} {rest : List (List ColumnTest)}
    (free : ∀ tests ∈ first :: rest, ∀ t ∈ tests, t.column ∉ ColumnTest.reserved) :
    readTest? (testItems (first :: rest)) = some (disjunction first rest) := by
  have ⟨here, others⟩ := List.forall_mem_cons.mp free
  obtain ⟨alternatives, last, reads, same⟩ := read_alternatives others none (conjunction first)
  have start := read_alternative here none
  have items : testItems (first :: rest) = alternativeItems first ++
      rest.flatMap fun tests => .word "OR" :: alternativeItems tests := by
    rw [testItems, List.map_cons, intercalate_cons, List.flatMap_map]
    rfl
  rw [readTest?, items, TestReader.read_append, start, Option.bind_some, reads]
  exact congrArg some same

/-- The items of the names of columns. -/
def columnItems : List SqlItem := [.word ","].intercalate (eventColumns.map fun c => [.word c.name])

/-- The items of a limit. -/
def limitItems : Option Int → List SqlItem
  | some limit => [.word "LIMIT", .value (.int8 limit)]
  | none => []

/-- The items of a selection. -/
def items (q : EventSelect) : List SqlItem :=
  .word "SELECT" :: (columnItems ++ .word "FROM" :: .word "events" :: .word "WHERE" ::
    (testItems q.alternatives ++
      .word "ORDER" :: .word "BY" :: .word "sequence" :: .word "ASC" :: limitItems q.limit))

/-- The tests are on columns of events. -/
def OfEvents (q : EventSelect) : Prop := ∀ tests ∈ q.alternatives, ∀ t ∈ tests, t.OfEvents

theorem isChain_alternative (tests : List ColumnTest) :
    (alternative tests).IsChain Fragment.Apart := by
  have inner : (tests.flatMap fun t => .text " AND " :: t.fragments).IsChain Fragment.Apart := by
    induction tests with
    | nil => exact .nil
    | cons t tests ih =>
      refine Fragment.isChain_append (Fragment.isChain_append (.singleton _) t.isChain_fragments ?_) ih ?_
      · exact .inl fun a last => Option.mem_some.mp last ▸ rfl
      · refine .inr fun b head => ?_
        cases tests with
        | nil => cases head
        | cons t tests => exact Option.mem_some.mp head ▸ rfl
  refine Fragment.isChain_append (Fragment.isChain_append (.singleton _) inner ?_) (.singleton _) ?_
  · refine .inr fun b head => ?_
    cases tests with
    | nil => cases head
    | cons t tests => exact Option.mem_some.mp head ▸ rfl
  · exact .inr fun b head => Option.mem_some.mp head ▸ rfl

theorem isChain_fragments (q : EventSelect) : q.fragments.IsChain Fragment.Apart := by
  have tests : (Fragment.separated " OR " (q.alternatives.map alternative)).IsChain Fragment.Apart := by
    refine Fragment.isChain_separated rfl rfl fun list here => ?_
    obtain ⟨tests, -, rfl⟩ := List.mem_map.mp here
    exact isChain_alternative tests
  have start : endsLoose ("SELECT " ++ ", ".intercalate (eventColumns.map (·.name)) ++
      " FROM events WHERE ") = true := endsLoose_append _ rfl
  refine Fragment.isChain_append (Fragment.isChain_append (.singleton _) tests ?_) ?_ ?_
  · exact .inl fun a last => Option.mem_some.mp last ▸ start
  · have limit : endsLoose " LIMIT " = true ∧ startsLoose " LIMIT " = true := ⟨rfl, rfl⟩
    cases q.limit <;> simp [Fragment.Apart, Fragment.endsLoose, Fragment.startsLoose, limit]
  · exact .inr fun b head => Option.mem_some.mp head ▸ rfl

theorem items_alternative {tests : List ColumnTest} (ofEvents : ∀ t ∈ tests, t.OfEvents) :
    (alternative tests).flatMap Fragment.items = alternativeItems tests := by
  have each : ∀ t ∈ tests, (.text " AND " :: t.fragments : List Fragment).flatMap Fragment.items =
      .word "AND" :: t.items := by
    intro t here
    rw [List.flatMap_cons, ColumnTest.items_fragments (ColumnTest.isName_eventColumns _ (ofEvents t here))]
    rfl
  rw [alternative, List.flatMap_append, List.flatMap_cons, List.flatMap_assoc,
    List.flatMap_congr each]
  rfl

theorem items_separated (separator : String) (lists : List (List Fragment)) :
    (Fragment.separated separator lists).flatMap Fragment.items =
      (Fragment.text separator).items.intercalate (lists.map (·.flatMap Fragment.items)) := by
  induction lists with
  | nil => rfl
  | cons list rest ih =>
    cases rest with
    | nil => simp [Fragment.separated]
    | cons next rest => simp [Fragment.separated, List.flatMap_append, ih]

theorem items_fragments {q : EventSelect} (ofEvents : q.OfEvents) :
    q.fragments.flatMap Fragment.items = q.items := by
  have start : sqlTokens ("SELECT " ++ ", ".intercalate (eventColumns.map (·.name)) ++
      " FROM events WHERE ") = ["SELECT"] ++ [","].intercalate ((eventColumns.map (·.name)).map ([·])) ++
        ["FROM", "events", "WHERE"] := by
    rw [sqlTokens_between _ rfl rfl, sqlTokens_names ColumnTest.isName_eventColumns]
    rfl
  have tests : (q.alternatives.map alternative).map (·.flatMap Fragment.items) =
      q.alternatives.map alternativeItems := by
    rw [List.map_map]
    exact List.map_congr_left fun tests here => items_alternative (ofEvents tests here)
  have front : (Fragment.text ("SELECT " ++ ", ".intercalate (eventColumns.map (·.name)) ++
      " FROM events WHERE ")).items =
        .word "SELECT" :: (columnItems ++ [.word "FROM", .word "events", .word "WHERE"]) := by
    rw [Fragment.items, start, List.map_append, List.map_append, map_intercalate, List.map_map,
      List.map_map]
    rfl
  obtain ⟨alternatives, limit⟩ := q
  rw [fragments, List.flatMap_append, List.flatMap_cons, items_separated, tests, front, items,
    List.cons_append, List.append_assoc, List.cons_append, List.append_assoc]
  cases limit <;> rfl

theorem unmarked_items {q : EventSelect} (ofEvents : q.OfEvents) :
    ∀ item ∈ q.items, item.Unmarked := by
  have columns : ∀ item ∈ columnItems, item.Unmarked := by
    refine forall_mem_intercalate (by simp [SqlItem.Unmarked]) fun list here => ?_
    obtain ⟨c, inColumns, rfl⟩ := List.mem_map.mp here
    exact List.forall_mem_singleton.mpr
      (ColumnTest.isName_eventColumns _ (List.mem_map_of_mem inColumns)).unmarked
  have tests : ∀ item ∈ testItems q.alternatives, item.Unmarked := by
    refine forall_mem_intercalate (by simp [SqlItem.Unmarked]) fun list here => ?_
    obtain ⟨tests, inQuery, rfl⟩ := List.mem_map.mp here
    have inner : ∀ item ∈ tests.flatMap (fun t => SqlItem.word "AND" :: t.items), item.Unmarked := by
      intro item here
      obtain ⟨t, inTests, here⟩ := List.mem_flatMap.mp here
      rcases List.mem_cons.mp here with rfl | here
      · simp [SqlItem.Unmarked]
      · exact ColumnTest.unmarked_items
          (ColumnTest.isName_eventColumns _ (ofEvents tests inQuery t inTests)) item here
    simp only [alternativeItems, List.forall_mem_append]
    exact ⟨⟨by simp [SqlItem.Unmarked], inner⟩, by simp [SqlItem.Unmarked]⟩
  have limit : ∀ item ∈ limitItems q.limit, item.Unmarked := by
    cases q.limit <;> simp [limitItems, SqlItem.Unmarked]
  simp only [items, List.forall_mem_cons, List.forall_mem_append]
  exact ⟨by simp [SqlItem.Unmarked], columns, by simp [SqlItem.Unmarked], by simp [SqlItem.Unmarked],
    by simp [SqlItem.Unmarked], tests, by simp [SqlItem.Unmarked], by simp [SqlItem.Unmarked],
    by simp [SqlItem.Unmarked], by simp [SqlItem.Unmarked], limit⟩

theorem isWord_order {alternatives : List (List ColumnTest)}
    (ofEvents : ∀ tests ∈ alternatives, ∀ t ∈ tests, t.OfEvents) :
    ∀ item ∈ testItems alternatives, item.isWord "ORDER" = false := by
  refine forall_mem_intercalate (by simp [SqlItem.isWord]) fun list here => ?_
  obtain ⟨tests, inQuery, rfl⟩ := List.mem_map.mp here
  have inner : ∀ item ∈ tests.flatMap (fun t => SqlItem.word "AND" :: t.items),
      item.isWord "ORDER" = false := by
    intro item here
    obtain ⟨t, inTests, here⟩ := List.mem_flatMap.mp here
    rcases List.mem_cons.mp here with rfl | here
    · simp [SqlItem.isWord]
    · exact ColumnTest.isWord_order
        (ColumnTest.eventColumns_free _ (ofEvents tests inQuery t inTests)) item here
  simp only [alternativeItems, List.forall_mem_append]
  exact ⟨⟨by simp [SqlItem.isWord], inner⟩, by simp [SqlItem.isWord]⟩

/-- The statement of a selection is read as the selection. -/
theorem readSelect?_call {q : EventSelect} {first : List ColumnTest} {rest : List (List ColumnTest)}
    (inhabited : q.alternatives = first :: rest) (ofEvents : q.OfEvents) :
    (Fragment.call q.fragments eventColumns).items?.bind readSelect? = some
      { columns := eventColumns.map (·.name)
        table := "events"
        test := disjunction first rest
        order := "sequence"
        limit := q.limit.map .int8 } := by
  have items := Fragment.items?_call eventColumns q.isChain_fragments
    (items_fragments ofEvents ▸ unmarked_items ofEvents)
  have columns : ∀ item ∈ columnItems, item.isWord "FROM" = false := by
    simp [columnItems, eventColumns, SqlItem.isWord]
  have names : readNames? columnItems = some (eventColumns.map (·.name)) := by
    simp [columnItems, eventColumns, readNames?]
  have test : readTest? (testItems q.alternatives) = some (disjunction first rest) := by
    rw [inhabited]
    refine readTest?_testItems fun tests here t inTests => ?_
    exact ColumnTest.eventColumns_free _ (ofEvents tests (inhabited ▸ here) t inTests)
  have order : readOrder? (.word "BY" :: .word "sequence" :: .word "ASC" :: limitItems q.limit) =
      some ("sequence", q.limit.map .int8) := by
    cases q.limit <;> simp [readOrder?, limitItems]
  rw [items, items_fragments ofEvents, Option.bind_some, EventSelect.items,
    readSelect?_items columns (by decide) (isWord_order ofEvents), names, test, order]
  rfl

end EventSelect

/-- Whether a test that there may be has this truth for a row. -/
def Decides (row : String → Option SqlParam) : Option ColumnTest → Bool → Prop
  | none, b => b = true
  | some t, b => t.sqlTest.truth? row = some b

namespace EventSelect

variable {row : String → Option SqlParam}

theorem truth?_and {s t : SqlTest} {a b : Bool} (left : s.truth? row = some a)
    (right : t.truth? row = some b) : (SqlTest.and s t).truth? row = some (a && b) := by
  cases a <;> cases b <;> simp [SqlTest.truth?, left, right]

theorem truth?_or {s t : SqlTest} {a b : Bool} (left : s.truth? row = some a)
    (right : t.truth? row = some b) : (SqlTest.or s t).truth? row = some (a || b) := by
  cases a <;> cases b <;> simp [SqlTest.truth?, left, right]

theorem truth?_conjunction {tests : List (Option ColumnTest)} {truths : List Bool}
    (each : List.Forall₂ (Decides row) tests truths) :
    (conjunction (tests.filterMap id)).truth? row = some (truths.all id) := by
  have folded : ∀ s a, SqlTest.truth? row s = some a →
      ((tests.filterMap id).foldl (fun s t => .and s t.sqlTest) s).truth? row =
        some (a && truths.all id) := by
    induction each with
    | nil => simp
    | @cons test truth tests truths here others ih =>
      intro s a known
      cases test with
      | none =>
        have passed : truth = true := here
        rw [List.filterMap_cons_none rfl, ih s a known, List.all_cons, passed]
        rfl
      | some t =>
        have first : (some t :: tests).filterMap id = t :: tests.filterMap id := rfl
        rw [first, List.foldl_cons, ih _ _ (truth?_and known here),
          List.all_cons, Bool.and_assoc]
        rfl
  have started := folded .always true rfl
  rwa [Bool.true_and] at started

theorem truth?_disjunction {α : Type} (tests : α → List ColumnTest) (passes : α → Bool) {first : α}
    {rest : List α}
    (each : ∀ a ∈ first :: rest, (conjunction (tests a)).truth? row = some (passes a)) :
    (disjunction (tests first) (rest.map tests)).truth? row = some ((first :: rest).any passes) := by
  have ⟨here, others⟩ := List.forall_mem_cons.mp each
  have folded : ∀ s b, SqlTest.truth? row s = some b →
      ((rest.map tests).foldl (fun s tests => .or s (conjunction tests)) s).truth? row =
        some (b || rest.any passes) := by
    clear here each
    induction rest with
    | nil => simp
    | cons second rest ih =>
      intro s b known
      have ⟨next, later⟩ := List.forall_mem_cons.mp others
      rw [List.map_cons, List.foldl_cons, ih later _ _ (truth?_or known next), List.any_cons,
        Bool.or_assoc]
  rw [List.any_cons]
  exact folded _ _ here

end EventSelect

/-- A bound for sequences that a database can be asked with. -/
def QueryClause.Bounded (c : QueryClause) : Prop :=
  (∀ n ∈ c.sequenceGreater, (n : Int) ≤ greatestSigned) ∧
    ∀ n ∈ c.sequenceLess, (n : Int) ≤ greatestSigned

theorem signedWord_of_le {n : Nat} (bound : (n : Int) ≤ greatestSigned) : signedWord n = n := by
  unfold greatestSigned at bound
  rw [signedWord, wordCount, Int.bmod_def]
  omega

section

variable (e : Event)

theorem decides_instance (wanted : Option InstanceId) :
    Decides e.cell? (wanted.map fun id => .compare "instance_id" .equals (.text id.text))
      (wanted.all (· == e.instanceId)) := by
  cases wanted with
  | none => rfl
  | some id =>
    have same : (id == e.instanceId) = decide (e.instanceId.text = id.text) := by
      rw [Bool.eq_iff_iff, beq_iff_eq, decide_eq_true_iff]
      exact ⟨fun same => same ▸ rfl, fun same => by cases id; exact congrArg _ same.symm⟩
    have admitted := Comparison.admits_text e.instanceId.text id.text
    rw [← same] at admitted
    simpa [Decides, ColumnTest.sqlTest, SqlTest.truth?, Event.cell?] using admitted

theorem decide_mem_texts {kind : IdentifierKind} (id : Identifier kind)
    (ids : List (Identifier kind)) : decide (id.text ∈ ids.map (·.text)) = decide (id ∈ ids) := by
  refine decide_eq_decide.mpr ⟨fun here => ?_, List.mem_map_of_mem⟩
  obtain ⟨other, member, same⟩ := List.mem_map.mp here
  have equal : other = id := by cases other; cases id; exact congrArg _ same
  exact equal ▸ member

theorem decides_excluded (excluded : List InstanceId) :
    Decides e.cell? (if excluded.isEmpty then none
        else some (.notAmong "instance_id" (excluded.map (·.text))))
      (!decide (e.instanceId ∈ excluded)) := by
  cases excluded with
  | nil => rfl
  | cons id ids =>
    have member := decide_mem_texts e.instanceId (id :: ids)
    rw [← member]
    rfl

theorem decides_among {kind : IdentifierKind} (column : String) (wanted : List (Identifier kind))
    (id : Identifier kind) (cell : e.cell? column = some (.text id.text)) :
    Decides e.cell? (amongIdentifiers? column wanted) (allows wanted id) := by
  cases wanted with
  | nil => rfl
  | cons first rest =>
    have member := decide_mem_texts id (first :: rest)
    change (e.cell? column).bind (·.isIn? (.textArray ((first :: rest).map (·.text)))) = _
    rw [cell]
    exact congrArg some member

theorem decides_sequence {bound : Option Nat} (small : ∀ n ∈ bound, (n : Int) ≤ greatestSigned) :
    Decides e.cell? (bound.map fun n => .compare "sequence" .above (.ofSequence n))
        (bound.all (decide <| · < e.sequence)) ∧
      Decides e.cell? (bound.map fun n => .compare "sequence" .below (.ofSequence n))
        (bound.all (decide <| e.sequence < ·)) := by
  cases bound with
  | none => exact ⟨rfl, rfl⟩
  | some n =>
    have ⟨above, below⟩ := Comparison.admits_int8 e.sequence n
    simp only [Int.ofNat_lt] at above below
    have sent : SqlParam.ofSequence n = .int8 n := by
      rw [SqlParam.ofSequence, signedWord_of_le (small n rfl)]
    simp only [Decides, Option.map_some, ColumnTest.sqlTest, SqlTest.truth?, Event.cell?, sent]
    exact ⟨above, below⟩

theorem Event.cell?_creationDate :
    e.cell? "creation_date" = some (.timestamp (some e.creationDate)) := rfl

theorem decides_after (t : Option Instant) :
    Decides e.cell? (t.map fun t => .compare "creation_date" .above (.timestamp (some t)))
      (t.all (·.before e.creationDate)) := by
  cases t with
  | none => rfl
  | some t =>
    simp only [Decides, Option.map_some, ColumnTest.sqlTest, SqlTest.truth?, e.cell?_creationDate]
    exact (Comparison.admits_timestamp e.creationDate t).1

theorem decides_until (t : Option Instant) :
    Decides e.cell? (t.map fun t => .compare "creation_date" .upTo (.timestamp (some t)))
      (t.all fun limit => !limit.before e.creationDate) := by
  cases t with
  | none => rfl
  | some t =>
    simp only [Decides, Option.map_some, ColumnTest.sqlTest, SqlTest.truth?, e.cell?_creationDate]
    exact (Comparison.admits_timestamp e.creationDate t).2

/-- The tests of a clause hold for the rows of the events that match it. -/
theorem truth?_tests {c : QueryClause} (bounded : c.Bounded) :
    (EventSelect.conjunction c.tests).truth? e.cell? = some (c.matches e) := by
  have each := EventSelect.truth?_conjunction <|
    .cons (decides_instance e c.instanceId) <| .cons (decides_excluded e c.excludedInstances) <|
    .cons (decides_among e "aggregate_type" c.aggregateTypes e.aggregateType rfl) <|
    .cons (decides_among e "aggregate_id" c.aggregateIds e.aggregateId rfl) <|
    .cons (decides_among e "event_type" c.eventTypes e.eventType rfl) <|
    .cons (decides_sequence e bounded.1).1 <| .cons (decides_sequence e bounded.2).2 <|
    .cons (decides_after e c.createdAfter) <| .cons (decides_until e c.createdUntil) .nil
  refine each.trans (congrArg some ?_)
  simp [QueryClause.matches, Bool.and_assoc]

end

/-- The tests of a clause are on columns of events. -/
theorem ofEvents_tests (c : QueryClause) : ∀ t ∈ c.tests, t.OfEvents := by
  have compared {α : Type} {wanted : Option α} {comparison : Comparison} {v : α → SqlParam}
      {column : String} {t : ColumnTest}
      (asked : some t = wanted.map fun a => .compare column comparison (v a)) :
      t.column = column := by
    obtain ⟨a, -, rfl⟩ := Option.map_eq_some_iff.mp asked.symm
    rfl
  have among {kind : IdentifierKind} {column : String} {ids : List (Identifier kind)}
      {t : ColumnTest} (asked : some t = amongIdentifiers? column ids) : t.column = column := by
    cases ids with
    | nil => cases asked
    | cons id ids => exact Option.some.inj asked ▸ rfl
  have excluded {ids : List InstanceId} {t : ColumnTest} (asked : some t =
      if ids.isEmpty then none else some (.notAmong "instance_id" (ids.map (·.text)))) :
      t.column = "instance_id" := by
    cases ids with
    | nil => cases asked
    | cons id ids => exact Option.some.inj asked ▸ rfl
  intro t here
  simp only [QueryClause.tests, List.mem_filterMap, id, exists_eq_right, List.mem_cons,
    List.not_mem_nil, or_false] at here
  have column : t.column = "instance_id" ∨ t.column = "aggregate_type" ∨
      t.column = "aggregate_id" ∨ t.column = "event_type" ∨ t.column = "sequence" ∨
      t.column = "creation_date" := by
    rcases here with asked | asked | asked | asked | asked | asked | asked | asked | asked
    · exact .inl (compared asked)
    · exact .inl (excluded asked)
    · exact .inr (.inl (among asked))
    · exact .inr (.inr (.inl (among asked)))
    · exact .inr (.inr (.inr (.inl (among asked))))
    · exact .inr (.inr (.inr (.inr (.inl (compared asked)))))
    · exact .inr (.inr (.inr (.inr (.inl (compared asked)))))
    · exact .inr (.inr (.inr (.inr (.inr (compared asked)))))
    · exact .inr (.inr (.inr (.inr (.inr (compared asked)))))
  rw [ColumnTest.OfEvents]
  rcases column with same | same | same | same | same | same <;> simp [same, eventColumns]

/-- The numbers of an event fit into 64 bits. -/
def Event.Numbered (e : Event) : Prop :=
  e.sequence < wordCount ∧ e.previousOfAggregate < wordCount ∧ e.previousOfType < wordCount

theorem ofRow_readRow {e : Event} (numbered : e.Numbered) :
    (readRow (resultRow e.cell? eventColumns)).map Event.ofRow = .ok e := by
  obtain ⟨sequence, ofAggregate, ofType⟩ := numbered
  have full : readRow (resultRow e.cell? eventColumns) =
      .ok (e.sequence, e.instanceId.text, e.aggregateType.text, e.aggregateId.text,
        e.eventType.text, e.previousOfAggregate, e.previousOfType, e.creationDate, e.payload, ()) :=
    rfl
  change (readRow (resultRow e.cell? eventColumns)).map Event.ofRow = _
  simp only [full, Except.map, Event.ofRow, unsignedWord_of_lt sequence,
    unsignedWord_of_lt ofAggregate, unsignedWord_of_lt ofType]

theorem readEvents_resultRows {events : List Event} (numbered : ∀ e ∈ events, e.Numbered) :
    readEvents (events.map fun e => resultRow e.cell? eventColumns) = .ok events := by
  have rows : ∃ rows, (events.map fun e => resultRow e.cell? eventColumns).mapM readRow = .ok rows ∧
      rows.map Event.ofRow = events := by
    induction events with
    | nil => exact ⟨[], rfl, rfl⟩
    | cons e events ih =>
      have ⟨here, others⟩ := List.forall_mem_cons.mp numbered
      obtain ⟨rows, read, same⟩ := ih others
      have first := ofRow_readRow here
      cases row : readRow (resultRow e.cell? eventColumns) with
      | error failure => rw [row] at first; cases first
      | ok values =>
        rw [row] at first
        refine ⟨values :: rows, ?_, ?_⟩
        · rw [List.map_cons, List.mapM_cons, row, read]
          rfl
        · rw [List.map_cons, same, Except.ok.inj first]
  obtain ⟨rows, read, same⟩ := rows
  rw [readEvents, read]
  exact congrArg Except.ok same

theorem upTo_sequence (a b : Event) :
    Event.upTo "sequence" a b = decide (a.sequence ≤ b.sequence) := by
  have int : Event.upTo "sequence" a b =
      ((SqlParam.int8 a.sequence).order? (.int8 b.sequence)).any (· != .gt) := rfl
  rw [int]
  simp only [SqlParam.order?, Int.ofNat_lt]
  by_cases more : b.sequence < a.sequence
  · rw [if_pos more, decide_eq_false (by omega)]
    rfl
  · rw [if_neg more, decide_eq_true (by omega)]
    split <;> rfl

/-- Events are ordered by their sequences, whatever the order of the table is. -/
theorem mergeSort_eq {found table : List Event} (same : table.Perm found)
    (ascending : found.Pairwise (·.sequence < ·.sequence)) :
    table.mergeSort (Event.upTo "sequence") = found := by
  have sorted : (table.mergeSort (Event.upTo "sequence")).Pairwise
      fun a b => a.sequence ≤ b.sequence := by
    refine (List.pairwise_mergeSort ?_ ?_ table).imp fun upTo => ?_
    · simp only [upTo_sequence, decide_eq_true_eq]
      exact fun a b c => Nat.le_trans
    · simp only [upTo_sequence, Bool.or_eq_true, decide_eq_true_eq]
      exact fun a b => Nat.le_total ..
    · simpa only [upTo_sequence, decide_eq_true_eq] using upTo
  have perm := (List.mergeSort_perm table (Event.upTo "sequence")).trans same
  have distinct : (found.map (·.sequence)).Nodup :=
    (List.pairwise_map.mpr ascending).imp Nat.ne_of_lt
  refine perm.eq_of_pairwise (fun a b inTable inFound upTo downTo => ?_) sorted
    (ascending.imp Nat.le_of_lt)
  exact List.inj_on_of_nodup_map distinct (perm.mem_iff.mp inTable) inFound
    (Nat.le_antisymm upTo downTo)

/-- The statement of a query is read as a selection with its limit. -/
theorem toSelect?_eq_some {q : SearchQuery} {select : EventSelect} (asked : q.toSelect? = some select) :
    ∃ first rest, q.clauses = first :: rest ∧ select.OfEvents ∧
      select.alternatives = first.tests :: rest.map QueryClause.tests ∧
      select.limit = q.limit.map fun (n : Nat) => signedWord n := by
  rw [SearchQuery.toSelect?] at asked
  cases clauses : q.clauses with
  | nil => rw [clauses] at asked; cases asked
  | cons first rest =>
    rw [clauses] at asked
    cases asked
    refine ⟨first, rest, rfl, fun tests here => ?_, rfl, ?_⟩
    · obtain ⟨c, -, rfl⟩ := List.mem_map.mp here
      exact ofEvents_tests c
    · cases q.limit <;> rfl

/-- What a selection asks for if it is that of a query. -/
structure SqlSelect.Asks (s : SqlSelect) (q : SearchQuery) : Prop where
  table : s.table = "events"
  columns : s.columns = eventColumns.map (·.name)
  order : s.order = "sequence"
  limit : s.limit = q.limit.map fun (n : Nat) => .int8 (signedWord n)
  matching : (∀ c ∈ q.clauses, c.Bounded) → ∀ e : Event, s.test.truth? e.cell? = some (q.matches e)

/-- The statement of a query is read as a selection that asks for the events that match it. -/
theorem exists_asks {q : SearchQuery} {select : EventSelect} (asked : q.toSelect? = some select) :
    ∃ s : SqlSelect, s.Asks q ∧
      (Fragment.call select.fragments eventColumns).items?.bind readSelect? = some s := by
  obtain ⟨first, rest, clauses, ofEvents, alternatives, limit⟩ := toSelect?_eq_some asked
  refine ⟨_, ⟨rfl, rfl, rfl, ?_, fun bounded e => ?_⟩,
    EventSelect.readSelect?_call alternatives ofEvents⟩
  · rw [limit, Option.map_map]
    rfl
  · rw [SearchQuery.matches, clauses]
    exact EventSelect.truth?_disjunction _ _ fun c here => truth?_tests e (bounded c (clauses ▸ here))

/-- A query that a database can be asked. -/
structure SearchQuery.Bounded (q : SearchQuery) : Prop where
  clauses : ∀ c ∈ q.clauses, c.Bounded
  limit : ∀ n ∈ q.limit, (n : Int) ≤ greatestSigned

theorem toSelect?_eq_none {q : SearchQuery} : q.toSelect? = none ↔ q.clauses = [] := by
  rw [SearchQuery.toSelect?]
  split
  case isTrue none => exact iff_of_true rfl (List.isEmpty_iff.mp none)
  case isFalse some =>
    exact iff_of_false (fun none => nomatch none) fun none => some (List.isEmpty_iff.mpr none)

theorem filter_of_clauses_eq_nil {q : SearchQuery} (none : q.clauses = []) (log : EventLog) :
    log.filter q = [] := by
  have found : log.events.filter q.matches = [] := by
    refine List.filter_eq_nil_iff.mpr fun e _ => ?_
    rw [SearchQuery.matches, none]
    exact Bool.false_ne_true
  rw [EventLog.filter, SearchQuery.select, found]
  cases q.limit <;> simp

/-- The events that the log finds are events of the log. -/
theorem mem_of_mem_filter {q : SearchQuery} {log : EventLog} {e : Event} (here : e ∈ log.filter q) :
    e ∈ log.events := by
  rw [EventLog.filter, SearchQuery.select] at here
  cases limit : q.limit with
  | none => rw [limit] at here; exact List.mem_of_mem_filter here
  | some n => rw [limit] at here; exact List.mem_of_mem_filter (List.mem_of_mem_take here)

/-- The rows of a table that a query asks for are those of the events that the log finds. -/
theorem rows_eq_filter {q : SearchQuery} {log : EventLog} {table : List Event} {s : SqlSelect}
    (asks : s.Asks q) (bounded : q.Bounded)
    (ascending : log.events.Pairwise (·.sequence < ·.sequence)) (same : table.Perm log.events) :
    s.rows table = .ok (log.filter q) := by
  have kept : (table.filter fun e => s.test.truth? e.cell? == some true) =
      table.filter q.matches := by
    refine List.filter_congr fun e _ => ?_
    rw [asks.matching bounded.clauses]
    cases q.matches e <;> rfl
  have ordered : s.ordered table = log.events.filter q.matches := by
    rw [SqlSelect.ordered, kept, asks.order]
    exact mergeSort_eq (same.filter q.matches) (ascending.filter q.matches)
  rw [SqlSelect.rows, asks.limit, ordered, EventLog.filter, SearchQuery.select]
  cases limit : q.limit with
  | none => rfl
  | some n =>
    have unsigned : ¬(n : Int) < 0 := by omega
    rw [Option.map_some, signedWord_of_le (bounded.limit n limit)]
    simp only [unsigned, if_false, Int.toNat_natCast]

/-- A database with a table of events finds the same events as a log of them in memory, in the same
order; it is sent one statement, and none for a query without clauses. -/
theorem filterEvents_eq_filter {q : SearchQuery} {log : EventLog} {table : List Event}
    (bounded : q.Bounded) (numbered : ∀ e ∈ log.events, e.Numbered)
    (ascending : log.events.Pairwise (·.sequence < ·.sequence)) (same : table.Perm log.events) :
    ∃ sent, (filterEvents q).run (eventTable table) [] = (.ok (log.filter q), sent) ∧
      sent.length = if q.clauses = [] then 0 else 1 := by
  cases asked : q.toSelect? with
  | none =>
    have none := toSelect?_eq_none.mp asked
    refine ⟨[], ?_, by rw [if_pos none]; rfl⟩
    rw [filterEvents, asked, filter_of_clauses_eq_nil none]
    rfl
  | some select =>
    obtain ⟨s, asks, read⟩ := exists_asks asked
    have some : q.clauses ≠ [] := fun none => by simp [toSelect?_eq_none.mpr none] at asked
    have answer : answerSelect table (Fragment.call select.fragments eventColumns) =
        .ok ⟨(log.filter q).length, (log.filter q).map fun e => resultRow e.cell? eventColumns⟩ := by
      rw [answerSelect, read]
      simp only
      rw [if_pos ⟨asks.table, asks.columns⟩, rows_eq_filter asks bounded ascending same]
      rfl
    have events := readEvents_resultRows fun e here => numbered e (mem_of_mem_filter (q := q) here)
    refine ⟨[Fragment.call select.fragments eventColumns], ?_, by rw [if_neg some]; rfl⟩
    rw [filterEvents, asked]
    simp only [sendSql, Dialogue.call, bind, Dialogue.bind, Dialogue.run_ask, eventTable]
    rw [answer]
    exact congrArg (·, [Fragment.call select.fragments eventColumns]) events

/-- An event of a user. -/
def userEvent (n : Nat) : Event where
  aggregateType := ⟨"user"⟩
  aggregateId := ⟨"u1"⟩
  instanceId := ⟨"a"⟩
  eventType := ⟨"user.changed"⟩
  sequence := n
  previousOfAggregate := n - 1
  previousOfType := n - 1
  creationDate := ⟨0, 0⟩
  payload := .null

/-- A query with a bound that the second of two events is above. -/
def laterQuery : SearchQuery where
  clauses := [{ instanceId := some ⟨"a"⟩, sequenceGreater := some 1 }, { sequenceLess := some 1 }]
  limit := some 5

theorem filterEvents_eq_filter_userEvents :
    laterQuery.Bounded ∧ (∀ e ∈ [userEvent 1, userEvent 2], e.Numbered) ∧
      [userEvent 1, userEvent 2].Pairwise (·.sequence < ·.sequence) ∧
      [userEvent 2, userEvent 1].Perm [userEvent 1, userEvent 2] ∧
      ∃ sent, (filterEvents laterQuery).run (eventTable [userEvent 2, userEvent 1]) [] =
        (.ok [userEvent 2], sent) ∧ sent.length = 1 := by
  have bounded : laterQuery.Bounded := by
    refine ⟨?_, ?_⟩ <;> simp [laterQuery, QueryClause.Bounded, greatestSigned]
  let log : EventLog := ⟨[userEvent 1, userEvent 2]⟩
  have numbered : ∀ e ∈ log.events, e.Numbered := by
    simp [log, Event.Numbered, userEvent, wordCount]
  have ascending : log.events.Pairwise (·.sequence < ·.sequence) := by
    simp [log, userEvent]
  have same : [userEvent 2, userEvent 1].Perm log.events := .swap ..
  exact ⟨bounded, numbered, ascending, same, filterEvents_eq_filter bounded numbered ascending same⟩

end ReadModel
