import ReadModel.Database.Events
import ReadModel.Proofs.Names

/-!
What a database makes of a selection of events.

The text of a statement is split into tokens, and each mark is replaced by the value that it stands
for (`SqlCall.items?`). A test is read token by token, with `NOT` before `AND` before `OR`
(`TestReader`), and its truth follows the three-valued logic of SQL (`SqlTest.truth?`). The answer to
a selection are the rows that pass the test, in the order asked for and no more of them than the limit
(`answerSelect`); a negative limit is refused.
-/

namespace ReadModel

/-- A token of a statement together with its values. -/
inductive SqlItem where
  | word (s : String)
  | value (v : SqlParam)

namespace SqlItem

/-- The item of a token: a mark is the value with its number, counted from one. -/
def ofToken? (params : List SqlParam) (token : String) : Option SqlItem :=
  match token.toList with
  | '$' :: digits =>
    if digits.all Char.isDigit then
      match Nat.ofDigitChars 10 digits 0 with
      | 0 => none
      | n + 1 => params[n]?.map value
    else none
  | _ => some (word token)

/-- Whether an item is a word. -/
def isWord (expected : String) : SqlItem → Bool
  | word s => s == expected
  | value _ => false

end SqlItem

/-- The tokens of a statement with its values in their places. -/
def SqlCall.items? (call : SqlCall) : Option (List SqlItem) :=
  (sqlTokens call.text).mapM (SqlItem.ofToken? call.params)

/-- A mark is the value with its number. -/
theorem SqlItem.ofToken?_mark (params : List SqlParam) (n : Nat) :
    ofToken? params (mark (n + 1)) = params[n]?.map value := by
  have digits : (Nat.toDigits 10 (n + 1)).all Char.isDigit = true :=
    List.all_eq_true.mpr fun c here => Nat.isDigit_of_mem_toDigits (by decide) (by decide) here
  have number : Nat.ofDigitChars 10 (Nat.toDigits 10 (n + 1)) 0 = n + 1 :=
    Nat.ofDigitChars_toDigits (by decide) (by decide)
  simp only [ofToken?, toList_mark, digits, if_true, number]

theorem SqlItem.ofToken?_word {params : List SqlParam} {s : String}
    (plain : '$' ∉ s.toList) : ofToken? params s = some (word s) := by
  rw [ofToken?]
  split
  case h_1 digits start => exact absurd (start ▸ List.mem_cons_self ..) plain
  case h_2 => rfl

/-- The items of a fragment. -/
def Fragment.items : Fragment → List SqlItem
  | .text s => (sqlTokens s).map .word
  | .value v => [.value v]

/-- An item has no dollar sign. -/
def SqlItem.Unmarked : SqlItem → Prop
  | .word s => '$' ∉ s.toList
  | .value _ => True

theorem Fragment.mapM_spell (before : List SqlParam) {fragments : List Fragment}
    (plain : ∀ item ∈ fragments.flatMap items, item.Unmarked) :
    (SqlToken.spell (before.length + 1) (fragments.flatMap tokens)).mapM
        (SqlItem.ofToken? (before ++ params fragments)) = some (fragments.flatMap items) := by
  induction fragments generalizing before with
  | nil => rfl
  | cons first rest ih =>
    rw [List.flatMap_cons, List.forall_mem_append] at plain
    cases first with
    | text s =>
      have words : (sqlTokens s).mapM (SqlItem.ofToken? (before ++ params rest)) =
          some ((sqlTokens s).map .word) := by
        have each : ∀ token ∈ sqlTokens s, SqlItem.ofToken? (before ++ params rest) token =
            some (.word token) :=
          fun token here => SqlItem.ofToken?_word (plain.1 _ (List.mem_map_of_mem here))
        generalize sqlTokens s = list at each
        induction list with
        | nil => rfl
        | cons token list ih' =>
          have ⟨here, others⟩ := List.forall_mem_cons.mp each
          simp [here, ih' others]
      rw [List.flatMap_cons, tokens_text, SqlToken.ofText, SqlToken.spell_words, List.mapM_append,
        params, words, ih before plain.2]
      rfl
    | value v =>
      have value : (before ++ v :: params rest)[before.length]? = some v := by simp
      have after := ih (before ++ [v]) plain.2
      rw [List.length_append, List.length_singleton, List.append_assoc, List.singleton_append] at after
      rw [List.flatMap_cons, tokens_value, List.singleton_append, SqlToken.spell, List.mapM_cons,
        params, SqlItem.ofToken?_mark, value, after]
      rfl

/-- The items of the statement that fragments make are those of the fragments. -/
theorem Fragment.items?_call {fragments : List Fragment} (columns : List ResultColumn)
    (apart : fragments.IsChain Apart)
    (plain : ∀ item ∈ fragments.flatMap items, item.Unmarked) :
    (call fragments columns).items? = some (fragments.flatMap items) := by
  rw [SqlCall.items?, call, tokens_render apart]
  exact mapM_spell [] plain

/-- A test of rows. -/
inductive SqlTest where
  | always
  | compare (column : String) (comparison : Comparison) (v : SqlParam)
  | anyOf (column : String) (v : SqlParam)
  | not (t : SqlTest)
  | and (s t : SqlTest)
  | or (s t : SqlTest)

/-- The comparison of a sign. -/
def Comparison.ofSign? (sign : String) : Option Comparison :=
  [Comparison.equals, .above, .below, .upTo].find? fun c => c.sign == sign

/-- The test of a column that items make up. -/
def SqlTest.ofItems? : List SqlItem → Option SqlTest
  | [.word column, .word sign, .value v] => (Comparison.ofSign? sign).map fun c => .compare column c v
  | [.word column, .word sign, .word any, .word opening, .value v, .word closing] =>
    if sign = "=" ∧ any = "ANY" ∧ opening = "(" ∧ closing = ")" then some (.anyOf column v) else none
  | _ => none

/-- What has been read of a test since a parenthesis was opened, up to the part that is being read:
the alternatives before the last `OR`, the parts before the last `AND` after that, and how often the
part that is being read is negated. -/
structure TestLevel where
  alternatives : Option SqlTest := none
  parts : Option SqlTest := none
  negations : Nat := 0

namespace TestLevel

/-- The parts of the last alternative, up to a last one. -/
def conjoined (level : TestLevel) (last : SqlTest) : SqlTest :=
  match level.parts with
  | none => last
  | some parts => .and parts last

/-- All alternatives, up to a last part. -/
def closed (level : TestLevel) (last : SqlTest) : SqlTest :=
  match level.alternatives with
  | none => level.conjoined last
  | some alternatives => .or alternatives (level.conjoined last)

end TestLevel

/-- How far a test has been read: the open parentheses, the innermost first, and of the part that is
being read either some items or, once it is complete, the whole. -/
structure TestReader where
  level : TestLevel := {}
  outer : List TestLevel := []
  pending : List SqlItem := []
  last : Option SqlTest := none

namespace TestReader

/-- A part is complete. -/
def complete (r : TestReader) (t : SqlTest) : TestReader :=
  { r with
    level := { r.level with negations := 0 }
    pending := []
    last := some (SqlTest.not^[r.level.negations] t) }

/-- Reads an item after a part that is complete. -/
def connect (r : TestReader) (last : SqlTest) (item : SqlItem) : Option TestReader :=
  if item.isWord "AND" then
    some { r with level := { r.level with parts := some (r.level.conjoined last) }, last := none }
  else if item.isWord "OR" then
    some { r with level := { alternatives := some (r.level.closed last) }, last := none }
  else if item.isWord ")" then
    match r.outer with
    | [] => none
    | level :: outer => some (complete { level, outer } (r.level.closed last))
  else none

/-- Reads the first item of a part. -/
def begin (r : TestReader) (item : SqlItem) : TestReader :=
  if item.isWord "TRUE" then r.complete .always
  else if item.isWord "NOT" then
    { r with level := { r.level with negations := r.level.negations + 1 } }
  else if item.isWord "(" then { outer := r.level :: r.outer }
  else { r with pending := [item] }

/-- Reads an item. -/
def step (r : TestReader) (item : SqlItem) : Option TestReader :=
  match r.last with
  | some last => r.connect last item
  | none =>
    if r.pending.isEmpty then some (r.begin item)
    else
      match SqlTest.ofItems? (r.pending ++ [item]) with
      | some t => some (r.complete t)
      | none => some { r with pending := r.pending ++ [item] }

/-- Reads items. -/
def read (r : TestReader) (items : List SqlItem) : Option TestReader := items.foldlM step r

theorem read_cons (r : TestReader) (item : SqlItem) (items : List SqlItem) :
    r.read (item :: items) = (r.step item).bind (·.read items) :=
  List.foldlM_cons

theorem read_append (r : TestReader) (front back : List SqlItem) :
    r.read (front ++ back) = (r.read front).bind (·.read back) :=
  List.foldlM_append

end TestReader

/-- The test that items make up. -/
def readTest? (items : List SqlItem) : Option SqlTest :=
  match TestReader.read {} items with
  | some { level, outer := [], last := some last, .. } => some (level.closed last)
  | _ => none

/-- The names in a list with commas. -/
def readNames? : List SqlItem → Option (List String)
  | [.word name] => some [name]
  | .word name :: .word comma :: rest => if comma = "," then (readNames? rest).map (name :: ·) else none
  | _ => none

/-- A selection. -/
structure SqlSelect where
  columns : List String
  table : String
  test : SqlTest
  order : String
  limit : Option SqlParam

/-- The items before a word, and those after it. -/
def cutAt? (keyword : String) : List SqlItem → Option (List SqlItem × List SqlItem)
  | [] => none
  | item :: rest =>
    if item.isWord keyword then some ([], rest)
    else (cutAt? keyword rest).map fun (front, back) => (item :: front, back)

/-- What follows the test of a selection: the column that gives the order, and the limit. -/
def readOrder? : List SqlItem → Option (String × Option SqlParam)
  | .word by' :: .word column :: .word direction :: rest =>
    if by' = "BY" ∧ direction = "ASC" then
      match rest with
      | [] => some (column, none)
      | [.word limit, .value v] => if limit = "LIMIT" then some (column, some v) else none
      | _ => none
    else none
  | _ => none

/-- The selection that items make up. -/
def readSelect? (items : List SqlItem) : Option SqlSelect :=
  match cutAt? "SELECT" items with
  | some ([], items) => do
    let (columns, items) ← cutAt? "FROM" items
    let (tables, items) ← cutAt? "WHERE" items
    let (test, items) ← cutAt? "ORDER" items
    let columns ← readNames? columns
    let tables ← readNames? tables
    let test ← readTest? test
    let (order, limit) ← readOrder? items
    match tables with
    | [table] => return { columns, table, test, order, limit }
    | _ => none
  | _ => none

theorem cutAt?_append {keyword : String} (front back : List SqlItem)
    (free : ∀ item ∈ front, item.isWord keyword = false) :
    cutAt? keyword (front ++ .word keyword :: back) = some (front, back) := by
  induction front with
  | nil => simp [cutAt?, SqlItem.isWord]
  | cons item front ih =>
    have ⟨here, others⟩ := List.forall_mem_cons.mp free
    simp [cutAt?, here, ih others]

theorem readSelect?_items {columns test order : List SqlItem} {table : String}
    (inColumns : ∀ item ∈ columns, item.isWord "FROM" = false) (other : table ≠ "WHERE")
    (inTest : ∀ item ∈ test, item.isWord "ORDER" = false) :
    readSelect? (.word "SELECT" :: (columns ++ .word "FROM" :: .word table :: .word "WHERE" ::
      (test ++ .word "ORDER" :: order))) = do
        let columns ← readNames? columns
        let test ← readTest? test
        let (order, limit) ← readOrder? order
        return { columns, table, test, order, limit } := by
  have start (rest : List SqlItem) : cutAt? "SELECT" (.word "SELECT" :: rest) = some ([], rest) :=
    cutAt?_append [] rest (fun _ here => nomatch here)
  have tables (rest : List SqlItem) :
      cutAt? "WHERE" (.word table :: .word "WHERE" :: rest) = some ([.word table], rest) :=
    cutAt?_append [.word table] rest (by simp [SqlItem.isWord, other])
  simp [readSelect?, start, tables, cutAt?_append _ _ inColumns, cutAt?_append _ _ inTest, readNames?]

/-- How two values other than nulls compare, if they have one type. -/
def SqlParam.order? : SqlParam → SqlParam → Option Ordering
  | .int8 a, .int8 b => some (if b < a then .gt else if a < b then .lt else .eq)
  | .text a, .text b => some (if a = b then .eq else if a < b then .lt else .gt)
  | .timestamp (some a), .timestamp (some b) =>
    some (if b.before a then .gt else if a.before b then .lt else .eq)
  | _, _ => none

/-- Whether a text is one of those in an array. -/
def SqlParam.isIn? : SqlParam → SqlParam → Option Bool
  | .text s, .textArray items => some (decide (s ∈ items))
  | _, _ => none

/-- Whether two values that compare like this pass the comparison. -/
def Comparison.admits : Comparison → Ordering → Bool
  | .equals, order => order == .eq
  | .above, order => order == .gt
  | .below, order => order == .lt
  | .upTo, order => order != .gt

theorem Comparison.admits_text (a b : String) :
    ((SqlParam.text a).order? (.text b)).map equals.admits = some (decide (a = b)) := by
  by_cases same : a = b
  · simp [SqlParam.order?, admits, same]
  · by_cases less : a < b <;> simp [SqlParam.order?, admits, same, less]

theorem Comparison.admits_int8 (a b : Int) :
    ((SqlParam.int8 a).order? (.int8 b)).map above.admits = some (decide (b < a)) ∧
      ((SqlParam.int8 a).order? (.int8 b)).map below.admits = some (decide (a < b)) := by
  by_cases more : b < a
  · simp [SqlParam.order?, admits, more, Int.le_of_lt more]
  · by_cases less : a < b <;> simp [SqlParam.order?, admits, more, less]

theorem Comparison.admits_timestamp (a b : Instant) :
    ((SqlParam.timestamp (some a)).order? (.timestamp (some b))).map above.admits =
        some (b.before a) ∧
      ((SqlParam.timestamp (some a)).order? (.timestamp (some b))).map upTo.admits =
        some (!b.before a) := by
  cases later : b.before a
  · cases earlier : a.before b <;> simp [SqlParam.order?, admits, later, earlier]
  · simp [SqlParam.order?, admits, later]

/-- The truth of a test for a row, if it is known. -/
def SqlTest.truth? (row : String → Option SqlParam) : SqlTest → Option Bool
  | .always => some true
  | .compare column comparison v =>
    (row column).bind fun cell => (cell.order? v).map comparison.admits
  | .anyOf column v => (row column).bind (·.isIn? v)
  | .not t => (t.truth? row).map (!·)
  | .and s t =>
    match s.truth? row, t.truth? row with
    | some false, _ | _, some false => some false
    | some true, some true => some true
    | _, _ => none
  | .or s t =>
    match s.truth? row, t.truth? row with
    | some true, _ | _, some true => some true
    | some false, some false => some false
    | _, _ => none

/-- The row of an event. -/
def Event.cell? (e : Event) (column : String) : Option SqlParam :=
  if column = "sequence" then some (.int8 e.sequence)
  else if column = "instance_id" then some (.text e.instanceId.text)
  else if column = "aggregate_type" then some (.text e.aggregateType.text)
  else if column = "aggregate_id" then some (.text e.aggregateId.text)
  else if column = "event_type" then some (.text e.eventType.text)
  else if column = "previous_aggregate_sequence" then some (.int8 e.previousOfAggregate)
  else if column = "previous_aggregate_type_sequence" then some (.int8 e.previousOfType)
  else if column = "creation_date" then some (.timestamp (some e.creationDate))
  else if column = "payload" then some (.json e.payload)
  else none

/-- Whether the row of an event may stand before that of another one in the order of a column. -/
def Event.upTo (column : String) (a b : Event) : Bool :=
  match a.cell? column, b.cell? column with
  | some v, some w => (v.order? w).any (· != .gt)
  | _, _ => false

namespace SqlSelect

/-- The events whose rows pass the test, in order. -/
def ordered (s : SqlSelect) (table : List Event) : List Event :=
  (table.filter fun e => s.test.truth? e.cell? == some true).mergeSort (Event.upTo s.order)

/-- The events whose rows are selected. -/
def rows (s : SqlSelect) (table : List Event) : Except SqlFailure (List Event) :=
  match s.limit with
  | none => .ok (s.ordered table)
  | some (.int8 n) =>
    if n < 0 then .error (.server "2201W" "LIMIT must not be negative")
    else .ok ((s.ordered table).take n.toNat)
  | some _ => .error (.server "42804" "argument of LIMIT must be type bigint")

end SqlSelect

/-- The value of a cell as a column of this type gives it back. -/
def ColumnType.ofCell? : (t : ColumnType) → SqlParam → Option t.Value
  | .int8, .int8 n => some n
  | .text, .text s => some s
  | .timestamp, .timestamp t => t
  | .json, .json v => some v
  | _, _ => none

/-- A row as it is given back. -/
def resultRow (cells : String → Option SqlParam) : (columns : List ResultColumn) → ResultRow columns
  | [] => ()
  | column :: rest => ((cells column.name).bind column.type.ofCell?, resultRow cells rest)

/-- What a database with this table of events answers to a statement that asks for events. -/
def answerSelect (table : List Event) (call : SqlCall) :
    Except SqlFailure (SqlReply call.columns) :=
  match call.items?.bind readSelect? with
  | none => .error (.server "42601" "syntax error")
  | some s =>
    if s.table = "events" ∧ s.columns = call.columns.map (·.name) then
      (s.rows table).map fun found =>
        ⟨found.length, found.map fun e => resultRow e.cell? call.columns⟩
    else .error (.server "42P01" "undefined table or column")

/-- A database with this table of events, which keeps the statements that it is sent. -/
def eventTable (table : List Event) (call : SqlCall) (sent : List SqlCall) :
    Except SqlFailure (SqlReply call.columns) × List SqlCall :=
  (answerSelect table call, sent ++ [call])

end ReadModel
