import ReadModel.Database.Operation
import ReadModel.Proofs.Names

/-!
The statements of operations.

The statement of an operation is made of its plain names, of words that the kind of operation gives,
and of values. Read as tokens it is `Operation.tokens`, in which each value but a null is a slot; so
the marks of its text are `$1`, `$2` and so on, once each, and operations that differ in their values
alone have the same text.
-/

namespace ReadModel

/-- Names as tokens. -/
def SqlToken.listed (names : List String) : List SqlToken :=
  commas (names.map fun name => [word name])

/-- A value as a token. -/
def SqlValue.token : SqlValue → SqlToken
  | .null => .word "NULL"
  | _ => .slot

/-- The test of a condition, as tokens. -/
def Condition.tokens (c : Condition) : List SqlToken :=
  match c.value with
  | .null => [.word c.column, .word "IS", .word "NULL"]
  | _ => [.word c.column, .word "=", .slot]

/-- The assignment of a column, as tokens. -/
def Column.tokens (c : Column) : List SqlToken := [.word c.name, .word "=", c.value.token]

namespace Operation

open SqlToken (word listed commas)

/-- What an insertion sets in the row that has the same key. -/
def replaced (columns : List Column) (keys : List String) : List String :=
  let others := (columns.filter fun c => !decide (c.name ∈ keys)).map (·.name)
  if others.isEmpty then keys.take 1 else others

/-- What follows an insertion that is to change the row that has the same key, as tokens. -/
def conflictTokens (columns : List Column) (keys : List String) : List SqlToken :=
  if keys.isEmpty then []
  else [word "ON", word "CONFLICT", word "("] ++ listed keys ++
    [word ")", word "DO", word "UPDATE", word "SET"] ++
    commas ((replaced columns keys).map fun name =>
      [word name, word "=", word ("EXCLUDED." ++ name)])

/-- The conditions of an operation, as tokens. -/
def whereTokens (conditions : List Condition) : List SqlToken :=
  word "WHERE" :: [word "AND"].intercalate (conditions.map Condition.tokens)

/-- The statement of an operation on a single table, as tokens. -/
def tokens : Operation → List SqlToken
  | .create table columns conflict =>
    [word "INSERT", word "INTO", word table, word "("] ++ listed (columns.map (·.name)) ++
      [word ")", word "VALUES", word "("] ++ commas (columns.map fun c => [c.value.token]) ++
      [word ")"] ++ conflictTokens columns conflict
  | .update table columns conditions =>
    [word "UPDATE", word table, word "SET"] ++ commas (columns.map Column.tokens) ++
      whereTokens conditions
  | .delete table conditions => [word "DELETE", word "FROM", word table] ++ whereTokens conditions
  | .noOp | .multi _ => []

/-- The values of an operation on a single table: those of its columns, and then those of its
conditions. -/
def values : Operation → List SqlValue
  | .create _ columns _ => columns.map (·.value)
  | .update _ columns conditions => columns.map (·.value) ++ conditions.map (·.value)
  | .delete _ conditions => conditions.map (·.value)
  | .noOp | .multi _ => []

end Operation

/-- The value with nothing left of it but whether it is null. -/
def SqlValue.masked : SqlValue → SqlValue
  | .null => .null
  | _ => .bool true

/-- The operation on a single table with nothing left of its values but which are null. -/
def Operation.masked : Operation → Operation
  | .create table columns conflict =>
    .create table (columns.map fun c => { c with value := c.value.masked }) conflict
  | .update table columns conditions =>
    .update table (columns.map fun c => { c with value := c.value.masked })
      (conditions.map fun c => { c with value := c.value.masked })
  | .delete table conditions =>
    .delete table (conditions.map fun c => { c with value := c.value.masked })
  | .noOp => .noOp
  | .multi parts => .multi parts

/-- The fragment with nothing left of its value. -/
def Fragment.masked : Fragment → Fragment
  | .text s => .text s
  | .value _ => .value (.bool true)

namespace Fragment

@[simp]
theorem masked_text (s : String) : (Fragment.text s).masked = .text s := rfl

theorem render_masked (next : Nat) (fragments : List Fragment) :
    render next (fragments.map masked) = render next fragments := by
  induction fragments generalizing next with
  | nil => rfl
  | cons first rest ih => cases first <;> simp [render, masked, ih]

theorem params_append (front back : List Fragment) :
    params (front ++ back) = params front ++ params back := by
  induction front with
  | nil => rfl
  | cons first rest ih => cases first <;> simp [params, ih]

theorem params_separated (separator : String) (lists : List (List Fragment)) :
    params (separated separator lists) = lists.flatMap params := by
  induction lists with
  | nil => rfl
  | cons list rest ih =>
    cases rest with
    | nil => simp [separated]
    | cons next rest => simp [separated, params_append, params, ih]

theorem masked_separated (separator : String) (lists : List (List Fragment)) :
    (separated separator lists).map masked = separated separator (lists.map (·.map masked)) := by
  induction lists with
  | nil => rfl
  | cons list rest ih =>
    cases rest with
    | nil => rfl
    | cons next rest => simpa [separated] using ih

end Fragment

theorem SqlValue.fragment_masked (v : SqlValue) : v.masked.fragment = v.fragment.masked := by
  cases v <;> rfl

theorem SqlValue.params_fragment (v : SqlValue) : Fragment.params [v.fragment] = v.param?.toList := by
  cases v <;> rfl

theorem SqlValue.tokens_fragment (v : SqlValue) : v.fragment.tokens = [v.token] := by
  cases v <;> rfl

theorem SqlValue.unmarked_token (v : SqlValue) : v.token.Unmarked := by
  cases v <;> simp [token, SqlToken.Unmarked]

namespace Condition

theorem unmarked_tokens {c : Condition} (plain : IsName c.column) :
    ∀ token ∈ c.tokens, token.Unmarked := by
  have inColumn := plain.unmarked
  rw [tokens]
  split <;> simp_all [SqlToken.Unmarked]

theorem fragments_masked (c : Condition) :
    fragments { c with value := c.value.masked } = c.fragments.map Fragment.masked := by
  obtain ⟨column, value⟩ := c
  cases value <;> rfl

theorem params_fragments (c : Condition) : Fragment.params c.fragments = c.value.param?.toList := by
  obtain ⟨column, value⟩ := c
  cases value <;> rfl

theorem isChain_fragments (c : Condition) : c.fragments.IsChain Fragment.Apart := by
  have ends : endsLoose (c.column ++ " = ") = true := endsLoose_append _ rfl
  obtain ⟨column, value⟩ := c
  cases value <;> simp [fragments, SqlValue.param?, Fragment.Apart, Fragment.endsLoose, ends]

theorem tokens_fragments {c : Condition} (plain : IsName c.column) :
    c.fragments.flatMap Fragment.tokens = c.tokens := by
  have test : SqlToken.ofText (c.column ++ " = ") = [.word c.column, .word "="] := by
    rw [SqlToken.ofText_append (.inr rfl), SqlToken.ofText_name plain]
    rfl
  have absent : SqlToken.ofText (c.column ++ " IS NULL") =
      [.word c.column, .word "IS", .word "NULL"] := by
    rw [SqlToken.ofText_append (.inr rfl), SqlToken.ofText_name plain]
    rfl
  obtain ⟨column, value⟩ := c
  cases value with
  | null => simpa [fragments, SqlValue.param?, tokens] using absent
  | _ => simp [fragments, SqlValue.param?, tokens, test]

end Condition

namespace Column

theorem unmarked_tokens {c : Column} (plain : IsName c.name) :
    ∀ token ∈ c.tokens, token.Unmarked := by
  have inName := plain.unmarked
  have inValue := c.value.unmarked_token
  simp_all [tokens, SqlToken.Unmarked]

theorem fragments_masked (c : Column) :
    fragments { c with value := c.value.masked } = c.fragments.map Fragment.masked := by
  simp [fragments, SqlValue.fragment_masked]

theorem params_fragments (c : Column) : Fragment.params c.fragments = c.value.param?.toList :=
  c.value.params_fragment

theorem isChain_fragments (c : Column) : c.fragments.IsChain Fragment.Apart := by
  have ends : endsLoose (c.name ++ " = ") = true := endsLoose_append _ rfl
  simp [fragments, Fragment.Apart, Fragment.endsLoose, ends]

theorem tokens_fragments {c : Column} (plain : IsName c.name) :
    c.fragments.flatMap Fragment.tokens = c.tokens := by
  have assigned : SqlToken.ofText (c.name ++ " = ") = [.word c.name, .word "="] := by
    rw [SqlToken.ofText_append (.inr rfl), SqlToken.ofText_name plain]
    rfl
  simp [fragments, assigned, SqlValue.tokens_fragment, tokens]

end Column

namespace Operation

open SqlToken (word listed commas)

theorem onConflict_masked (columns : List Column) (keys : List String) :
    onConflict (columns.map fun c => { c with value := c.value.masked }) keys =
      (onConflict columns keys).map Fragment.masked := by
  cases keys with
  | nil => rfl
  | cons key keys => simp [onConflict, List.filter_map, Function.comp_def]

theorem whereClause_masked (conditions : List Condition) :
    whereClause (conditions.map fun c => { c with value := c.value.masked }) =
      (whereClause conditions).map Fragment.masked := by
  simp [whereClause, Fragment.masked_separated, Condition.fragments_masked,
    Function.comp_def]

theorem fragments_masked (op : Operation) :
    op.masked.fragments = op.fragments.map Fragment.masked := by
  cases op with
  | create table columns conflict =>
    simp [fragments, Operation.masked, onConflict_masked, Fragment.masked_separated,
      SqlValue.fragment_masked, Function.comp_def]
  | update table columns conditions =>
    simp [fragments, Operation.masked, whereClause_masked, Fragment.masked_separated,
      Column.fragments_masked, Function.comp_def]
  | delete table conditions =>
    simp [fragments, Operation.masked, whereClause_masked]
  | noOp => rfl
  | multi parts => rfl

theorem names_masked (op : Operation) : op.masked.names = op.names := by
  cases op <;> simp [names, Operation.masked, Function.comp_def]

theorem params_onConflict (columns : List Column) (keys : List String) :
    Fragment.params (onConflict columns keys) = [] := by
  cases keys <;> rfl

theorem params_whereClause (conditions : List Condition) :
    Fragment.params (whereClause conditions) =
      (conditions.map (·.value)).filterMap SqlValue.param? := by
  simp [whereClause, Fragment.params, Fragment.params_separated, List.flatMap_map,
    Condition.params_fragments, List.filterMap_eq_flatMap_toList]

theorem params_fragments (op : Operation) :
    Fragment.params op.fragments = op.values.filterMap SqlValue.param? := by
  cases op with
  | create table columns conflict =>
    simp [fragments, values, Fragment.params, Fragment.params_append, Fragment.params_separated,
      params_onConflict, List.flatMap_map, SqlValue.params_fragment, List.filterMap_eq_flatMap_toList]
  | update table columns conditions =>
    simp [fragments, values, Fragment.params, Fragment.params_append, Fragment.params_separated,
      params_whereClause, List.flatMap_map, Column.params_fragments, List.filterMap_eq_flatMap_toList]
  | delete table conditions => exact params_whereClause conditions
  | noOp => rfl
  | multi parts => rfl

theorem isChain_whereClause (conditions : List Condition) :
    (whereClause conditions).IsChain Fragment.Apart := by
  refine Fragment.isChain_append (.singleton _) (Fragment.isChain_separated rfl rfl ?_) ?_
  · intro list here
    obtain ⟨c, -, rfl⟩ := List.mem_map.mp here
    exact c.isChain_fragments
  · exact .inl fun a last => Option.mem_some.mp last ▸ rfl

theorem isChain_onConflict (columns : List Column) (keys : List String) :
    (onConflict columns keys).IsChain Fragment.Apart := by
  cases keys with
  | nil => exact .nil
  | cons key keys => exact .singleton _

theorem isChain_fragments (op : Operation) : op.fragments.IsChain Fragment.Apart := by
  have opening {text : String} (rest : List Fragment) (ends : endsLoose text = true)
      (chain : rest.IsChain Fragment.Apart) : (Fragment.text text :: rest).IsChain Fragment.Apart :=
    Fragment.isChain_append (.singleton _) chain (.inl fun a last => Option.mem_some.mp last ▸ ends)
  cases op with
  | create table columns conflict =>
    refine Fragment.isChain_append (opening _ (endsLoose_append _ rfl) ?_) ?_ ?_
    · refine Fragment.isChain_separated rfl rfl fun list here => ?_
      obtain ⟨c, -, rfl⟩ := List.mem_map.mp here
      exact .singleton _
    · exact opening _ rfl (isChain_onConflict columns conflict)
    · exact .inr fun b head => Option.mem_some.mp head ▸ rfl
  | update table columns conditions =>
    refine Fragment.isChain_append (opening _ (endsLoose_append _ rfl) ?_)
      (isChain_whereClause conditions) (.inr fun b head => Option.mem_some.mp head ▸ rfl)
    refine Fragment.isChain_separated rfl rfl fun list here => ?_
    obtain ⟨c, -, rfl⟩ := List.mem_map.mp here
    exact c.isChain_fragments
  | delete table conditions =>
    exact Fragment.isChain_append (.singleton _) (isChain_whereClause conditions)
      (.inr fun b head => Option.mem_some.mp head ▸ rfl)
  | noOp => exact .nil
  | multi parts => exact .nil

theorem ofText_listed {names : List String} (plain : ∀ name ∈ names, IsName name) :
    SqlToken.ofText (", ".intercalate names) = listed names := by
  rw [SqlToken.ofText, sqlTokens_names plain, map_intercalate, List.map_map]
  rfl

theorem ofText_replacement {name : String} (plain : IsName name) :
    SqlToken.ofText (name ++ " = EXCLUDED." ++ name) =
      [word name, word "=", word ("EXCLUDED." ++ name)] := by
  have start : "EXCLUDED.".toList.all isWordChar = true := rfl
  have qualified : sqlTokens ("EXCLUDED." ++ name) = ["EXCLUDED." ++ name] := by
    refine sqlTokens_of_word (by simp) fun c here => ?_
    rw [String.toList_append, List.mem_append] at here
    rcases here with inPrefix | inName
    · exact List.all_eq_true.mp start c inPrefix
    · exact (plain.isWord c inName).1
  have split : name ++ " = EXCLUDED." ++ name = name ++ " = " ++ ("EXCLUDED." ++ name) := by
    simp only [String.append_assoc]
    rfl
  rw [split, SqlToken.ofText_append (.inl (endsLoose_append _ rfl)), SqlToken.ofText_append (.inr rfl),
    SqlToken.ofText_name plain, SqlToken.ofText, SqlToken.ofText, qualified]
  rfl

theorem isName_replaced {columns : List Column} {keys : List String}
    (inColumns : ∀ c ∈ columns, IsName c.name) (inKeys : ∀ key ∈ keys, IsName key) :
    ∀ name ∈ replaced columns keys, IsName name := by
  intro name here
  rw [replaced] at here
  split at here
  · exact inKeys name (List.mem_of_mem_take here)
  · obtain ⟨c, kept, rfl⟩ := List.mem_map.mp here
    exact inColumns c (List.mem_filter.mp kept).1

theorem tokens_whereClause {conditions : List Condition}
    (plain : ∀ c ∈ conditions, IsName c.column) :
    (whereClause conditions).flatMap Fragment.tokens = whereTokens conditions := by
  have each : conditions.map (fun c => c.fragments.flatMap Fragment.tokens) =
      conditions.map Condition.tokens :=
    List.map_congr_left fun c here => c.tokens_fragments (plain c here)
  rw [whereClause, List.flatMap_cons, Fragment.tokens_separated, List.map_map]
  exact congrArg (fun tests => word "WHERE" :: [word "AND"].intercalate tests) each

theorem tokens_onConflict {columns : List Column} {keys : List String}
    (inColumns : ∀ c ∈ columns, IsName c.name) (inKeys : ∀ key ∈ keys, IsName key) :
    (onConflict columns keys).flatMap Fragment.tokens = conflictTokens columns keys := by
  cases keys with
  | nil => rfl
  | cons key keys =>
    have replacements : (replaced columns (key :: keys)).map
        (SqlToken.ofText ∘ fun name => name ++ " = EXCLUDED." ++ name) =
        (replaced columns (key :: keys)).map fun name =>
          [word name, word "=", word ("EXCLUDED." ++ name)] := by
      refine List.map_congr_left fun name here => ?_
      exact ofText_replacement (isName_replaced inColumns inKeys name here)
    change SqlToken.ofText (" ON CONFLICT (" ++ ", ".intercalate (key :: keys) ++
      ") DO UPDATE SET " ++ ", ".intercalate ((replaced columns (key :: keys)).map fun name =>
        name ++ " = EXCLUDED." ++ name)) ++ [] = _
    rw [List.append_nil, SqlToken.ofText_append (.inl (endsLoose_append _ rfl)),
      SqlToken.ofText_between _ rfl rfl, ofText_listed inKeys, SqlToken.ofText_intercalate _ rfl rfl,
      List.map_map, replacements]
    rfl

theorem tokens_fragments {op : Operation} (plain : ∀ name ∈ op.names, IsName name) :
    op.fragments.flatMap Fragment.tokens = op.tokens := by
  cases op with
  | create table columns conflict =>
    simp only [names, List.cons_append, List.forall_mem_cons, List.forall_mem_append] at plain
    obtain ⟨inTable, inColumns, inKeys⟩ := plain
    have text : SqlToken.ofText ("INSERT INTO " ++ table ++ " (" ++
        ", ".intercalate (columns.map (·.name)) ++ ") VALUES (") =
        [word "INSERT", word "INTO", word table, word "("] ++ listed (columns.map (·.name)) ++
          [word ")", word "VALUES", word "("] := by
      rw [SqlToken.ofText_between _ (endsLoose_append _ rfl) rfl, SqlToken.ofText_between _ rfl rfl,
        ofText_listed inColumns, SqlToken.ofText_name inTable]
      rfl
    have values : (columns.map fun c => [c.value.fragment]).map (·.flatMap Fragment.tokens) =
        columns.map fun c => [c.value.token] := by
      simp [SqlValue.tokens_fragment, Function.comp_def]
    rw [fragments, List.flatMap_append, List.flatMap_cons, List.flatMap_cons,
      Fragment.tokens_text, text, Fragment.tokens_separated, values,
      tokens_onConflict (fun c here => inColumns _ (List.mem_map_of_mem here)) inKeys]
    simp only [tokens, commas, List.append_assoc]
    rfl
  | update table columns conditions =>
    simp only [names, List.cons_append, List.forall_mem_cons, List.forall_mem_append] at plain
    obtain ⟨inTable, inColumns, inConditions⟩ := plain
    have assignments : (columns.map Column.fragments).map (·.flatMap Fragment.tokens) =
        columns.map Column.tokens := by
      rw [List.map_map]
      exact List.map_congr_left fun c here => c.tokens_fragments (inColumns _ (List.mem_map_of_mem here))
    rw [fragments, List.flatMap_append, List.flatMap_cons, Fragment.tokens_text,
      SqlToken.ofText_between _ rfl rfl, SqlToken.ofText_name inTable, Fragment.tokens_separated,
      assignments, tokens_whereClause fun c here => inConditions _ (List.mem_map_of_mem here)]
    rfl
  | delete table conditions =>
    simp only [names, List.forall_mem_cons] at plain
    obtain ⟨inTable, inConditions⟩ := plain
    rw [fragments, List.flatMap_cons, Fragment.tokens_text, SqlToken.ofText_append (.inl rfl),
      SqlToken.ofText_name inTable,
      tokens_whereClause fun c here => inConditions _ (List.mem_map_of_mem here)]
    rfl
  | noOp => rfl
  | multi parts => rfl

theorem unmarked_listed {names : List String} (plain : ∀ name ∈ names, IsName name) :
    ∀ token ∈ listed names, token.Unmarked := by
  refine forall_mem_intercalate (by simp [SqlToken.Unmarked]) fun list here => ?_
  obtain ⟨name, inNames, rfl⟩ := List.mem_map.mp here
  exact List.forall_mem_singleton.mpr (plain name inNames).unmarked

theorem unmarked_whereTokens {conditions : List Condition}
    (plain : ∀ c ∈ conditions, IsName c.column) :
    ∀ token ∈ whereTokens conditions, token.Unmarked := by
  refine List.forall_mem_cons.mpr ⟨by simp [SqlToken.Unmarked], ?_⟩
  refine forall_mem_intercalate (by simp [SqlToken.Unmarked]) fun list here => ?_
  obtain ⟨c, inConditions, rfl⟩ := List.mem_map.mp here
  exact Condition.unmarked_tokens (plain c inConditions)

theorem unmarked_conflictTokens {columns : List Column} {keys : List String}
    (inColumns : ∀ c ∈ columns, IsName c.name) (inKeys : ∀ key ∈ keys, IsName key) :
    ∀ token ∈ conflictTokens columns keys, token.Unmarked := by
  have replacements : ∀ token ∈ commas ((replaced columns keys).map fun name =>
      [word name, word "=", word ("EXCLUDED." ++ name)]), token.Unmarked := by
    refine forall_mem_intercalate (by simp [SqlToken.Unmarked]) fun list here => ?_
    obtain ⟨name, inReplaced, rfl⟩ := List.mem_map.mp here
    have plain := (isName_replaced inColumns inKeys name inReplaced).unmarked
    simp_all [SqlToken.Unmarked]
  rw [conflictTokens]
  split
  · exact List.forall_mem_nil _
  · simp only [List.forall_mem_append]
    exact ⟨⟨⟨by simp [SqlToken.Unmarked], unmarked_listed inKeys⟩, by simp [SqlToken.Unmarked]⟩,
      replacements⟩

/-- No word of the statement has a dollar sign. -/
theorem unmarked_tokens {op : Operation} (plain : ∀ name ∈ op.names, IsName name) :
    ∀ token ∈ op.tokens, token.Unmarked := by
  cases op with
  | create table columns conflict =>
    simp only [names, List.cons_append, List.forall_mem_cons, List.forall_mem_append] at plain
    obtain ⟨inTable, inColumns, inKeys⟩ := plain
    have values : ∀ token ∈ commas (columns.map fun c => [c.value.token]), token.Unmarked := by
      refine forall_mem_intercalate (by simp [SqlToken.Unmarked]) fun list here => ?_
      obtain ⟨c, -, rfl⟩ := List.mem_map.mp here
      exact List.forall_mem_singleton.mpr c.value.unmarked_token
    have conflicts := unmarked_conflictTokens (fun c here => inColumns _ (List.mem_map_of_mem here)) inKeys
    have inTable := inTable.unmarked
    simp only [tokens, List.forall_mem_append]
    refine ⟨⟨⟨⟨⟨?_, unmarked_listed inColumns⟩, ?_⟩, values⟩, ?_⟩, conflicts⟩ <;>
      simp_all [SqlToken.Unmarked]
  | update table columns conditions =>
    simp only [names, List.cons_append, List.forall_mem_cons, List.forall_mem_append] at plain
    obtain ⟨inTable, inColumns, inConditions⟩ := plain
    have assignments : ∀ token ∈ commas (columns.map Column.tokens), token.Unmarked := by
      refine forall_mem_intercalate (by simp [SqlToken.Unmarked]) fun list here => ?_
      obtain ⟨c, inColumns', rfl⟩ := List.mem_map.mp here
      exact Column.unmarked_tokens (inColumns _ (List.mem_map_of_mem inColumns'))
    have conditions := unmarked_whereTokens fun c here => inConditions _ (List.mem_map_of_mem here)
    have inTable := inTable.unmarked
    simp only [tokens, List.forall_mem_append]
    exact ⟨⟨by simp_all [SqlToken.Unmarked], assignments⟩, conditions⟩
  | delete table conditions =>
    simp only [names, List.forall_mem_cons] at plain
    obtain ⟨inTable, inConditions⟩ := plain
    have conditions := unmarked_whereTokens fun c here => inConditions _ (List.mem_map_of_mem here)
    have inTable := inTable.unmarked
    simp only [tokens, List.forall_mem_append]
    exact ⟨by simp_all [SqlToken.Unmarked], conditions⟩
  | noOp | multi parts => exact List.forall_mem_nil _

theorem render_eq_ok_iff (op : Operation) (fragments : List Fragment) :
    op.render = .ok fragments ↔ (∀ name ∈ op.names, IsName name) ∧ op.fragments = fragments := by
  have found : (op.names.find? fun name => !isPlainName name.toList) = none ↔
      ∀ name ∈ op.names, IsName name := by
    simp only [List.find?_eq_none, Bool.not_eq_true, Bool.not_eq_false', isPlainName_iff]
  rw [← found, render]
  split <;> simp_all

end Operation

/-- What an operation on a single table is sent as. -/
structure Operation.SentAs (op : Operation) (call : SqlCall) : Prop where
  /-- The text reads as the statement of the operation, in which there is a mark for each value but a
  null, and `NULL` or `IS NULL` for a null. -/
  reads : sqlTokens call.text = SqlToken.spell 1 op.tokens
  /-- Dollar signs stand in these marks only, which are numbered from one on. -/
  marks : (sqlTokens call.text).filter (fun token => decide ('$' ∈ token.toList)) =
    (List.range' 1 (op.values.filterMap SqlValue.param?).length).map mark
  /-- What is sent along are the values but the nulls, those of columns before those of conditions. -/
  bound : call.params = op.values.filterMap SqlValue.param?
  /-- The text is the same whatever the values are. -/
  blind : ∀ other : Operation, other.masked = op.masked →
    ∃ fragments, other.render = .ok fragments ∧ (Fragment.call fragments []).text = call.text

namespace Operation

theorem render_of_masked {op other : Operation} {fragments : List Fragment}
    (same : other.masked = op.masked) (sent : op.render = .ok fragments) :
    other.render = .ok other.fragments ∧
      Fragment.render 1 other.fragments = Fragment.render 1 fragments := by
  obtain ⟨plain, rfl⟩ := (render_eq_ok_iff op fragments).mp sent
  refine ⟨(render_eq_ok_iff other _).mpr ⟨?_, rfl⟩, ?_⟩
  · rwa [← names_masked, same, names_masked]
  · rw [← Fragment.render_masked, ← fragments_masked, same, fragments_masked, Fragment.render_masked]

/-- An operation on a single table is sent if all its names are plain, and only then; and what its
values are has no part in the text that is sent. -/
theorem render_blind (op : Operation) :
    ((∃ fragments, op.render = .ok fragments) ↔ ∀ name ∈ op.names, IsName name) ∧
      ∀ fragments, op.render = .ok fragments → op.SentAs (Fragment.call fragments []) := by
  refine ⟨?_, fun fragments sent => ?_⟩
  · simp only [render_eq_ok_iff, exists_and_left, exists_eq', and_true]
  · have ⟨plain, same⟩ := (render_eq_ok_iff op fragments).mp sent
    subst same
    have reads : sqlTokens (Fragment.render 1 op.fragments) = SqlToken.spell 1 op.tokens := by
      rw [Fragment.tokens_render op.isChain_fragments, tokens_fragments plain]
    have slots : SqlToken.slots op.tokens = (op.values.filterMap SqlValue.param?).length := by
      rw [← tokens_fragments plain, Fragment.slots_tokens, params_fragments]
    refine ⟨reads, ?_, op.params_fragments, fun other masked => ?_⟩
    · rw [← slots, ← SqlToken.filter_spell 1 (unmarked_tokens plain)]
      exact congrArg _ reads
    · exact ⟨other.fragments, render_of_masked masked sent⟩

/-- A row with a null, whose key is a text that would end the statement if it stood in it. -/
def hostileRow : Operation :=
  .create "projections.users"
    [⟨"id", .text "1'); DROP TABLE projections.users; --"⟩, ⟨"note", .null⟩, ⟨"age", .int 7⟩] ["id"]

theorem render_blind_hostileRow :
    hostileRow.render = .ok hostileRow.fragments ∧
      (Fragment.call hostileRow.fragments []).text =
        "INSERT INTO projections.users (id, note, age) VALUES ($1, NULL, $2) " ++
          "ON CONFLICT (id) DO UPDATE SET note = EXCLUDED.note, age = EXCLUDED.age" ∧
      hostileRow.SentAs (Fragment.call hostileRow.fragments []) := by
  have sent : hostileRow.render = .ok hostileRow.fragments := by
    refine (render_eq_ok_iff _ _).mpr ⟨?_, rfl⟩
    simp [hostileRow, names, ← isPlainName_iff, isPlainName, isNameRest]
  have one : Nat.repr 1 = "1" := by decide
  have two : Nat.repr 2 = "2" := by decide
  refine ⟨sent, ?_, (render_blind hostileRow).2 _ sent⟩
  simp [Fragment.call, hostileRow, fragments, onConflict, Fragment.separated, Fragment.render,
    SqlValue.fragment, SqlValue.param?, one, two]

end Operation

end ReadModel
