import Mathlib.Data.List.TakeWhile
import ReadModel.Identifier
import ReadModel.Store.Memory

/-!
What operations do to the rows of tables.

An operation performs its parts on single tables up to the first that a fault hits
(`Operation.tables_run`). Such a part has an effect on the rows of each table alone
(`Tables.rows_apply`). A `Scope` is what some columns of a row are to be; an operation confined to one
leaves all other rows as they are, and what it makes of the rows within does not depend on them.
-/

namespace ReadModel

theorem Identifier.eq_of_text {kind : IdentifierKind} {a b : Identifier kind}
    (same : a.text = b.text) : a = b := by
  cases a
  cases b
  exact congrArg _ same

theorem SqlValue.same_text {v : SqlValue} {s : String} : v.same (.text s) = true ↔ v = .text s := by
  cases v <;> simp [same]

theorem SqlValue.any_same_text {v : Option SqlValue} {s : String} :
    v.any (fun v => v.same (.text s)) = true ↔ v = some (.text s) := by
  cases v with
  | none => simp
  | some v => simp [same_text]

namespace Row

variable {row : Row} {columns : List Column} {name : String} {v : SqlValue}

/-- A column that is assigned one value only has it afterwards. -/
theorem find?_assign (only : ∀ c ∈ columns, c.name = name → c.value = v) :
    (Row.assign row columns).find? name =
      if ∃ c ∈ columns, c.name = name then some v else row.find? name := by
  unfold assign
  induction columns generalizing row with
  | nil => simp
  | cons first rest ih =>
    rw [List.foldl_cons, ih fun c later => only c (List.mem_cons_of_mem _ later), Dict.find?_insert]
    by_cases named : first.name = name
    · simp [named, only first (List.mem_cons_self ..) named]
    · simp [named]

theorem find?_assign_of_not_mem (none : ∀ c ∈ columns, c.name ≠ name) :
    (Row.assign row columns).find? name = row.find? name := by
  rw [find?_assign (v := .null) fun c among named => absurd named (none c among), if_neg]
  rintro ⟨c, among, named⟩
  exact none c among named

theorem assign_append (row : Row) (first second : List Column) :
    assign row (first ++ second) = assign (assign row first) second :=
  List.foldl_append

/-- Nothing is left of what columns had before they are assigned. -/
theorem assign_congr {other : Row}
    (agree : ∀ name, (∀ c ∈ columns, c.name ≠ name) → row.find? name = other.find? name) :
    assign row columns = assign other columns := by
  induction columns generalizing row other with
  | nil => exact Dict.ext_find? fun name => agree name fun _ among => nomatch among
  | cons first rest ih =>
    refine ih fun name out => ?_
    rw [Dict.find?_insert, Dict.find?_insert]
    split
    · rfl
    next ne => exact agree name (List.forall_mem_cons.mpr ⟨ne, out⟩)

end Row

/-- What columns of a row are to be: texts, by the names of the columns. -/
abbrev Scope := List (String × String)

namespace Scope

/-- The conditions that rows within a scope meet. -/
def conditions (scope : Scope) : List Condition :=
  scope.map fun entry => ⟨entry.1, .text entry.2⟩

/-- Whether a row lies within a scope. -/
def has (scope : Scope) (row : Row) : Bool := Row.meets row scope.conditions

theorem has_iff {scope : Scope} {row : Row} :
    scope.has row = true ↔ ∀ entry ∈ scope, row.find? entry.1 = some (.text entry.2) := by
  rw [has, Row.meets, conditions, List.all_map, List.all_eq_true]
  refine forall₂_congr fun entry _ => ?_
  rw [Function.comp_apply, SqlValue.same_text, Row.value]
  cases row.find? entry.1 <;> simp

/-- A row lies within one scope at most of those that are about the same columns. -/
theorem eq_of_has {a b : Scope} {row : Row} (names : a.map Prod.fst = b.map Prod.fst)
    (left : a.has row = true) (right : b.has row = true) : a = b := by
  induction a generalizing b with
  | nil => exact (List.map_eq_nil_iff.mp names.symm).symm
  | cons first rest ih =>
    obtain ⟨first', rest', rfl, name, later⟩ := List.map_eq_cons_iff.mp names.symm
    rw [has_iff, List.forall_mem_cons] at left right
    have value := left.1.symm.trans (name ▸ right.1)
    rw [Option.some_inj, SqlValue.text.injEq] at value
    rw [Prod.ext name.symm value, ih later.symm (has_iff.mpr left.2) (has_iff.mpr right.2)]

theorem not_has_of_ne {a b : Scope} {row : Row} (names : a.map Prod.fst = b.map Prod.fst)
    (ne : a ≠ b) (has : a.has row = true) : b.has row = false :=
  Bool.eq_false_iff.mpr fun also => ne (eq_of_has names has also)

end Scope

/-- What an operation on a single table makes of the rows of a table. -/
def Operation.effect (table : String) (rows : List Row) : Operation → List Row
  | .create name columns conflict =>
    if name = table then
      Tables.upsertRow (fun row => !conflict.isEmpty && Row.conflicts row columns conflict) columns rows
    else rows
  | .update name columns conditions =>
    if name = table then
      rows.map fun row => if Row.meets row conditions then Row.assign row columns else row
    else rows
  | .delete name conditions =>
    if name = table then rows.filter fun row => !Row.meets row conditions else rows
  | .noOp | .multi _ => rows

namespace Operation

variable {table : String} {columns : List Column} {conditions : List Condition} {row : Row}

@[simp]
theorem effect_create_nil {conflict : List String} :
    (create table columns conflict).effect table [] = [Row.assign ∅ columns] := by
  rw [effect, if_pos rfl, Tables.upsertRow]

theorem effect_create_self {conflict : List String} (keyed : conflict ≠ [])
    (conflicts : Row.conflicts row columns conflict = true) :
    (create table columns conflict).effect table [row] = [Row.assign row columns] := by
  rw [effect, if_pos rfl, Tables.upsertRow, if_pos]
  rw [conflicts, List.isEmpty_eq_false_iff.mpr keyed]
  rfl

@[simp]
theorem effect_update_nil : (update table columns conditions).effect table [] = [] := by
  rw [effect, if_pos rfl, List.map_nil]

theorem effect_update_self (meets : Row.meets row conditions = true) :
    (update table columns conditions).effect table [row] = [Row.assign row columns] := by
  rw [effect, if_pos rfl, List.map_cons, if_pos meets, List.map_nil]

@[simp]
theorem effect_delete_nil : (delete table conditions).effect table [] = [] := by
  rw [effect, if_pos rfl, List.filter_nil]

theorem effect_delete_self (meets : Row.meets row conditions = true) :
    (delete table conditions).effect table [row] = [] := by
  rw [effect, if_pos rfl, List.filter_cons, meets]
  rfl

end Operation

/-- Whether no fault hits an operation on a single table. -/
def Faults.spares (faults : Faults) (leaf : Operation) : Bool := (faults.error? leaf).isNone

/-- The operations on single tables that an operation performs: all before the first that a fault hits,
and none where one of them can never run. -/
def Operation.performed (faults : Faults) (op : Operation) : List Operation :=
  match op.validate with
  | .error _ => []
  | .ok () => op.leaves.takeWhile faults.spares

namespace Tables

variable {t : Tables} {op : Operation} {table : String}

section Upsert

variable {p test : Row → Bool} {columns : List Column}

/-- Rows that pass a test get a row put among them, if only such rows are replaced, and only by such. -/
theorem filter_upsertRow (hits : ∀ row, test row = true → p row = true)
    (assigned : ∀ row, p (Row.assign row columns) = true) (rows : List Row) :
    (upsertRow test columns rows).filter p = upsertRow test columns (rows.filter p) := by
  induction rows with
  | nil => simp [upsertRow, assigned]
  | cons row rest ih =>
    by_cases hit : test row = true
    · simp [upsertRow, hit, hits row hit, assigned]
    · by_cases passes : p row = true
      · simp [upsertRow, hit, passes, ih]
      · simp [upsertRow, hit, passes, ih]

theorem filter_not_upsertRow (hits : ∀ row, test row = true → p row = true)
    (assigned : ∀ row, p (Row.assign row columns) = true) (rows : List Row) :
    (upsertRow test columns rows).filter (fun row => !p row) = rows.filter fun row => !p row := by
  induction rows with
  | nil => simp [upsertRow, assigned]
  | cons row rest ih =>
    by_cases hit : test row = true
    · simp [upsertRow, hit, hits row hit, assigned]
    · rw [upsertRow, if_neg hit, List.filter_cons, List.filter_cons, ih]

theorem mem_upsertRow {row : Row} {rows : List Row}
    (member : row ∈ upsertRow test columns rows) :
    row ∈ rows ∨ row = Row.assign ((rows.find? test).getD ∅) columns := by
  induction rows with
  | nil => exact .inr (List.mem_singleton.mp member)
  | cons first rest ih =>
    unfold upsertRow at member
    split at member
    next hit =>
      rw [List.find?_cons, hit]
      rcases List.mem_cons.mp member with rfl | later
      · exact .inr rfl
      · exact .inl (List.mem_cons_of_mem _ later)
    next miss =>
      rw [List.find?_cons, Bool.eq_false_iff.mpr miss]
      rcases List.mem_cons.mp member with rfl | later
      · exact .inl (List.mem_cons_self ..)
      · exact (ih later).imp_left (List.mem_cons_of_mem _)

end Upsert

theorem rows_insert (t : Tables) (name : String) (rows : List Row) (table : String) :
    Tables.rows (t.insert name rows) table = if name = table then rows else t.rows table := by
  rw [Tables.rows, Dict.find?_insert]
  split <;> rfl

/-- What an operation on a single table makes of a table depends on the rows of this table only. -/
theorem rows_apply (t : Tables) (op : Operation) (table : String) :
    (t.apply op).rows table = op.effect table (t.rows table) := by
  cases op with
  | create name columns conflict =>
    dsimp only [apply, Operation.effect]
    rw [rows_insert]
    split
    next same => rw [same]
    next => rfl
  | update name columns conditions | delete name conditions =>
    dsimp only [apply, Operation.effect]
    cases found : t.find? name with
    | some rows =>
      dsimp only
      rw [rows_insert]
      split
      next same =>
        subst same
        rw [Tables.rows, found]
        rfl
      next => rfl
    | none =>
      dsimp only
      split
      next same =>
        subst same
        rw [Tables.rows, found]
        rfl
      next => rfl
  | noOp | multi => rfl

theorem rows_foldl_apply (t : Tables) (ops : List Operation) (table : String) :
    (ops.foldl apply t).rows table =
      ops.foldl (fun rows op => op.effect table rows) (t.rows table) := by
  induction ops generalizing t with
  | nil => rfl
  | cons op rest ih => rw [List.foldl_cons, List.foldl_cons, ih, rows_apply]

end Tables

/-- An execution has applied leaves one after the other to tables, up to the first that a fault hits. -/
structure Execution.Performs (faults : Faults) (leaves : List Operation) (t : Tables) (x : Execution) :
    Prop where
  tables : x.tables = (leaves.takeWhile faults.spares).foldl Tables.apply t
  error : x.error = none ↔ ∀ leaf ∈ leaves, faults.spares leaf = true

namespace Execution.Performs

variable {faults : Faults} {first second : List Operation} {t : Tables} {x y : Execution}

theorem stop (performs : x.Performs faults first t) (hit : x.error ≠ none) :
    x.Performs faults (first ++ second) t where
  tables := by
    have some : ¬∀ leaf ∈ first, faults.spares leaf = true := mt performs.error.mpr hit
    rw [performs.tables, List.takeWhile_append, if_neg]
    rintro all
    exact some (List.takeWhile_eq_self_iff.mp
      ((List.takeWhile_prefix _).eq_of_length all))
  error := by
    refine ⟨fun none => absurd none hit, fun all => performs.error.mpr fun leaf among => ?_⟩
    exact all leaf (List.mem_append_left _ among)

theorem append (performs : x.Performs faults first t) (success : x.error = none)
    (goesOn : y.Performs faults second x.tables) : y.Performs faults (first ++ second) t where
  tables := by
    have all := performs.error.mp success
    rw [goesOn.tables, performs.tables, List.takeWhile_append_of_pos all, List.foldl_append,
      List.takeWhile_eq_self_iff.mpr all]
  error := by
    rw [goesOn.error, List.forall_mem_append]
    exact (and_iff_right (performs.error.mp success)).symm

end Execution.Performs

namespace Operation

/-- An operation on a single table runs as a whole or not at all. -/
theorem performs_single {faults : Faults} {t : Tables} {op : Operation} (single : op.table? ≠ none)
    (valid : op.validate = .ok ()) : (op.run faults t).Performs faults [op] t := by
  have run : op.run faults t =
      ⟨if faults.error? op = none then t.apply op else t, [op], faults.error? op⟩ := by
    cases hit : faults.error? op with
    | some e =>
      cases op with
      | create | update | delete => unfold run; simp only [valid, hit, reduceCtorEq, if_false]
      | noOp | multi => exact absurd rfl single
    | none =>
      cases op with
      | create | update | delete => unfold run; simp only [valid, hit, if_true]
      | noOp | multi => exact absurd rfl single
  rw [run]
  cases hit : faults.error? op with
  | some e =>
    have caught : faults.spares op = false := by rw [Faults.spares, hit]; rfl
    exact ⟨by rw [List.takeWhile_cons, caught]; rfl, by simp [caught]⟩
  | none =>
    have spared : faults.spares op = true := by rw [Faults.spares, hit]; rfl
    exact ⟨by rw [List.takeWhile_cons, spared]; rfl, by simp [spared]⟩

theorem spares_noOp (faults : Faults) : faults.spares .noOp = true := by
  simp [Faults.spares, Faults.error?, Fault.hits, table?]

mutual

theorem performs_run (faults : Faults) : ∀ (op : Operation) (t : Tables), op.validate = .ok () →
    (op.run faults t).Performs faults op.leaves t
  | .create .., _, valid | .update .., _, valid | .delete .., _, valid =>
    performs_single (Option.some_ne_none _) valid
  | .noOp, t, _ => by
    have idle : faults.error? .noOp = none := Option.isNone_iff_eq_none.mp (spares_noOp faults)
    unfold run
    dsimp only [validate]
    rw [idle]
    exact ⟨rfl, by simp [leaves]⟩
  | .multi parts, t, valid => by
    have all := performs_runAll faults parts t valid
    unfold run
    rw [valid]
    exact ⟨all.tables, all.error⟩

theorem performs_runAll (faults : Faults) : ∀ (ops : List Operation) (t : Tables),
    validateAll ops = .ok () → (runAll faults t ops).Performs faults (leavesOf ops) t
  | [], _, _ => ⟨rfl, by simp [runAll, leavesOf]⟩
  | op :: rest, t, valid => by
    unfold validateAll at valid
    split at valid
    next first =>
      have here := performs_run faults op t first
      unfold runAll leavesOf
      dsimp only
      split
      next e failed => exact here.stop (by rw [failed]; exact Option.some_ne_none e)
      next success =>
        have later := performs_runAll faults rest (op.run faults t).tables valid
        exact here.append success ⟨later.tables, later.error⟩
    next => cases valid

end

/-- An operation does what the parts that it performs do one after the other. -/
theorem tables_run (faults : Faults) (op : Operation) (t : Tables) :
    (op.run faults t).tables = (op.performed faults).foldl Tables.apply t := by
  unfold performed
  cases valid : op.validate with
  | ok => exact (performs_run faults op t valid).tables
  | error e =>
    cases op <;> (unfold run; rw [valid]; rfl)

theorem performed_unhindered {op : Operation} (valid : op.validate = .ok ()) :
    op.performed {} = op.leaves := by
  rw [performed, valid]
  exact List.takeWhile_eq_self_iff.mpr fun leaf _ => rfl

/-- Without faults an operation does to a table what its parts do to it one after the other. -/
theorem rows_run_unhindered {op : Operation} (valid : op.validate = .ok ()) (t : Tables)
    (table : String) :
    (op.run {} t).tables.rows table =
      op.leaves.foldl (fun rows leaf => leaf.effect table rows) (t.rows table) := by
  rw [tables_run, performed_unhindered valid, Tables.rows_foldl_apply]

/-- An operation on a single table reaches the rows within a scope only, and leaves them there. -/
inductive Confined (scope : Scope) : Operation → Prop
  | create {table columns conflict}
      (assigned : ∀ entry ∈ scope, (∃ c ∈ columns, c.name = entry.1) ∧
        ∀ c ∈ columns, c.name = entry.1 → c.value = .text entry.2)
      (keyed : conflict = [] ∨ ∀ entry ∈ scope, entry.1 ∈ conflict) :
      Confined scope (.create table columns conflict)
  | update {table columns conditions} (kept : ∀ entry ∈ scope, ∀ c ∈ columns, c.name ≠ entry.1)
      (asked : scope.conditions ⊆ conditions) : Confined scope (.update table columns conditions)
  | delete {table conditions} (asked : scope.conditions ⊆ conditions) :
      Confined scope (.delete table conditions)

theorem has_of_meets {scope : Scope} {conditions : List Condition} {row : Row}
    (asked : scope.conditions ⊆ conditions) (meets : Row.meets row conditions = true) :
    scope.has row = true :=
  List.all_eq_true.mpr fun c among => List.all_eq_true.mp meets c (asked among)

theorem has_of_conflicts {scope : Scope} {columns : List Column} {conflict : List String} {row : Row}
    (assigned : ∀ entry ∈ scope, ∀ c ∈ columns, c.name = entry.1 → c.value = .text entry.2)
    (keyed : ∀ entry ∈ scope, entry.1 ∈ conflict)
    (conflicts : Row.conflicts row columns conflict = true) : scope.has row = true := by
  rw [Scope.has_iff]
  intro entry among
  have agrees := List.all_eq_true.mp conflicts entry.1 (keyed entry among)
  split at agrees
  next c found =>
    have named : c.name = entry.1 := by simpa using List.find?_some found
    rw [assigned entry among c (List.mem_of_find?_eq_some found) named] at agrees
    exact SqlValue.any_same_text.mp agrees
  next => cases agrees

namespace Confined

variable {scope : Scope} {op : Operation}

theorem has_assign {columns : List Column}
    (assigned : ∀ entry ∈ scope, (∃ c ∈ columns, c.name = entry.1) ∧
      ∀ c ∈ columns, c.name = entry.1 → c.value = .text entry.2) (row : Row) :
    scope.has (Row.assign row columns) = true := by
  rw [Scope.has_iff]
  intro entry among
  rw [Row.find?_assign (assigned entry among).2, if_pos (assigned entry among).1]

theorem has_assign_of_kept {columns : List Column}
    (kept : ∀ entry ∈ scope, ∀ c ∈ columns, c.name ≠ entry.1) (row : Row) :
    scope.has (Row.assign row columns) = scope.has row := by
  rw [Bool.eq_iff_iff, Scope.has_iff, Scope.has_iff]
  refine forall₂_congr fun entry among => ?_
  rw [Row.find?_assign_of_not_mem (kept entry among)]

theorem has_of_test {columns : List Column} {conflict : List String}
    (assigned : ∀ entry ∈ scope, (∃ c ∈ columns, c.name = entry.1) ∧
      ∀ c ∈ columns, c.name = entry.1 → c.value = .text entry.2)
    (keyed : conflict = [] ∨ ∀ entry ∈ scope, entry.1 ∈ conflict) {row : Row}
    (test : (!conflict.isEmpty && Row.conflicts row columns conflict) = true) :
    scope.has row = true := by
  rw [Bool.and_eq_true, Bool.not_eq_true', List.isEmpty_eq_false_iff] at test
  exact has_of_conflicts (fun entry among => (assigned entry among).2)
    (keyed.resolve_left test.1) test.2

/-- An update changes rows within the scope only, and keeps them there. -/
theorem has_update {columns : List Column} {conditions : List Condition}
    (kept : ∀ entry ∈ scope, ∀ c ∈ columns, c.name ≠ entry.1) (row : Row) :
    scope.has (if Row.meets row conditions then Row.assign row columns else row) =
      scope.has row := by
  split
  · exact has_assign_of_kept kept row
  · rfl

/-- What becomes of the rows within the scope depends on them alone. -/
theorem filter_effect (confined : op.Confined scope) (table : String) (rows : List Row) :
    (op.effect table rows).filter scope.has = op.effect table (rows.filter scope.has) := by
  cases confined with
  | create assigned keyed =>
    dsimp only [effect]
    split
    · exact Tables.filter_upsertRow (fun _ => has_of_test assigned keyed) (has_assign assigned) rows
    · rfl
  | update kept asked =>
    dsimp only [effect]
    split
    · rw [List.filter_map]
      exact congrArg _ (List.filter_congr fun row _ => has_update kept row)
    · rfl
  | delete asked =>
    dsimp only [effect]
    split
    · rw [List.filter_filter, List.filter_filter]
      exact List.filter_congr fun row _ => Bool.and_comm ..
    · rfl

/-- The other rows stay as they are. -/
theorem filter_not_effect (confined : op.Confined scope) (table : String) (rows : List Row) :
    (op.effect table rows).filter (fun row => !scope.has row) =
      rows.filter fun row => !scope.has row := by
  cases confined with
  | create assigned keyed =>
    dsimp only [effect]
    split
    · exact Tables.filter_not_upsertRow (fun _ => has_of_test assigned keyed) (has_assign assigned)
        rows
    · rfl
  | @update name columns conditions kept asked =>
    dsimp only [effect]
    split
    · have out : (fun row => !scope.has row) ∘ (fun row =>
          if Row.meets row conditions then Row.assign row columns else row) =
          fun row => !scope.has row :=
        funext fun row => congrArg (!·) (has_update kept row)
      rw [List.filter_map, out]
      refine (List.map_congr_left fun row among => if_neg fun meets => ?_).trans (List.map_id _)
      have outside := (List.mem_filter.mp among).2
      rw [has_of_meets asked meets] at outside
      cases outside
    · rfl
  | delete asked =>
    dsimp only [effect]
    split
    · rw [List.filter_filter]
      refine List.filter_congr fun row _ => ?_
      cases within : scope.has row with
      | true => rfl
      | false =>
        rw [Bool.not_false, Bool.true_and, Bool.not_eq_true', ← Bool.not_eq_true]
        exact fun meets => Bool.false_ne_true (within.symm.trans (has_of_meets asked meets))
    · rfl

theorem mono {wider : Scope} (subset : wider ⊆ scope)
    (confined : op.Confined scope) : op.Confined wider := by
  cases confined with
  | create assigned keyed =>
    exact .create (fun entry among => assigned entry (subset among))
      (keyed.imp_right fun keyed entry among => keyed entry (subset among))
  | update kept asked =>
    exact .update (fun entry among => kept entry (subset among))
      (List.Subset.trans (List.map_subset _ subset) asked)
  | delete asked => exact .delete (List.Subset.trans (List.map_subset _ subset) asked)

/-- The rows within another scope that has none of the rows in common stay as they are. -/
theorem filter_effect_of_disjoint {other : Scope} (confined : op.Confined scope)
    (disjoint : ∀ row, other.has row = true → scope.has row = false) (table : String)
    (rows : List Row) :
    (op.effect table rows).filter other.has = rows.filter other.has := by
  have outside (rows : List Row) :
      rows.filter other.has = (rows.filter fun row => !scope.has row).filter other.has := by
    rw [List.filter_filter]
    refine List.filter_congr fun row _ => ?_
    cases has : other.has row with
    | true => rw [disjoint row has]; rfl
    | false => rfl
  rw [outside, outside rows, confined.filter_not_effect]

end Confined

variable {scope : Scope} {ops : List Operation} {table : String}

/-- What becomes of the rows within a scope that all operations are confined to depends on them alone. -/
theorem filter_foldl_effect (confined : ∀ op ∈ ops, op.Confined scope) (rows : List Row) :
    (ops.foldl (fun rows op => op.effect table rows) rows).filter scope.has =
      ops.foldl (fun rows op => op.effect table rows) (rows.filter scope.has) := by
  induction ops generalizing rows with
  | nil => rfl
  | cons op rest ih =>
    obtain ⟨first, later⟩ := List.forall_mem_cons.mp confined
    rw [List.foldl_cons, List.foldl_cons, ih later, first.filter_effect]

theorem filter_foldl_effect_of_kept {p : Row → Bool}
    (kept : ∀ op ∈ ops, ∀ rows, (op.effect table rows).filter p = rows.filter p) (rows : List Row) :
    (ops.foldl (fun rows op => op.effect table rows) rows).filter p = rows.filter p := by
  induction ops generalizing rows with
  | nil => rfl
  | cons op rest ih =>
    obtain ⟨first, later⟩ := List.forall_mem_cons.mp kept
    rw [List.foldl_cons, ih later, first]

end Operation

end ReadModel
