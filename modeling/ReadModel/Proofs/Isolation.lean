import ReadModel.Proofs.Asked
import ReadModel.Proofs.Identity
import ReadModel.Proofs.Rows
import ReadModel.Proofs.Settling

/-!
Instances keep apart.

What the events of an instance make of the tables stays within the rows of the instance: all other rows
stay as they are and where they are, and what becomes of its own rows depends on these alone. So it does
not matter which events of other instances come between them.
-/

namespace ReadModel

/-- The rows of an instance. -/
def InstanceId.scope (id : InstanceId) : Scope := [("instance_id", id.text)]

theorem InstanceId.not_has_of_ne {id other : InstanceId} (ne : other ≠ id) {row : Row}
    (has : other.scope.has row = true) : id.scope.has row = false := by
  refine Scope.not_has_of_ne (by rfl) (fun same => ne (Identifier.eq_of_text ?_)) has
  simpa [scope] using same

namespace Tables

/-- The rows of an instance in a table. -/
def rowsOf (t : Tables) (id : InstanceId) (table : String) : List Row :=
  (t.rows table).filter id.scope.has

/-- The rows in a table that are not an instance's. -/
def rowsBeside (t : Tables) (id : InstanceId) (table : String) : List Row :=
  (t.rows table).filter fun row => !id.scope.has row

/-- The rows that an operation on a single table writes. -/
def writes (t : Tables) : Operation → List Row
  | .create table columns conflict =>
    let replaced := (t.rows table).find? fun row =>
      !conflict.isEmpty && Row.conflicts row columns conflict
    [Row.assign (replaced.getD ∅) columns]
  | .update table columns conditions =>
    ((t.rows table).filter fun row => Row.meets row conditions).map fun row => Row.assign row columns
  | .delete .. | .noOp | .multi _ => []

/-- The rows that operations on single tables write, one operation after the other. -/
def written (t : Tables) : List Operation → List Row
  | [] => []
  | op :: rest => t.writes op ++ (t.apply op).written rest

variable {t u : Tables} {op : Operation} {ops : List Operation} {table : String} {row : Row}

theorem mem_rows_apply (member : row ∈ (t.apply op).rows table) :
    row ∈ t.rows table ∨ row ∈ t.writes op := by
  rw [rows_apply] at member
  cases op with
  | create name columns conflict =>
    dsimp only [Operation.effect] at member
    split at member
    next same =>
      subst same
      exact (mem_upsertRow member).imp_right List.mem_singleton.mpr
    next => exact .inl member
  | update name columns conditions =>
    dsimp only [Operation.effect] at member
    split at member
    next same =>
      subst same
      obtain ⟨old, among, rfl⟩ := List.mem_map.mp member
      split
      next meets => exact .inr (List.mem_map_of_mem (List.mem_filter.mpr ⟨among, meets⟩))
      next => exact .inl among
    next => exact .inl member
  | delete name conditions =>
    dsimp only [Operation.effect] at member
    split at member
    next => exact .inl (List.mem_filter.mp member).1
    next => exact .inl member
  | noOp | multi => exact .inl member

/-- A row that was not there before is one that was written. -/
theorem mem_rows_foldl_apply (member : row ∈ (ops.foldl apply t).rows table) :
    row ∈ t.rows table ∨ row ∈ t.written ops := by
  induction ops generalizing t with
  | nil => exact .inl member
  | cons op rest ih =>
    rcases ih member with before | later
    · exact (mem_rows_apply before).imp_right (List.mem_append_left _)
    · exact .inr (List.mem_append_right _ later)

end Tables

namespace Operation

variable {id : InstanceId} {op : Operation} {t u : Tables} {faults : Faults} {row : Row}

theorem Confined.has_writes {scope : Scope} (confined : op.Confined scope)
    (written : row ∈ t.writes op) : scope.has row = true := by
  cases confined with
  | create assigned _ =>
    obtain rfl := List.mem_singleton.mp written
    exact has_assign assigned _
  | update kept asked =>
    obtain ⟨old, among, rfl⟩ := List.mem_map.mp written
    rw [has_assign_of_kept kept]
    exact has_of_meets asked (List.mem_filter.mp among).2
  | delete => cases written

/-- An operation all of whose parts reach the rows of an instance only. -/
def Within (id : InstanceId) (op : Operation) : Prop := ∀ leaf ∈ op.leaves, leaf.Confined id.scope

namespace Within

theorem performed (within : op.Within id) (faults : Faults) :
    ∀ leaf ∈ op.performed faults, leaf.Confined id.scope := by
  intro leaf among
  unfold Operation.performed at among
  split at among
  next => cases among
  next => exact within leaf ((List.takeWhile_prefix _).subset among)

/-- The rows of other instances stay as they are, also where a fault stops the operation. -/
theorem rowsBeside_run (within : op.Within id) (faults : Faults) (t : Tables) (table : String) :
    (op.run faults t).tables.rowsBeside id table = t.rowsBeside id table := by
  rw [Tables.rowsBeside, Tables.rowsBeside, tables_run, Tables.rows_foldl_apply]
  exact filter_foldl_effect_of_kept
    (fun leaf among rows => (within.performed faults leaf among).filter_not_effect table rows) _

/-- What becomes of the rows of the instance depends on them alone. -/
theorem rowsOf_run (within : op.Within id) (faults : Faults) (t : Tables) (table : String) :
    (op.run faults t).tables.rowsOf id table =
      (op.performed faults).foldl (fun rows leaf => leaf.effect table rows) (t.rowsOf id table) := by
  rw [Tables.rowsOf, Tables.rowsOf, tables_run, Tables.rows_foldl_apply]
  exact filter_foldl_effect (within.performed faults) _

theorem has_written (within : op.Within id) (written : row ∈ t.written (op.performed faults)) :
    id.scope.has row = true := by
  have confined := within.performed faults
  generalize op.performed faults = leaves at confined written
  induction leaves generalizing t with
  | nil => cases written
  | cons leaf rest ih =>
    obtain ⟨first, later⟩ := List.forall_mem_cons.mp confined
    rcases List.mem_append.mp written with here | there
    · exact first.has_writes here
    · exact ih later there

theorem rowsOf_run_of_ne {other : InstanceId} (within : op.Within id) (ne : other ≠ id)
    (faults : Faults) (t : Tables) (table : String) :
    (op.run faults t).tables.rowsOf other table = t.rowsOf other table := by
  rw [Tables.rowsOf, Tables.rowsOf, tables_run, Tables.rows_foldl_apply]
  exact filter_foldl_effect_of_kept (fun leaf among rows =>
    (within.performed faults leaf among).filter_effect_of_disjoint
      (fun row => InstanceId.not_has_of_ne ne) table rows) _

end Within

end Operation

/-- A read model whose events reach the rows of their own instances only. -/
def Registry.Separates (r : Registry) : Prop :=
  ∀ {e st}, r.reduce e = .ok st → st.operation.Within e.instanceId

namespace Tables

variable {t u : Tables} {id : InstanceId} {statements : List Statement}

/-- Statements of other instances can be left out. -/
theorem rowsOf_replay (within : ∀ st ∈ statements, st.operation.Within st.instanceId)
    (same : ∀ table, t.rowsOf id table = u.rowsOf id table) (table : String) :
    (t.replay (statements.map (·.operation))).rowsOf id table =
      (u.replay ((statements.filter fun st => decide (st.instanceId = id)).map
        (·.operation))).rowsOf id table := by
  induction statements generalizing t u with
  | nil => exact same table
  | cons st rest ih =>
    obtain ⟨first, later⟩ := List.forall_mem_cons.mp within
    rw [List.filter_cons]
    by_cases own : st.instanceId = id
    · rw [if_pos (decide_eq_true own)]
      refine ih later fun table => ?_
      subst own
      rw [first.rowsOf_run, first.rowsOf_run, same]
    · rw [if_neg (by simpa using own)]
      refine ih later fun table => ?_
      rw [first.rowsOf_run_of_ne (Ne.symm own), same]

end Tables

namespace Registry

/-- A read model under which instances know nothing of each other. -/
structure KeepsApart (r : Registry) : Prop where
  /-- The rows of others stay as they are and in their order, also where a fault stops an operation. -/
  beside {e st} (reduced : r.reduce e = .ok st) (faults : Faults) (t : Tables) (table : String) :
    (st.operation.run faults t).tables.rowsBeside e.instanceId table =
      t.rowsBeside e.instanceId table
  /-- All rows that are written are rows of the event's instance. -/
  written {e st} (reduced : r.reduce e = .ok st) (faults : Faults) (t : Tables) :
    ∀ row ∈ t.written (st.operation.performed faults),
      row.find? "instance_id" = some (.text e.instanceId.text)
  /-- What becomes of the rows of the event's instance depends on them alone. -/
  own {e st} (reduced : r.reduce e = .ok st) (faults : Faults) {t u : Tables}
    (same : ∀ table, t.rowsOf e.instanceId table = u.rowsOf e.instanceId table) (table : String) :
    (st.operation.run faults t).tables.rowsOf e.instanceId table =
      (st.operation.run faults u).tables.rowsOf e.instanceId table
  /-- What becomes of the rows of an instance depends on its own events alone, in whatever way they
  are mixed with those of others. -/
  streams {id : InstanceId} {events events' : List Event} {statements statements' : List Statement}
    (mixed : events.filter (fun e => decide (e.instanceId = id)) =
      events'.filter fun e => decide (e.instanceId = id))
    (reduced : r.reduceAll events = .ok statements) (reduced' : r.reduceAll events' = .ok statements')
    (t : Tables) (table : String) :
    (t.replay (statements.map (·.operation))).rowsOf id table =
      (t.replay (statements'.map (·.operation))).rowsOf id table

variable {r : Registry}

theorem Separates.keepsApart (separates : r.Separates) (keeps : r.KeepsIdentity) : r.KeepsApart where
  beside reduced faults t table := (separates reduced).rowsBeside_run faults t table
  written reduced faults t row among :=
    Scope.has_iff.mp ((separates reduced).has_written among) _ (List.mem_singleton_self _)
  own reduced faults t u same table := by
    rw [(separates reduced).rowsOf_run, (separates reduced).rowsOf_run, same]
  streams {id events events' statements statements'} mixed reduced reduced' t table := by
    have within {events statements} (reduced : r.reduceAll events = .ok statements) :
        ∀ st ∈ statements, st.operation.Within st.instanceId := by
      intro st member
      obtain ⟨e, _, step⟩ := exists_event reduced member
      rw [keeps.instanceId step]
      exact separates step
    have ours {events statements} (reduced : r.reduceAll events = .ok statements) :=
      reduceAll_filter reduced (fun e => decide (e.instanceId = id))
        (fun st => decide (st.instanceId = id)) fun e st step => by rw [keeps.instanceId step]
    have same := (ours reduced).symm.trans (mixed ▸ ours reduced')
    rw [Tables.rowsOf_replay (within reduced) fun _ => rfl,
      Tables.rowsOf_replay (within reduced') fun _ => rfl, Except.ok.inj same]

end Registry

theorem Event.instance_subset (e : Event) (idColumn : String) : e.instanceId.scope ⊆ e.scope idColumn :=
  List.cons_subset_cons _ (List.nil_subset _)

theorem Users.separates : usersProjection.registry.Separates := by
  intro e st reduced leaf among
  exact ((Users.asks_of_reduce reduced).confined leaf among).mono (e.instance_subset _)

theorem Orgs.separates : orgsProjection.registry.Separates := by
  intro e st reduced leaf among
  rcases (Orgs.asks_of_reduce reduced).confined leaf among with confined | confined
  · exact confined.mono (e.instance_subset _)
  · exact confined.mono (e.instance_subset _)

/-- The read models of users and organizations keep instances apart. -/
theorem tenants_keep_apart {p : Projection} (builtIn : p ∈ [usersProjection, orgsProjection]) :
    p.registry.KeepsApart := by
  simp only [List.mem_cons, List.not_mem_nil, or_false] at builtIn
  rcases builtIn with rfl | rfl
  · exact Users.separates.keepsApart Users.keepsIdentity
  · exact Orgs.separates.keepsApart Orgs.keepsIdentity

/-- An organization of an instance gets two domains, the first of which becomes the primary one. -/
def Orgs.founding (instanceId : InstanceId) : List Event :=
  let event (type : String) (sequence : Nat) (payload : Json) : Event :=
    ⟨⟨"org"⟩, ⟨"7"⟩, instanceId, ⟨type⟩, sequence, 0, 0, ⟨sequence, 0⟩, payload⟩
  [event "org.added" 1 (.object [("name", .text "Acme")]),
    event "org.domain.added" 2 (.object [("domain", .text "acme.test")]),
    event "org.domain.added" 3 (.list [.text "acme.example"]),
    event "org.domain.primary.set" 4 (.object [("domain", .text "acme.test")])]

/-- An organization looks the same whether another instance's events come after its own or between. -/
theorem tenants_keep_apart_of_two_orgs :
    orgsProjection ∈ [usersProjection, orgsProjection] ∧
    ∃ statements statements',
      orgsProjection.registry.reduceAll (Orgs.founding ⟨"a"⟩ ++ Orgs.founding ⟨"b"⟩) =
          .ok statements ∧
        orgsProjection.registry.reduceAll
            (((Orgs.founding ⟨"b"⟩).zip (Orgs.founding ⟨"a"⟩)).flatMap fun e => [e.1, e.2]) =
          .ok statements' ∧
        (∀ table, ((∅ : Tables).replay (statements.map (·.operation))).rowsOf ⟨"a"⟩ table =
          ((∅ : Tables).replay (statements'.map (·.operation))).rowsOf ⟨"a"⟩ table) ∧
        (((∅ : Tables).replay (statements.map (·.operation))).rowsOf ⟨"a"⟩
          orgDomainsTable).length = 2 := by
  have builtIn : orgsProjection ∈ [usersProjection, orgsProjection] := List.mem_of_getLast? rfl
  have mixed :
      (Orgs.founding ⟨"a"⟩ ++ Orgs.founding ⟨"b"⟩).filter (fun e => decide (e.instanceId = ⟨"a"⟩)) =
        (((Orgs.founding ⟨"b"⟩).zip (Orgs.founding ⟨"a"⟩)).flatMap fun e => [e.1, e.2]).filter
          fun e => decide (e.instanceId = ⟨"a"⟩) :=
    rfl
  refine ⟨builtIn, _, _, rfl, rfl, fun table => ?_, ?_⟩
  · exact (tenants_keep_apart builtIn).streams mixed rfl rfl ∅ table
  · decide +kernel

end ReadModel
