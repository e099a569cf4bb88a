import ReadModel.Proofs.Asked
import ReadModel.Proofs.Settling

/-!
The table of users is what the histories of users say.

A user is added, changed, locked, unlocked and removed (`User.after`). Whatever events there are, and in
whatever order, the table has one row for each user that the events leave, with what they leave of it,
and no others.
-/

namespace ReadModel

/-- Whether a user is active. -/
inductive UserState where
  | active
  | locked
  deriving DecidableEq

/-- The name of a state in the table. -/
def UserState.name : UserState → String
  | .active => "active"
  | .locked => "locked"

/-- What is known of a user. -/
structure User where
  username : String
  email : String
  displayName : Option String
  state : UserState
  created : Instant
  changed : Instant
  sequence : Nat

namespace User

/-- What the columns of a user's row are assigned. -/
def columns (user : User) (instanceId : InstanceId) (id : AggregateId) : List Column :=
  [⟨"instance_id", .text instanceId.text⟩,
    ⟨"id", .text id.text⟩,
    ⟨"username", .text user.username⟩,
    ⟨"email", .text user.email⟩,
    ⟨"display_name", .ofText? user.displayName⟩,
    ⟨"state", .text user.state.name⟩,
    ⟨"creation_date", .timestamp user.created⟩,
    ⟨"change_date", .timestamp user.changed⟩,
    ⟨"sequence", .ofSequence user.sequence⟩]

/-- The row of a user. -/
def row (user : User) (instanceId : InstanceId) (id : AggregateId) : Row :=
  Row.assign ∅ (user.columns instanceId id)

/-- A user as an event adds it. -/
def fresh (e : Event) (username email : String) (displayName : Option String) : User where
  username
  email
  displayName
  state := .active
  created := e.creationDate
  changed := e.creationDate
  sequence := e.sequence

/-- What an event makes of a user, who may not be there. -/
def after (user : Option User) (e : Event) : Option User :=
  if e.eventType = ⟨"user.added"⟩ then
    some <| fresh e ((e.told 0 "username").getD "") ((e.told 1 "email").getD "")
      (e.told 2 "display_name")
  else if e.eventType = ⟨"user.changed"⟩ then
    user.map fun user => { user with
      username := (e.told 0 "username").getD user.username
      email := (e.told 1 "email").getD user.email
      displayName := e.told 2 "display_name" <|> user.displayName
      changed := e.creationDate
      sequence := e.sequence }
  else if e.eventType = ⟨"user.locked"⟩ then
    user.map fun user =>
      { user with state := .locked, changed := e.creationDate, sequence := e.sequence }
  else if e.eventType = ⟨"user.unlocked"⟩ then
    user.map fun user =>
      { user with state := .active, changed := e.creationDate, sequence := e.sequence }
  else if e.eventType = ⟨"user.removed"⟩ then none
  else user

/-- Whether an event is about a user of an instance. -/
def About (instanceId : InstanceId) (id : AggregateId) (e : Event) : Prop :=
  e.instanceId = instanceId ∧ e.aggregateId = id
  deriving Decidable

/-- What events leave of a user of an instance. -/
def ofEvents (instanceId : InstanceId) (id : AggregateId) (events : List Event) : Option User :=
  (events.filter fun e => decide (About instanceId id e)).foldl after none

/-- The rows of a user. -/
def scope (instanceId : InstanceId) (id : AggregateId) : Scope :=
  [("instance_id", instanceId.text), ("id", id.text)]

section Assigning

variable (user : User) (instanceId : InstanceId) (id : AggregateId)

theorem assign_username (username : Option String) :
    Row.assign (user.row instanceId id) (Users.changedColumn "username" username) =
      { user with username := username.getD user.username }.row instanceId id := by
  cases username with
  | none => rfl
  | some username =>
    refine Dict.ext_find? fun name => ?_
    simp only [Users.changedColumn, row, columns, Row.assign, List.foldl_cons, List.foldl_nil,
      Dict.find?_insert, Option.getD_some]
    grind

theorem assign_email (email : Option String) :
    Row.assign (user.row instanceId id) (Users.changedColumn "email" email) =
      { user with email := email.getD user.email }.row instanceId id := by
  cases email with
  | none => rfl
  | some email =>
    refine Dict.ext_find? fun name => ?_
    simp only [Users.changedColumn, row, columns, Row.assign, List.foldl_cons, List.foldl_nil,
      Dict.find?_insert, Option.getD_some]
    grind

theorem assign_displayName (displayName : Option String) :
    Row.assign (user.row instanceId id) (Users.changedColumn "display_name" displayName) =
      { user with displayName := displayName <|> user.displayName }.row instanceId id := by
  cases displayName with
  | none => rfl
  | some displayName =>
    refine Dict.ext_find? fun name => ?_
    simp only [Users.changedColumn, row, columns, Row.assign, List.foldl_cons, List.foldl_nil,
      Dict.find?_insert]
    grind [SqlValue.ofText?]

theorem assign_state (state : UserState) :
    Row.assign (user.row instanceId id) [⟨"state", .text state.name⟩] =
      { user with state }.row instanceId id := by
  refine Dict.ext_find? fun name => ?_
  simp only [row, columns, Row.assign, List.foldl_cons, List.foldl_nil, Dict.find?_insert]
  grind

theorem assign_changeColumns (e : Event) :
    Row.assign (user.row instanceId id) e.changeColumns =
      { user with changed := e.creationDate, sequence := e.sequence }.row instanceId id := by
  refine Dict.ext_find? fun name => ?_
  simp only [row, columns, Event.changeColumns, Row.assign, List.foldl_cons, List.foldl_nil,
    Dict.find?_insert]
  grind

theorem assign_stateColumns (state : UserState) (e : Event) :
    Row.assign (user.row instanceId id) (⟨"state", .text state.name⟩ :: e.changeColumns) =
      { user with state, changed := e.creationDate, sequence := e.sequence }.row instanceId id := by
  rw [← List.singleton_append, Row.assign_append, assign_state, assign_changeColumns]

/-- Nothing is left of a row whose user is added anew. -/
theorem assign_columns (other : User) :
    Row.assign (other.row instanceId id) (user.columns instanceId id) = user.row instanceId id := by
  refine Row.assign_congr fun name out => ?_
  rw [row, Row.find?_assign_of_not_mem]
  simpa [columns] using out

end Assigning

theorem not_has_of_not_about {e : Event} {instanceId : InstanceId} {id : AggregateId}
    (other : ¬About instanceId id e) {row : Row} (has : (scope instanceId id).has row = true) :
    (e.scope "id").has row = false := by
  refine Scope.not_has_of_ne (by rfl) (fun same => other ?_) has
  simp only [scope, Event.scope, List.cons.injEq, Prod.mk.injEq, true_and, and_true] at same
  exact ⟨Identifier.eq_of_text same.1.symm, Identifier.eq_of_text same.2.symm⟩

theorem has_scope_row (user : User) (instanceId : InstanceId) (id : AggregateId) :
    (scope instanceId id).has (user.row instanceId id) = true := by
  simp [Scope.has_iff, scope, row, columns, Row.assign]

end User

section Told

variable {e : Event} {name record : String} {position : Nat} {fields : List (String × Json)}
  {items rest : List Json}

theorem Event.told_of_object (object : e.payload = .object fields) (position : Nat) (name : String) :
    e.told position name = (lookup name fields).bind Json.text? := by
  rw [Event.told, object]

theorem Event.told_of_list (list : e.payload = .list items) (position : Nat) (name : String) :
    e.told position name = items[position]?.bind Json.text? := by
  rw [Event.told, list]

theorem Json.text?_of_text {j : Json} {s : String} (read : Decoder.text j = .ok s) :
    j.text? = some s := by
  cases j with
  | text => exact congrArg some (Except.ok.inj read)
  | null | bool | number | list | object => cases read

/-- An optional text that is read is told, if it is there. -/
theorem Json.text?_of_optional {j : Json} {v : Option String}
    (read : Decoder.optional Decoder.text j = .ok v) : j.text? = v := by
  cases j with
  | null | text => exact Except.ok.inj read
  | bool | number | list | object => cases read

theorem lookup_of_present {α : Type} {read : Decoder α} {v : Option α}
    (success : Decoder.present name read fields = .ok v) :
    (lookup name fields = none ∧ v = none) ∨
      ∃ j a, lookup name fields = some j ∧ read j = .ok a ∧ v = some a := by
  unfold Decoder.present at success
  split at success
  next j found =>
    cases step : read j with
    | error cause =>
      rw [step] at success
      cases success
    | ok a =>
      rw [step] at success
      exact .inr ⟨j, a, found, step, (Except.ok.inj success).symm⟩
  next none => exact .inl ⟨none, (Except.ok.inj success).symm⟩

theorem told_of_present_optional (object : e.payload = .object fields) {v : Option (Option String)}
    (success : Decoder.present name (Decoder.optional Decoder.text) fields = .ok v) :
    e.told position name = v.join := by
  rw [Event.told_of_object object]
  rcases lookup_of_present success with ⟨none, rfl⟩ | ⟨j, a, found, read, rfl⟩
  · rw [none]
    rfl
  · rw [found]
    exact Json.text?_of_optional read

theorem told_of_require (object : e.payload = .object fields) {v : Option String} {s : String}
    (success : Decoder.present name Decoder.text fields = .ok v)
    (required : Decoder.require name v = .ok s) : e.told position name = some s := by
  rw [Event.told_of_object object]
  rcases lookup_of_present success with ⟨none, rfl⟩ | ⟨j, a, found, read, rfl⟩
  · cases required
  · rw [found, ← Except.ok.inj required]
    exact Json.text?_of_text read

theorem cons_of_next {α : Type} {read : Decoder α} {a : α}
    (success : Decoder.next record position read items = .ok (a, rest)) :
    ∃ j, items = j :: rest ∧ read j = .ok a := by
  cases items with
  | nil => cases success
  | cons j later =>
    obtain ⟨b, step, made⟩ := exists_of_bind success
    cases made
    exact ⟨j, rfl, step⟩

/-- A field that a list may lack is told, if it is there. -/
theorem head?_of_next_optional {v : Option String}
    (success : (match items with
      | [] => Except.ok (none, [])
      | items => Decoder.next record position (Decoder.optional Decoder.text) items) = .ok (v, rest)) :
    items.head?.bind Json.text? = v ∧ rest = items.tail := by
  cases items with
  | nil =>
    cases success
    exact ⟨rfl, rfl⟩
  | cons j later =>
    obtain ⟨_, same, read⟩ := cons_of_next success
    cases same
    exact ⟨Json.text?_of_optional read, rfl⟩

/-- What a payload tells of a new user is what is read of it. -/
theorem Users.told_of_readAdded {added : Added} (read : Users.readAdded e.payload = .ok added) :
    e.told 0 "username" = some added.username ∧ e.told 1 "email" = some added.email ∧
      e.told 2 "display_name" = added.displayName := by
  unfold readAdded at read
  split at read
  next fields object =>
    obtain ⟨displayName, first, read⟩ := exists_of_bind read
    obtain ⟨email, second, read⟩ := exists_of_bind read
    obtain ⟨username, third, read⟩ := exists_of_bind read
    obtain ⟨username', needed, read⟩ := exists_of_bind read
    obtain ⟨email', needed', read⟩ := exists_of_bind read
    rw [← Except.ok.inj read]
    exact ⟨told_of_require object third needed, told_of_require object second needed',
      told_of_present_optional object first⟩
  next items list =>
    obtain ⟨⟨username, items₁⟩, first, read₁⟩ := exists_of_bind read
    obtain ⟨⟨email, items₂⟩, second, read₂⟩ := exists_of_bind read₁
    obtain ⟨j, rfl, username⟩ := cons_of_next first
    obtain ⟨k, rfl, email⟩ := cons_of_next second
    simp only [Event.told_of_list list]
    cases items₂ with
    | nil =>
      rw [← Except.ok.inj read₂]
      exact ⟨Json.text?_of_text username, Json.text?_of_text email, rfl⟩
    | cons l items₃ =>
      obtain ⟨⟨displayName, items₄⟩, third, read₃⟩ := exists_of_bind read₂
      obtain ⟨_, _, read₄⟩ := exists_of_bind read₃
      obtain ⟨_, same, displayName⟩ := cons_of_next third
      cases same
      rw [← Except.ok.inj read₄]
      exact ⟨Json.text?_of_text username, Json.text?_of_text email,
        Json.text?_of_optional displayName⟩
  next => cases read

theorem Users.told_of_readChanged {change : Changed} (read : Users.readChanged e.payload = .ok change) :
    e.told 0 "username" = change.username ∧ e.told 1 "email" = change.email ∧
      e.told 2 "display_name" = change.displayName := by
  unfold readChanged at read
  split at read
  next fields object =>
    obtain ⟨displayName, first, read⟩ := exists_of_bind read
    obtain ⟨email, second, read⟩ := exists_of_bind read
    obtain ⟨username, third, read⟩ := exists_of_bind read
    rw [← Except.ok.inj read]
    exact ⟨told_of_present_optional object third, told_of_present_optional object second,
      told_of_present_optional object first⟩
  next items list =>
    obtain ⟨⟨username, items₁⟩, first, read₁⟩ := exists_of_bind read
    obtain ⟨⟨email, items₂⟩, second, read₂⟩ := exists_of_bind read₁
    obtain ⟨⟨displayName, items₃⟩, third, read₃⟩ := exists_of_bind read₂
    obtain ⟨_, _, read₄⟩ := exists_of_bind read₃
    obtain ⟨username, rfl⟩ := head?_of_next_optional first
    obtain ⟨email, rfl⟩ := head?_of_next_optional second
    obtain ⟨displayName, -⟩ := head?_of_next_optional third
    rw [← Except.ok.inj read₄, ← username, ← email, ← displayName]
    simp only [Event.told_of_list list, List.head?_eq_getElem?, List.getElem?_tail, and_self]
  next => cases read

end Told

namespace Users

variable {e : Event} {op : Operation}

theorem Asks.valid (asks : Asks e op) : op.validate = .ok () := by
  cases asks with
  | changed => simp [Operation.validate, Event.changeColumns, Event.keyConditions]
  | added | locked | unlocked | removed | nothing => rfl

theorem conflicts_columns (user other : User) (instanceId : InstanceId) (id : AggregateId) :
    Row.conflicts (other.row instanceId id) (user.columns instanceId id) ["instance_id", "id"] =
      true := by
  simp [Row.conflicts, User.row, User.columns, Row.assign, SqlValue.same]

theorem insertion_eq (e : Event) (added : Added) :
    insertion e added = .create usersTable
      ((User.fresh e added.username added.email added.displayName).columns e.instanceId e.aggregateId)
      ["instance_id", "id"] :=
  rfl

/-- What an event asks for makes of a user's row what the event makes of the user. -/
theorem Asks.effect_own (asks : Asks e op) (about : e.aggregateType = ⟨"user"⟩)
    (user : Option User) :
    op.effect usersTable (user.map (·.row e.instanceId e.aggregateId)).toList =
      ((User.after user e).map (·.row e.instanceId e.aggregateId)).toList := by
  have meets (user : User) :
      Row.meets (user.row e.instanceId e.aggregateId) (e.keyConditions "id") = true :=
    user.has_scope_row ..
  cases asks with
  | @added added type read =>
    obtain ⟨username, email, displayName⟩ := told_of_readAdded read
    rw [User.after, if_pos type, username, email, displayName, insertion_eq]
    cases user with
    | none => exact Operation.effect_create_nil
    | some user =>
      refine (Operation.effect_create_self (List.cons_ne_nil _ _) (conflicts_columns ..)).trans ?_
      exact congrArg (fun row => [row]) (User.assign_columns ..)
  | @changed change type read =>
    obtain ⟨username, email, displayName⟩ := told_of_readChanged read
    cases user with
    | none => simp [User.after, type]
    | some user =>
      refine (Operation.effect_update_self (meets user)).trans ?_
      simp [User.after, type, username, email, displayName, Row.assign_append, User.assign_username,
        User.assign_email, User.assign_displayName, User.assign_changeColumns]
  | locked type =>
    cases user with
    | none => simp [User.after, type]
    | some user =>
      refine (Operation.effect_update_self (meets user)).trans ?_
      simp [User.after, type, ← User.assign_stateColumns, UserState.name]
  | unlocked type =>
    cases user with
    | none => simp [User.after, type]
    | some user =>
      refine (Operation.effect_update_self (meets user)).trans ?_
      simp [User.after, type, ← User.assign_stateColumns, UserState.name]
  | removed type =>
    have gone : User.after user e = none := by simp [User.after, type]
    rw [gone]
    cases user with
    | none => exact Operation.effect_delete_nil
    | some user => exact Operation.effect_delete_self (meets user)
  | nothing other =>
    have foreign := other about
    simp only [eventTypes, List.mem_cons, List.not_mem_nil, or_false, not_or] at foreign
    simp [User.after, foreign, Operation.effect]

theorem Asks.effect_eq (asks : Asks e op) (table : String) (rows : List Row) :
    op.effect table rows = op.leaves.foldl (fun rows leaf => leaf.effect table rows) rows := by
  cases asks <;> rfl

theorem Asks.rows_run (asks : Asks e op) (t : Tables) (table : String) :
    (op.run {} t).tables.rows table = op.effect table (t.rows table) := by
  rw [Operation.rows_run_unhindered asks.valid, asks.effect_eq]

/-- The rows of a table are those of known users, one for each. -/
structure Holds (rows : List Row) (known : InstanceId → AggregateId → Option User) : Prop where
  /-- A known user has one row, which tells all that is known, and a user who is not known has none. -/
  own (instanceId : InstanceId) (id : AggregateId) :
    rows.filter (User.scope instanceId id).has =
      ((known instanceId id).map (·.row instanceId id)).toList
  /-- There are no other rows. -/
  only : ∀ row ∈ rows, ∃ instanceId id user,
    known instanceId id = some user ∧ row = user.row instanceId id

theorem Holds.nil : Holds [] fun _ _ => none where
  own _ _ := rfl
  only row among := by cases among

/-- An event that is reduced does to the rows what it does to the users. -/
theorem Holds.step {rows : List Row} {known : InstanceId → AggregateId → Option User}
    (holds : Holds rows known) (asks : Asks e op) (about : e.aggregateType = ⟨"user"⟩) :
    Holds (op.effect usersTable rows) fun instanceId id =>
      if User.About instanceId id e then User.after (known instanceId id) e
      else known instanceId id := by
  have own : (op.effect usersTable rows).filter (e.scope "id").has =
      ((User.after (known e.instanceId e.aggregateId) e).map
        (·.row e.instanceId e.aggregateId)).toList := by
    rw [asks.effect_eq, Operation.filter_foldl_effect asks.confined, ← asks.effect_eq,
      ← asks.effect_own about, ← holds.own]
    rfl
  refine ⟨fun instanceId id => ?_, fun row among => ?_⟩
  · by_cases ours : User.About instanceId id e
    · rw [if_pos ours]
      obtain ⟨rfl, rfl⟩ := ours
      exact own
    · rw [if_neg ours, ← holds.own, asks.effect_eq]
      exact Operation.filter_foldl_effect_of_kept (fun leaf part rows =>
        (asks.confined leaf part).filter_effect_of_disjoint
          (fun row => User.not_has_of_not_about ours) usersTable rows) rows
  · cases within : (e.scope "id").has row with
    | true =>
      have here := List.mem_filter.mpr ⟨among, within⟩
      rw [own, Option.mem_toList, Option.map_eq_some_iff] at here
      obtain ⟨user, left, rfl⟩ := here
      exact ⟨e.instanceId, e.aggregateId, user, by rw [if_pos ⟨rfl, rfl⟩, left], rfl⟩
    | false =>
      -- a row that is not the user's was there before, and so belongs to another user
      have beside : row ∈ (op.effect usersTable rows).filter fun row => !(e.scope "id").has row :=
        List.mem_filter.mpr ⟨among, by rw [within]; rfl⟩
      rw [asks.effect_eq, Operation.filter_foldl_effect_of_kept fun leaf part rows =>
        (asks.confined leaf part).filter_not_effect usersTable rows] at beside
      obtain ⟨instanceId, id, user, knows, rfl⟩ := holds.only row (List.mem_filter.mp beside).1
      refine ⟨instanceId, id, user, ?_, rfl⟩
      rw [if_neg, knows]
      rintro ⟨rfl, rfl⟩
      exact Bool.false_ne_true (within.symm.trans (user.has_scope_row _ _))

theorem Holds.replay {events : List Event} {statements : List Statement} {t : Tables}
    {known : InstanceId → AggregateId → Option User} (holds : Holds (t.rows usersTable) known)
    (about : ∀ e ∈ events, e.aggregateType = ⟨"user"⟩)
    (reduced : usersProjection.registry.reduceAll events = .ok statements) :
    Holds ((t.replay (statements.map (·.operation))).rows usersTable) fun instanceId id =>
      (events.filter fun e => decide (User.About instanceId id e)).foldl User.after
        (known instanceId id) := by
  rw [Registry.reduceAll_eq_ok_iff] at reduced
  induction reduced generalizing t known with
  | nil => exact holds
  | @cons e st rest statements here _ ih =>
    obtain ⟨first, later⟩ := List.forall_mem_cons.mp about
    have asks := asks_of_reduce here
    have next := holds.step asks first
    rw [← asks.rows_run] at next
    have all := ih next later
    refine cast (congrArg (Holds _) (funext₂ fun instanceId id => ?_)) all
    rw [List.filter_cons]
    by_cases ours : User.About instanceId id e
    · rw [if_pos ours, if_pos (decide_eq_true ours), List.foldl_cons]
    · rw [if_neg ours, if_neg (by simpa using ours)]

end Users

/-- From an empty table of users on, the rows are those that the histories of the users leave. -/
theorem users_table_holds_histories {events : List Event} {statements : List Statement} {t : Tables}
    (about : ∀ e ∈ events, e.aggregateType = ⟨"user"⟩)
    (reduced : usersProjection.registry.reduceAll events = .ok statements)
    (empty : t.rows usersTable = []) :
    Users.Holds ((t.replay (statements.map (·.operation))).rows usersTable) fun instanceId id =>
      User.ofEvents instanceId id events :=
  Users.Holds.replay (empty ▸ Users.Holds.nil) about reduced

/-- A user of one instance is changed and locked; another instance has a user with the same id, who is
removed and changed afterwards. -/
def User.lives : List Event :=
  let event (instanceId type : String) (sequence : Nat) (payload : Json) : Event :=
    ⟨⟨"user"⟩, ⟨"7"⟩, ⟨instanceId⟩, ⟨type⟩, sequence, 0, sequence - 1, ⟨sequence, 0⟩, payload⟩
  [event "a" "user.added" 1 (.object [("email", .text "ann@a"), ("username", .text "ann")]),
    event "b" "user.added" 2 (.list [.text "bob", .text "bob@b", .text "Bob"]),
    event "a" "user.changed" 3 (.object [("display_name", .text "Ann")]),
    event "b" "user.removed" 4 .null,
    event "a" "user.locked" 5 .null,
    event "b" "user.changed" 6 (.object [("username", .text "rob")])]

theorem users_table_holds_histories_of_lives :
    ∃ statements, usersProjection.registry.reduceAll User.lives = .ok statements ∧
      Users.Holds (((∅ : Tables).replay (statements.map (·.operation))).rows usersTable)
        (fun instanceId id => User.ofEvents instanceId id User.lives) ∧
      User.ofEvents ⟨"a"⟩ ⟨"7"⟩ User.lives =
        some ⟨"ann", "ann@a", some "Ann", .locked, ⟨1, 0⟩, ⟨5, 0⟩, 5⟩ ∧
      User.ofEvents ⟨"b"⟩ ⟨"7"⟩ User.lives = none :=
  ⟨_, rfl, users_table_holds_histories (by simp [User.lives]) rfl rfl, rfl, rfl⟩

end ReadModel
