import ReadModel.Reduction
import ReadModel.Text.Blank

/-!
The read model of users: one row for each user of an instance. Removed users are deleted, locked
ones are only marked.
-/

namespace ReadModel

open Decoder

/-- The table of users. -/
def usersTable : String := "projections.users"

/-- The columns that name an event's aggregate, as conditions on one of its rows. -/
def Event.keyConditions (event : Event) (idColumn : String) : List Condition :=
  [⟨"instance_id", .text event.instanceId.text⟩, ⟨idColumn, .text event.aggregateId.text⟩]

/-- The columns that tell when a row was changed last, and by which event. -/
def Event.changeColumns (event : Event) : List Column :=
  [⟨"change_date", .timestamp event.creationDate⟩, ⟨"sequence", .ofSequence event.sequence⟩]

namespace Users

/-- What is told about a new user. -/
structure Added where
  username : String
  email : String
  displayName : Option String

/-- What is told about a changed user. -/
structure Changed where
  username : Option String
  email : Option String
  displayName : Option String

/-- Reads what is told about a new user. -/
def readAdded : Decoder Added
  | .object fields => do
    let displayName ← present "display_name" (optional text) fields
    let email ← present "email" text fields
    let username ← present "username" text fields
    let username ← require "username" username
    let email ← require "email" email
    .ok { username, email, displayName := displayName.join }
  | .list items => do
    let record := elements "struct UserAdded" 3
    let (username, items) ← next record 0 text items
    let (email, items) ← next record 1 text items
    let (displayName, items) ← match items with
      | [] => pure (none, [])
      | items => next record 2 (optional text) items
    finish .whole 3 items
    .ok { username, email, displayName }
  | j => .error (.wrongType j "struct UserAdded")

/-- Reads what is told about a changed user. -/
def readChanged : Decoder Changed
  | .object fields => do
    let displayName ← present "display_name" (optional text) fields
    let email ← present "email" (optional text) fields
    let username ← present "username" (optional text) fields
    .ok { username := username.join, email := email.join, displayName := displayName.join }
  | .list items => do
    let record := elements "struct UserChanged" 3
    let optionalNext (position : Nat) (items : List Json) :
        Except DecodeError (Option String × List Json) :=
      match items with
      | [] => .ok (none, [])
      | items => next record position (optional text) items
    let (username, items) ← optionalNext 0 items
    let (email, items) ← optionalNext 1 items
    let (displayName, items) ← optionalNext 2 items
    finish .whole 3 items
    .ok { username, email, displayName }
  | j => .error (.wrongType j "struct UserChanged")

/-- The operation that gives a new user a row, in place of one that is there. -/
def insertion (event : Event) (added : Added) : Operation :=
  .create usersTable
    ([⟨"instance_id", .text event.instanceId.text⟩,
      ⟨"id", .text event.aggregateId.text⟩,
      ⟨"username", .text added.username⟩,
      ⟨"email", .text added.email⟩,
      ⟨"display_name", .ofText? added.displayName⟩,
      ⟨"state", .text "active"⟩,
      ⟨"creation_date", .timestamp event.creationDate⟩] ++ event.changeColumns)
    ["instance_id", "id"]

/-- A new user needs a name. -/
def reduceAdded : Reducer := fun event => do
  let added ← event.decodePayload readAdded
  if isBlankText added.username then .error (event.invalid "username must not be empty")
  else .ok (event.statement (insertion event added))

/-- The column that is assigned if there is a value for it. -/
def changedColumn (name : String) : Option String → List Column
  | some value => [⟨name, .text value⟩]
  | none => []

/-- A changed user's row gets what is told. -/
def reduceChanged : Reducer := fun event => do
  let change ← event.decodePayload readChanged
  .ok <| event.statement <| .update usersTable
    (changedColumn "username" change.username ++ changedColumn "email" change.email ++
      changedColumn "display_name" change.displayName ++ event.changeColumns)
    (event.keyConditions "id")

/-- A user's row gets another state. -/
def reduceState (state : String) : Reducer := fun event =>
  .ok <| event.statement <| .update usersTable (⟨"state", .text state⟩ :: event.changeColumns)
    (event.keyConditions "id")

/-- A removed user's row is deleted. -/
def reduceRemoved : Reducer := fun event =>
  .ok <| event.statement <| .delete usersTable (event.keyConditions "id")

end Users

/-- The read model of users. -/
def usersProjection : Projection where
  name := "projections.users"
  registry := ⟨[⟨⟨"user"⟩,
    [(⟨"user.added"⟩, Users.reduceAdded),
      (⟨"user.changed"⟩, Users.reduceChanged),
      (⟨"user.locked"⟩, Users.reduceState "locked"),
      (⟨"user.unlocked"⟩, Users.reduceState "active"),
      (⟨"user.removed"⟩, Users.reduceRemoved)]⟩]⟩

end ReadModel
