import ReadModel.Dict
import ReadModel.Text.Blank
import ReadModel.Text.Quoted

/-!
Identifiers.

Instances, aggregates, aggregate types and event types are all named by texts; the kind in the type
keeps one from being used for another. `Identifier.ofText` refuses blank texts, while a name that is
read back from storage is taken as it stands.
-/

namespace ReadModel

/-- What an identifier names. -/
inductive IdentifierKind where
  | tenant
  | aggregate
  | aggregateType
  | eventType
  deriving DecidableEq

/-- The name of a kind in messages. -/
def IdentifierKind.name : IdentifierKind → String
  | .tenant => "InstanceId"
  | .aggregate => "AggregateId"
  | .aggregateType => "AggregateType"
  | .eventType => "EventType"

/-- An identifier of one kind. -/
structure Identifier (kind : IdentifierKind) where
  text : String
  deriving DecidableEq

instance {kind : IdentifierKind} : BEq (Identifier kind) := ⟨fun a b => decide (a = b)⟩

instance {kind : IdentifierKind} : LawfulBEq (Identifier kind) where
  eq_of_beq same := of_decide_eq_true same
  rfl := decide_eq_true rfl

/-- The instance, or tenant, that an event belongs to. -/
abbrev InstanceId := Identifier .tenant

/-- One stream of events. -/
abbrev AggregateId := Identifier .aggregate

/-- What sort of thing an aggregate is. -/
abbrev AggregateType := Identifier .aggregateType

/-- What an event says has happened. -/
abbrev EventType := Identifier .eventType

/-- A text that names nothing because it is blank. -/
structure IdentifierError where
  kind : IdentifierKind
  deriving DecidableEq

/-- The text of the error. -/
def IdentifierError.message (e : IdentifierError) : String :=
  "invalid " ++ e.kind.name ++ ": must not be empty"

namespace Identifier

variable {kind : IdentifierKind}

instance : Inhabited (Identifier kind) := ⟨⟨""⟩⟩

/-- Identifiers are ordered by their texts. -/
instance : KeyOrder (Identifier kind) :=
  KeyOrder.via Identifier.text fun a b same => by cases a; cases b; simp_all

/-- The identifier with a text, which must not be blank. -/
def ofText (text : String) : Except IdentifierError (Identifier kind) :=
  if isBlankText text then .error ⟨kind⟩ else .ok ⟨text⟩

/-- The identifier as diagnostics show it. -/
def describe (id : Identifier kind) : String := kind.name ++ "(" ++ quoted id.text ++ ")"

end Identifier

/-- The reserved instance for work that belongs to no tenant. -/
def systemInstance : InstanceId := ⟨"system"⟩

/-- Instances as diagnostics list them. -/
def describeInstances (ids : List InstanceId) : String := bracketed (ids.map Identifier.describe)

end ReadModel
