import ReadModel.Projections.Users

/-!
The read model of organizations: one row for each organization of an instance, and one for each of
its domains, at most one of which is marked as primary.
-/

namespace ReadModel

open Decoder

/-- The table of organizations. -/
def orgsTable : String := "projections.orgs"

/-- The table of the domains of organizations. -/
def orgDomainsTable : String := "projections.org_domains"

namespace Orgs

/-- Reads a payload of one text. -/
def readOnly (record name : String) : Decoder String
  | .object fields => do
    let value ← present name text fields
    require name value
  | .list items => do
    let (value, items) ← next (elements record 1) 0 text items
    finish .whole 1 items
    .ok value
  | j => .error (.wrongType j record)

/-- The name that an organization gets, which must not be blank. -/
def readName (event : Event) : Except ReduceError String := do
  let name ← event.decodePayload (readOnly "struct OrgNamed" "name")
  if isBlankText name then .error (event.invalid "organization name must not be empty")
  else .ok name

/-- The domain that an event is about. -/
def readDomain (event : Event) : Except ReduceError String :=
  event.decodePayload (readOnly "struct OrgDomain" "domain")

/-- A new organization gets a row. -/
def reduceAdded : Reducer := fun event => do
  let name ← readName event
  .ok <| event.statement <| .create orgsTable
    ([⟨"instance_id", .text event.instanceId.text⟩,
      ⟨"id", .text event.aggregateId.text⟩,
      ⟨"name", .text name⟩,
      ⟨"state", .text "active"⟩,
      ⟨"creation_date", .timestamp event.creationDate⟩] ++ event.changeColumns)
    []

/-- A changed organization's row gets the name. -/
def reduceChanged : Reducer := fun event => do
  let name ← readName event
  .ok <| event.statement <| .update orgsTable (⟨"name", .text name⟩ :: event.changeColumns)
    (event.keyConditions "id")

/-- A removed organization's rows are deleted, those of its domains first. -/
def reduceRemoved : Reducer := fun event =>
  .ok <| event.statement <| .multi
    [.delete orgDomainsTable (event.keyConditions "org_id"),
      .delete orgsTable (event.keyConditions "id")]

/-- A new domain gets a row that is not marked as primary, in place of one that is there. -/
def reduceDomainAdded : Reducer := fun event => do
  let domain ← readDomain event
  .ok <| event.statement <| .create orgDomainsTable
    [⟨"instance_id", .text event.instanceId.text⟩,
      ⟨"org_id", .text event.aggregateId.text⟩,
      ⟨"domain", .text domain⟩,
      ⟨"is_primary", .bool false⟩,
      ⟨"creation_date", .timestamp event.creationDate⟩,
      ⟨"sequence", .ofSequence event.sequence⟩]
    ["instance_id", "org_id", "domain"]

/-- All of an organization's domains lose the mark, then the primary one gets it, then the
organization's row names it. -/
def reducePrimaryDomainSet : Reducer := fun event => do
  let domain ← readDomain event
  .ok <| event.statement <| .multi
    [.update orgDomainsTable [⟨"is_primary", .bool false⟩] (event.keyConditions "org_id"),
      .update orgDomainsTable [⟨"is_primary", .bool true⟩]
        (event.keyConditions "org_id" ++ [⟨"domain", .text domain⟩]),
      .update orgsTable (⟨"primary_domain", .text domain⟩ :: event.changeColumns)
        (event.keyConditions "id")]

end Orgs

/-- The read model of organizations. -/
def orgsProjection : Projection where
  name := "projections.orgs"
  registry := ⟨[⟨⟨"org"⟩,
    [(⟨"org.added"⟩, Orgs.reduceAdded),
      (⟨"org.changed"⟩, Orgs.reduceChanged),
      (⟨"org.removed"⟩, Orgs.reduceRemoved),
      (⟨"org.domain.added"⟩, Orgs.reduceDomainAdded),
      (⟨"org.domain.primary.set"⟩, Orgs.reducePrimaryDomainSet)]⟩]⟩

end ReadModel
