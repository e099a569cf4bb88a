import ReadModel.Database.Script
import ReadModel.Wire.Operation

/-!
What a scripted database was sent, as JSON values.
-/

namespace ReadModel

/-- A value with its type, as a JSON value. -/
def SqlParam.encode : SqlParam → Json
  | .bool b => .ofFields [("bool", .bool b)]
  | .int8 n => .ofFields [("int8", .number (.whole n))]
  | .float8 x => .ofFields [("float8", .number (.decimal x))]
  | .text s => .ofFields [("text", .text s)]
  | .timestamp t => .ofFields [("timestamptz", .ofOption Instant.encode t)]
  | .json v => .ofFields [("jsonb", v)]
  | .textArray items => .ofFields [("text[]", .ofTexts items)]

/-- All statements that a server was sent, as a JSON value. -/
def ScriptedServer.encodeSent (s : ScriptedServer) : Json :=
  .list <| s.sent.map fun e =>
    let params := if e.2.isEmpty then [] else [("params", Json.list (e.2.map SqlParam.encode))]
    .ofFields (("sql", .text e.1) :: params)

end ReadModel
