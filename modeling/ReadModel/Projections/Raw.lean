import ReadModel.Reduction
import ReadModel.Wire.Operation

/-!
A read model whose events carry the operations that they ask for.
-/

namespace ReadModel

open Decoder

namespace Raw

/-- The payload is the operation. -/
def reduceOperation : Reducer := fun event => do
  let operation ← event.decodePayload (operation .whole)
  .ok (event.statement operation)

/-- The event is refused; the payload says why, if it is a text. -/
def refuse : Reducer := fun event =>
  .error <| event.invalid <|
    match event.payload with
    | .text reason => reason
    | _ => "rejected"

end Raw

/-- The read model whose events carry operations. -/
def rawProjection : Projection where
  name := "projections.raw"
  registry := ⟨[⟨⟨"x"⟩, [(⟨"x.op"⟩, Raw.reduceOperation), (⟨"x.fail"⟩, Raw.refuse)]⟩,
    ⟨⟨"y"⟩, [(⟨"y.op"⟩, Raw.reduceOperation)]⟩]⟩

end ReadModel
