import BlockPipeline.Engine.Basic

set_option autoImplicit false

/-! # An engine with prepared answers

The engine has a queue of answers for each of its three calls. A call takes the next answer of its
queue; when the queue is empty, the answer is one without rows or columns. -/

namespace BlockPipeline.Scripted

/-- The prepared answers. -/
structure Script where
  execute : List (Except EngineError (List Row))
  describe : List (Except EngineError (List ColumnDescription))
  register : List (Except EngineError Unit)

/-- The next answer of a queue, or a default one, and the queue behind it. -/
def next {α : Type} (default : α) : List (Except EngineError α) →
    Except EngineError α × List (Except EngineError α)
  | [] => (.ok default, [])
  | answer :: rest => (answer, rest)

/-- The engine that answers from its script. -/
def engine : Engine Script where
  execute _ := fun script =>
    let (answer, rest) := next [] script.execute
    (answer, { script with execute := rest })
  describe _ := fun script =>
    let (answer, rest) := next [] script.describe
    (answer, { script with describe := rest })
  register _ _ := fun script =>
    let (answer, rest) := next () script.register
    (answer, { script with register := rest })

end BlockPipeline.Scripted
