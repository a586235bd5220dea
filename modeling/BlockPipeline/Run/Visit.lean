import BlockPipeline.Uuid

set_option autoImplicit false

/-! # Visits

A run visits blocks one after another. What became of each is recorded once, in the order of the
visits. -/

namespace BlockPipeline

/-- What became of a block in a run. -/
inductive Outcome where
  | succeeded
  | failed (message : String)
  /-- The block that feeds it did not succeed. -/
  | skipped
  deriving DecidableEq, Inhabited

namespace Outcome

/-- Did the block succeed? -/
def isSuccess : Outcome → Bool
  | .succeeded => true
  | _ => false

/-- Did the block fail? -/
def isFailure : Outcome → Bool
  | .failed _ => true
  | _ => false

/-- Was the block skipped? -/
def isSkip : Outcome → Bool
  | .skipped => true
  | _ => false

end Outcome

/-- A block and what became of it. -/
structure Visit where
  block : BlockId
  outcome : Outcome
  deriving DecidableEq

/-- The visits of a run, in order. -/
abbrev Visits := List Visit

namespace Visits

/-- What became of a block, if it was visited. -/
def outcome? (visits : Visits) (id : BlockId) : Option Outcome :=
  (visits.find? (·.block == id)).map Visit.outcome

/-- How often a block was visited. -/
def count (visits : Visits) (id : BlockId) : Nat := visits.countP (·.block == id)

/-- The blocks whose outcome satisfies the test. -/
def select (visits : Visits) (test : Outcome → Bool) : List BlockId :=
  (visits.filter fun visit => test visit.outcome).map Visit.block

/-- The blocks that succeeded. -/
def succeeded (visits : Visits) : List BlockId := visits.select Outcome.isSuccess

/-- The blocks that failed. -/
def failed (visits : Visits) : List BlockId := visits.select Outcome.isFailure

/-- The blocks that were skipped. -/
def skipped (visits : Visits) : List BlockId := visits.select Outcome.isSkip

/-- Did all visited blocks succeed? -/
def allSucceeded (visits : Visits) : Bool := visits.all fun visit => visit.outcome.isSuccess

end Visits

end BlockPipeline
