import BlockPipeline.Assoc
import BlockPipeline.Block.Basic
import BlockPipeline.Pipeline.Error

set_option autoImplicit false

/-! # Graphs of blocks

A graph stores its blocks by identifier. Apart from that it keeps the pipeline order, and the
connections, the one made last first. Every edit keeps the rules: the order lists what is stored, each
block once, a block has one input at most, a load block has none, and no block reaches itself. -/

namespace BlockPipeline

/-- The output of one block is the input of another. -/
structure Connection where
  source : BlockId
  target : BlockId
  deriving DecidableEq

/-- Blocks and connections. -/
structure Graph where
  /-- The blocks by identifier. -/
  stored : List (BlockId × Block)
  /-- The identifiers in pipeline order. -/
  ids : List BlockId
  links : List Connection
  deriving DecidableEq, Inhabited

namespace Graph

/-- The graph without blocks. -/
def empty : Graph := ⟨[], [], []⟩

/-! ## Looking up -/

/-- The block of an identifier. -/
def find? (g : Graph) (id : BlockId) : Option Block := Assoc.find? id g.stored

/-- Is there a block of this identifier? -/
def contains (g : Graph) (id : BlockId) : Bool := (g.find? id).isSome

/-- The block of an identifier, which is missed if it is not there. -/
def get (g : Graph) (id : BlockId) : Except PipelineError Block :=
  match g.find? id with
  | some block => .ok block
  | none => .error (.blockNotFound id)

/-- The blocks in pipeline order. -/
def blocks (g : Graph) : List Block := g.ids.filterMap g.find?

/-- The place of a block in pipeline order. -/
def position? (g : Graph) (id : BlockId) : Option Nat := g.ids.findIdx? (· == id)

/-- The block that feeds this one. -/
def inputOf (g : Graph) (id : BlockId) : Option BlockId :=
  (g.links.find? (·.target == id)).map Connection.source

/-- The blocks that this one feeds, the one connected last first. -/
def successors (g : Graph) (id : BlockId) : List BlockId :=
  (g.links.filter (·.source == id)).map Connection.target

/-- The blocks that this one feeds, in pipeline order. -/
def childrenOf (g : Graph) (id : BlockId) : List BlockId :=
  g.ids.filter (· ∈ g.successors id)

/-- The connections, in pipeline order of their targets. -/
def connections (g : Graph) : List Connection :=
  g.ids.filterMap fun target => (g.inputOf target).map fun source => ⟨source, target⟩

/-- How many connections there are. -/
def connectionCount (g : Graph) : Nat := g.links.length

/-- The load blocks, in pipeline order. -/
def roots (g : Graph) : List BlockId := (g.blocks.filter (·.kind.isSource)).map Block.id

/-! ## Searching -/

/-- Those of the blocks that have not been discovered, each once. -/
def undiscovered (discovered : List BlockId) : List BlockId → List BlockId
  | [] => []
  | id :: rest =>
    if id ∈ discovered then undiscovered discovered rest
    else id :: undiscovered (id :: discovered) rest

/-- Goes through a queue and discovers what its blocks feed, which joins the queue at the end. Ends
    after a number of blocks. -/
def search (g : Graph) : Nat → List BlockId → List BlockId → List BlockId
  | 0, _, _ => []
  | _ + 1, _, [] => []
  | count + 1, discovered, id :: queue =>
    let new := undiscovered discovered (g.successors id)
    id :: g.search count (discovered ++ new) (queue ++ new)

/-- A block and all blocks that can be reached from it, the nearest first. There are no more of them
    than there are blocks. -/
def reachedFrom (g : Graph) (id : BlockId) : List BlockId := g.search g.ids.length [id] [id]

/-! ## Editing -/

/-- Changes the block of an identifier, if it is there. -/
def modify (g : Graph) (id : BlockId) (change : Block → Block) : Graph :=
  { g with stored := Assoc.modify id change g.stored }

/-- Adds a block at the end. Its identifier has to be new. -/
def add (g : Graph) (block : Block) : Graph :=
  { g with stored := Assoc.insert block.id block g.stored, ids := g.ids ++ [block.id] }

/-- Adds a block that has not run yet, under an identifier that may be taken. -/
def addConfig (g : Graph) (id : BlockId) (config : BlockConfig) : Except PipelineError Graph :=
  if g.contains id then .error (.invalidConfig id config.kind .identifierTaken)
  else .ok (g.add (.ofConfig id config))

/-- Removes a block and every connection that touches it, and returns the block if it was there. -/
def remove (g : Graph) (id : BlockId) : Graph × Option Block :=
  match g.find? id with
  | none => (g, none)
  | some block =>
    ({ stored := Assoc.erase id g.stored
       ids := g.ids.filter (· ≠ id)
       links := g.links.filter fun link => link.source ≠ id ∧ link.target ≠ id }, some block)

/-- Moves a block to a place in pipeline order, or to the end if that is nearer. -/
def move (g : Graph) (id : BlockId) (place : Nat) : Except PipelineError Graph :=
  match g.position? id with
  | none => .error (.blockNotFound id)
  | some former =>
    let others := g.ids.eraseIdx former
    .ok { g with ids := others.insertIdx (min place others.length) id }

/-- Gives a block another label. -/
def rename (g : Graph) (id : BlockId) (label : String) : Except PipelineError Graph := do
  let _ ← g.get id
  return g.modify id fun block => { block with label }

/-- Puts a copy of a block, under a new identifier, right behind it. Connections are not copied. -/
def duplicate (g : Graph) (id copyId : BlockId) : Except PipelineError Graph := do
  let block ← g.get id
  let place := match g.position? id with
    | some place => place + 1
    | none => g.ids.length
  (g.add (block.duplicate copyId)).move copyId place

/-- The graph without the connection into a block. -/
def unlink (g : Graph) (target : BlockId) : Graph :=
  { g with links := g.links.filter (·.target ≠ target) }

/-- Connects two blocks. A connection that the target already has gives way, and its source is
    returned unless it is the same. -/
def connect (g : Graph) (source target : BlockId) :
    Except PipelineError (Graph × Option BlockId) := do
  let _ ← g.get source
  let targetBlock ← g.get target
  if source = target then throw (.invalidConnection source target .ownInput)
  if targetBlock.kind.isSource then throw (.invalidConnection source target .intoSource)
  if source ∈ g.reachedFrom target then throw (.invalidConnection source target .cycle)
  let previous := g.inputOf target
  if previous = some source then return (g, none)
  let free := g.unlink target
  return ({ free with links := ⟨source, target⟩ :: free.links }, previous)

/-- Removes the connection into a block and returns its source. -/
def disconnect (g : Graph) (target : BlockId) : Graph × Option BlockId :=
  (g.unlink target, g.inputOf target)

end Graph

end BlockPipeline
