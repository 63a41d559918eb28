import AppManifest.Syntax.Document

namespace AppManifest

mutual

/-- The node reached from a tree by going into the first child that covers the bytes. -/
def coverFrom (start stop : Int) (above : List Tree) : Tree → Node
  | .node type first last field children =>
    let here := .node type first last field children
    (coverAmong start stop (here :: above) children).getD ⟨here, above⟩

/-- The same from the first of several trees that covers the bytes. -/
def coverAmong (start stop : Int) (above : List Tree) : List Tree → Option Node
  | [] => none
  | t :: trees =>
    if t.Covers start stop then some (coverFrom start stop above t)
    else coverAmong start stop above trees

end

/-- The deepest node below this one that covers the bytes from `start` to `stop`. -/
def Node.cover? (n : Node) (start stop : Int) : Option Node :=
  if start ≤ stop ∧ n.tree.Covers start stop then some (coverFrom start stop n.above n.tree)
  else none

mutual

/-- The leftmost identifier of a tree. -/
def identifierFrom (d : Document) (above : List Tree) : Tree → Except Fault (Option Node)
  | .node type first last field children => do
    let here := .node type first last field children
    if (← d.kind ⟨here, above⟩) = .identifier then return some ⟨here, above⟩
    else identifierAmong d (here :: above) children

def identifierAmong (d : Document) (above : List Tree) :
    List Tree → Except Fault (Option Node)
  | [] => return none
  | t :: trees => do
    match ← identifierFrom d above t with
    | some n => return some n
    | none => identifierAmong d above trees

end

/-- The first identifier at or below a node, reading from left to right. -/
def Document.firstIdentifier? (d : Document) (n : Node) : Except Fault (Option Node) :=
  identifierFrom d n.above n.tree

end AppManifest
