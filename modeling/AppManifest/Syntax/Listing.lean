import AppManifest.Syntax.Tree
import AppManifest.Text.Blank
import AppManifest.Text.Numeral

namespace AppManifest

/-- One line of a listing: how deep a node lies, and the node without its children. -/
structure ListedNode where
  depth : Nat
  start : Nat
  stop : Nat
  field : String
  type : String
  deriving DecidableEq, Repr

/-- Reads a line: depth, first and last offset, field name and type, with tabs between. -/
def ListedNode.ofLine? (line : String) : Option ListedNode :=
  match Text.split (· = '\t') line.toList with
  | [depth, start, stop, field, type] =>
    if Text.isNumeral depth && Text.isNumeral start && Text.isNumeral stop then
      some ⟨Text.numeralValue depth, Text.numeralValue start, Text.numeralValue stop,
        String.ofList field, String.ofList type⟩
    else none
  | _ => none

/-- Puts a node in front of the trees that are listed after it; the deeper ones are its
children. -/
def ListedNode.adopt (n : ListedNode) (later : List (Nat × Tree)) : List (Nat × Tree) :=
  let below := later.takeWhile fun t => n.depth < t.1
  (n.depth, .node n.type n.start n.stop n.field (below.map Prod.snd))
    :: later.dropWhile fun t => n.depth < t.1

/-- The tree whose nodes are listed from the root on, each before its children. -/
def Tree.ofListing? (nodes : List ListedNode) : Option Tree :=
  match nodes.foldr ListedNode.adopt [] with
  | [(_, t)] => some t
  | _ => none

def Tree.ofLines? (lines : List String) : Option Tree := do
  Tree.ofListing? (← lines.mapM ListedNode.ofLine?)

end AppManifest
