import AppManifest.Location
import AppManifest.Syntax.Kind
import AppManifest.Syntax.Tree

namespace AppManifest

/-- Why an analysis cannot go on. -/
inductive Fault
  | undecodable
  /-- A field of a marker has no value expression. -/
  | missingValue (field : String)
  /-- A decorator names nothing. -/
  | emptyDecorator
  /-- A decorator names nothing while the services of a module are looked for. -/
  | emptyServiceDecorator
  /-- A decimal literal has more digits than numbers are read with. -/
  | oversizedNumeral
  deriving DecidableEq, Repr

def Fault.message : Fault → String
  | undecodable => "The source is not valid UTF-8"
  | missingValue field => "Annotation field '" ++ field ++ "' has no value expression"
  | emptyDecorator => "A decorator names nothing"
  | emptyServiceDecorator => "A decorator of a module-level class names nothing"
  | oversizedNumeral => "A decimal literal has too many digits"

/-- A source file with its syntax tree. -/
structure Document where
  path : String
  source : ByteArray
  tree : Tree

namespace Document

def root (d : Document) : Node := ⟨d.tree, []⟩

/-- An offset moved into the source; a negative one counts from the end. -/
def clamp (d : Document) (offset : Int) : Nat :=
  if offset < 0 then (offset + d.source.size).toNat else min offset.toNat d.source.size

def bytes (d : Document) (n : Node) : ByteArray :=
  d.source.extract (d.clamp n.start) (d.clamp n.stop)

def text (d : Document) (n : Node) : Except Fault String :=
  match String.fromUTF8? (d.bytes n) with
  | some s => .ok s
  | none => .error .undecodable

/-- The kind of a node, which hangs on its text. -/
def kind (d : Document) (n : Node) : Except Fault SyntaxKind :=
  return classify n.type (← d.text n).toList

end Document

/-- The offsets just past each line feed, for bytes that begin at an offset. -/
def lineEnds (offset : Int) : List UInt8 → List Int
  | [] => []
  | b :: bs =>
    if b = 0x0A then (offset + 1) :: lineEnds (offset + 1) bs else lineEnds (offset + 1) bs

namespace Document

def lineStarts (d : Document) : List Int :=
  0 :: lineEnds 0 d.source.data.toList

/-- The line and column of a byte offset.

Offsets before the first line lie on line -1, counted from the last line's start. -/
def position (d : Document) (offset : Int) : LinePosition :=
  let before := d.lineStarts.filter (· ≤ offset)
  ⟨before.length - 1, offset - before.getLastD (d.lineStarts.getLastD 0)⟩

/-- The byte offset of a place, where the document has it.

A line reaches past its line feed, up to the start of the next one. -/
def offset? (d : Document) (p : LinePosition) : Option Int :=
  if p.line < 0 ∨ p.offset < 0 then none
  else match d.lineStarts[p.line.toNat]? with
    | none => none
    | some start =>
      let stop := (d.lineStarts[p.line.toNat + 1]?).getD d.source.size
      if start + p.offset ≤ stop then some (start + p.offset) else none

def lines (d : Document) (n : Node) : LineRange :=
  ⟨d.position n.start, d.position n.stop⟩

def location (d : Document) (n : Node) : SourceLocation :=
  ⟨d.path, d.lines n, n.start, n.stop⟩

end Document

end AppManifest
