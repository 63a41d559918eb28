import AppManifest.Syntax.Find

namespace AppManifest

structure MarkerField where
  name : String
  node : Node
  value : Option Node

/-- A decorator read as a marker; its arguments keep their order. -/
structure Marker where
  name : String
  node : Node
  fields : List MarkerField
  positional : List Node

/-- The first field of a name. -/
def Marker.field? (a : Marker) (name : String) : Option MarkerField :=
  a.fields.find? fun f => f.name = name

/-- One child of an argument list. -/
inductive Argument
  | keyword (field : MarkerField)
  | positional (node : Node)
  | punctuation

namespace Argument

def field? : Argument → Option MarkerField
  | keyword field => some field
  | _ => none

def positional? : Argument → Option Node
  | positional node => some node
  | _ => none

end Argument

/-- The text without its first and last character. -/
def withoutDelimiters (s : String) : String :=
  String.ofList (s.toList.drop 1).dropLast

namespace Document

def valueExpression (f : MarkerField) : Except Fault Node :=
  match f.value with
  | some n => .ok n
  | none => .error (.missingValue f.name)

/-- The literal value of a field, where it is a plain string or a decimal integer.

A string loses its quotes and nothing else; a number stays as written. -/
def literal? (d : Document) (f : MarkerField) : Except Fault (Option String) := do
  let expression ← valueExpression f
  match ← d.kind expression with
  | .stringLiteral => return some (withoutDelimiters (← d.text expression))
  | .decimalIntegerLiteral => return some (← d.text expression)
  | _ => return none

/-- The name that a decorator calls a marker by: the last part of a dotted one. -/
def markerName (d : Document) (callee : Node) : Except Fault String := do
  if (← d.kind callee) = .attributeAccess then
    match callee.field? "attribute" with
    | some last => d.text last
    | none => d.text callee
  else
    d.text callee

/-- The expression of a decorator: its first child that is neither a comment nor the at sign. -/
def decoratorExpression (d : Document) : List Node → Except Fault Node
  | [] => .error .emptyDecorator
  | child :: children => do
    if (← d.kind child) = .comment ∨ (← d.text child) = "@" then
      d.decoratorExpression children
    else
      return child

def argument (d : Document) (child : Node) : Except Fault Argument := do
  match ← d.kind child with
  | .keywordArgument =>
    let name ← match child.field? "name" with
      | some token => d.text token
      | none => pure ""
    return .keyword ⟨name, child, child.field? "value"⟩
  | .comment => return .punctuation
  | _ =>
    if (← d.text child) ∈ ["(", ")", ","] then return .punctuation
    else return .positional child

def marker (d : Document) (decorator : Node) : Except Fault Marker := do
  let expression ← d.decoratorExpression decorator.children
  if (← d.kind expression) = .call then
    let arguments ← match expression.field? "arguments" with
      | some list => list.children.mapM d.argument
      | none => pure []
    let name ← match expression.field? "function" with
      | some callee => d.markerName callee
      | none => d.text expression
    return ⟨name, decorator, arguments.filterMap Argument.field?,
      arguments.filterMap Argument.positional?⟩
  else
    return ⟨← d.markerName expression, decorator, [], []⟩

/-- The marker of a child of a decorated definition, where it is a decorator. -/
def marker? (d : Document) (child : Node) : Except Fault (Option Marker) := do
  if (← d.kind child) = .decorator then return some (← d.marker child)
  else return none

/-- The markers of a class or function definition, in source order. -/
def markers (d : Document) (definition : Node) : Except Fault (List Marker) := do
  match definition.parent? with
  | none => return []
  | some parent =>
    if (← d.kind parent) = .decoratedDefinition then parent.children.filterMapM d.marker?
    else return []

end Document

end AppManifest
