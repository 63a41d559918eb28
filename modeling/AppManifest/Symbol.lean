import AppManifest.Syntax.Find
import AppManifest.Vocabulary

namespace AppManifest

inductive SymbolKind
  | classType
  | function
  | method
  | variableName
  | builtin
  deriving DecidableEq, Repr

def SymbolKind.name : SymbolKind → String
  | classType => "class"
  | function => "function"
  | method => "method"
  | variableName => "variable"
  | builtin => "builtin"

/-- A name and the lines of the token that binds it; a built-in name has none. -/
structure Symbol where
  name : String
  kind : SymbolKind
  location : Option LineRange
  deriving DecidableEq, Repr

/-- What one statement of a module binds. -/
inductive Declaration
  | classType (symbol : Symbol) (methods : List Symbol)
  | function (symbol : Symbol)
  | bindings (symbols : List Symbol)

def Declaration.symbols : Declaration → List Symbol
  | classType symbol _ => [symbol]
  | function symbol => [symbol]
  | bindings symbols => symbols

/-- The symbol of a class whose name spans the given lines. -/
def Declaration.classAt? (range : LineRange) : Declaration → Option Symbol
  | classType symbol _ => if symbol.location = some range then some symbol else none
  | _ => none

/-- The methods of a class with this symbol. -/
def Declaration.methodsOf? (s : Symbol) : Declaration → Option (List Symbol)
  | classType symbol methods => if symbol = s then some methods else none
  | _ => none

namespace Document

/-- The definition inside a decorated statement; any other statement stands for itself. -/
def definition (d : Document) (statement : Node) : Except Fault Node := do
  if (← d.kind statement) = .decoratedDefinition then
    return (statement.field? "definition").getD statement
  else
    return statement

def symbol (d : Document) (kind : SymbolKind) (token : Node) : Except Fault Symbol :=
  return ⟨← d.text token, kind, some (d.lines token)⟩

/-- The method that a statement of a class body defines. -/
def method? (d : Document) (statement : Node) : Except Fault (Option Symbol) := do
  let definition ← d.definition statement
  match ← d.kind definition, definition.field? "name" with
  | .functionDefinition, some token => return some (← d.symbol .method token)
  | _, _ => return none

/-- The methods that a class body defines, in order, repeated names kept. -/
def methods (d : Document) (classNode : Node) : Except Fault (List Symbol) :=
  match classNode.field? "body" with
  | none => return []
  | some body => body.children.filterMapM d.method?

/-- The variable that a child of an expression statement assigns. -/
def assigned? (d : Document) (child : Node) : Except Fault (Option Symbol) := do
  if (← d.kind child) = .assignment then
    match child.field? "left" with
    | none => return none
    | some target =>
      if (← d.kind target) = .identifier then return some (← d.symbol .variableName target)
      else return none
  else
    return none

def declaration (d : Document) (statement : Node) : Except Fault Declaration := do
  let definition ← d.definition statement
  match ← d.kind definition, definition.field? "name" with
  | .classDefinition, some token =>
    return .classType (← d.symbol .classType token) (← d.methods definition)
  | .functionDefinition, some token =>
    return .function (← d.symbol .function token)
  | .expressionStatement, _ =>
    return .bindings (← definition.children.filterMapM d.assigned?)
  | _, _ => return .bindings []

/-- The node that declares a symbol, found from the lines of its name.

The name is a single token, so the node around it is the declaration. -/
def locate? (d : Document) (s : Symbol) : Option Node := do
  let range ← s.location
  let start ← d.offset? range.start
  let stop ← d.offset? range.stop
  let n ← d.root.cover? start stop
  if n.tree.children.isEmpty then n.parent?.getD n else n

end Document

/-- The names bound at the top of a module, in the order of its statements. -/
structure SymbolTable where
  declarations : List Declaration

namespace SymbolTable

def ofDocument (d : Document) : Except Fault SymbolTable :=
  return ⟨← d.root.children.mapM d.declaration⟩

/-- The last binding of a name, or else the built-in of that name. -/
def lookup? (t : SymbolTable) (name : String) : Option Symbol :=
  match (t.declarations.flatMap Declaration.symbols).reverse.find? (·.name = name) with
  | some s => some s
  | none => if name ∈ builtinNames then some ⟨name, .builtin, none⟩ else none

/-- The last class whose name spans the given lines, even where the name is bound again. -/
def classAt? (t : SymbolTable) (range : LineRange) : Option Symbol :=
  t.declarations.reverse.findSome? (·.classAt? range)

/-- The methods of the last class with this symbol. -/
def members (t : SymbolTable) (s : Symbol) : List Symbol :=
  (t.declarations.reverse.findSome? (·.methodsOf? s)).getD []

end SymbolTable

end AppManifest
