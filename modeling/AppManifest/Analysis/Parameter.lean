import AppManifest.Analysis.Scope

namespace AppManifest

/-- How a function declares one of its parameters. -/
inductive ParameterForm
  | bare
  | withDefault
  | typed
  deriving DecidableEq, Repr

/-- The form of the parameter that a node of a kind declares, where it declares one. -/
def ParameterForm.ofKind? : SyntaxKind → Option ParameterForm
  | .identifier => some bare
  | .defaultParameter => some withDefault
  | .typedParameter => some typed
  | .typedDefaultParameter => some typed
  | _ => none

structure Parameter where
  form : ParameterForm
  node : Node

namespace Scope

def parameter? (c : Scope) (child : Node) : Except Fault (Option Parameter) := do
  return (ParameterForm.ofKind? (← c.document.kind child)).map fun form => ⟨form, child⟩

/-- The symbol that the first identifier of a type names. -/
def typeSymbol? (c : Scope) (type : Node) : Except Fault (Option Symbol) := do
  match ← c.document.firstIdentifier? type with
  | some token => return c.symbols.lookup? (← c.document.text token)
  | none => return none

/-- Whether a symbol is a built-in parameter type or a class of the module. -/
def isParameterType (c : Scope) (symbol : Symbol) : Except Fault Bool := do
  if symbol.location = none then return symbol.name ∈ parameterBuiltins
  else
    match c.document.locate? symbol with
    | some declaration => return (← c.document.kind declaration) = .classDefinition
    | none => return false

def supportsType (c : Scope) (type : Node) : Except Fault Bool := do
  match ← c.typeSymbol? type with
  | some symbol => c.isParameterType symbol
  | none => return false

/-- Accepts a type that names a built-in parameter type or a class of the module. -/
def checkType (c : Scope) (type : Node) : Except Halt Unit := do
  if ← c.supportsType type then return ()
  else c.reject type (.unsupportedParameterType (← c.document.text type))

def checkParameter (c : Scope) (p : Parameter) : Except Halt Unit := do
  match p.form with
  | .bare => c.reject p.node (.missingParameterType (← c.document.text p.node))
  | .withDefault =>
    let name := (p.node.field? "name").getD p.node
    c.reject p.node (.missingParameterType (← c.document.text name))
  | .typed =>
    match p.node.field? "type" with
    | some type => c.checkType type
    | none => return ()

/-- The parameters that need a type: all but a first bare `self` or `cls`. -/
def typedParameters (c : Scope) : List Parameter → Except Fault (List Parameter)
  | [] => return []
  | first :: rest => do
    if first.form = .bare ∧ (← c.document.text first.node) ∈ ["self", "cls"] then return rest
    else return first :: rest

def parametersOf (c : Scope) (list : Node) : Except Fault (List Parameter) := do
  c.typedParameters (← list.children.filterMapM c.parameter?)

def checkParameters (c : Scope) (function : Node) : Except Halt Unit := do
  match function.field? "parameters" with
  | none => return ()
  | some list =>
    (← c.parametersOf list).forM c.checkParameter

end Scope

end AppManifest
