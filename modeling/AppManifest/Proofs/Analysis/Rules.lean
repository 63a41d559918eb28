import AppManifest.Analysis.Service
import AppManifest.Proofs.Analysis.FunctionName
import AppManifest.Proofs.Syntax.Members

namespace AppManifest
set_option autoImplicit true

/-! The rules that a service and its methods have to keep, said without the order in which they
are checked. -/

namespace Document

/-- A field gives a plain string without its quotes, or a decimal integer as it is written. -/
inductive Gives (d : Document) (f : MarkerField) : String → Prop
  | string (hv : f.value = some n) (hk : d.kind n = .ok .stringLiteral)
      (ht : d.text n = .ok t) : Gives d f (withoutDelimiters t)
  | integer (hv : f.value = some n) (hk : d.kind n = .ok .decimalIntegerLiteral)
      (ht : d.text n = .ok t) : Gives d f t

/-- The first field of a name is present and literal. -/
def HasValue (d : Document) (a : Marker) (name value : String) : Prop :=
  ∃ f, a.field? name = some f ∧ d.Gives f value

/-- The first field of a name is literal, or there is none. -/
inductive MayHaveValue (d : Document) (a : Marker) (name : String) : Option String → Prop
  | absent (h : a.field? name = none) : MayHaveValue d a name none
  | present (h : d.HasValue a name value) : MayHaveValue d a name (some value)

/-- What a segment adds to a path: a string its inside, a slash or an identifier its text. -/
inductive Contributes (d : Document) (n : Node) : String → Prop
  | string (hk : d.kind n = .ok .stringLiteral) (ht : d.text n = .ok t) :
      Contributes d n (withoutDelimiters t)
  | slash (hk : d.kind n = .ok .slashToken) (ht : d.text n = .ok t) : Contributes d n t
  | identifier (hk : d.kind n = .ok .identifier) (ht : d.text n = .ok t) :
      Contributes d n t

/-- The texts that segments add to a path. A strict reading wants one of each segment. -/
inductive Spells (d : Document) (strict : Bool) : List Node → List String → Prop
  | nil : Spells d strict [] []
  | part (h : d.Contributes n t) (hs : Spells d strict ns ts) :
      Spells d strict (n :: ns) (t :: ts)
  | other (hk : d.kind n = .ok k)
      (ho : k ≠ .stringLiteral ∧ k ≠ .slashToken ∧ k ≠ .identifier) (hl : strict = false)
      (hs : Spells d strict ns ts) : Spells d strict (n :: ns) ts

/-- The path that a field spells, if there is the field. -/
inductive HasPath (d : Document) (strict : Bool) (a : Marker) (name : String) : String → Prop
  | absent (h : a.field? name = none) : HasPath d strict a name ""
  | present (h : a.field? name = some f) (hv : f.value = some n)
      (hs : d.segments n = .ok parts) (ht : d.Spells strict parts ts) :
      HasPath d strict a name (withoutLeadingSlash (String.join ts))

end Document

/-- Decimal digits, one of which at least is not zero. -/
def IsPositiveNumeral (value : String) : Prop :=
  (∀ c ∈ value.toList, '0' ≤ c ∧ c ≤ '9') ∧ ∃ c ∈ value.toList, c ≠ '0'

/-- The fields that an output marker cannot do without. -/
def OutputKind.required : OutputKind → List String
  | queue => ["queue_name", "connection"]
  | blob => ["path", "connection"]

namespace Scope

/-- A field that, if it is there, is a positive number. -/
def MayBePositive (c : Scope) (a : Marker) (name : String) : Prop :=
  ∃ given, c.document.MayHaveValue a name given ∧ ∀ value ∈ given, IsPositiveNumeral value

/-- What a service marker has to say, by the kind of the service. -/
inductive HasSettings (c : Scope) (a : Marker) : ServiceKind → ServiceSettings → Prop
  | http (hg : c.document.MayHaveValue a "auth_level" given)
      (hl : level = (given.filter (· ≠ "")).getD c.settings.defaultAuthLevel)
      (ha : level = "anonymous" ∨ level = "function" ∨ level = "admin")
      (hp : c.document.HasPath c.settings.strictPaths a "base_path" route) :
      HasSettings c a .http (.http route level)
  | queue (hq : c.document.HasValue a "queue_name" queueName)
      (hc : c.document.HasValue a "connection" connection)
      (hb : c.MayBePositive a "batch_size") (hm : c.MayBePositive a "max_dequeue_count") :
      HasSettings c a .queue (.queue queueName connection)
  | timer (hs : c.document.HasValue a "schedule" schedule)
      (hw : (Text.words schedule.toList).length = 6) : HasSettings c a .timer (.timer schedule)

/-- A declaration makes a service: it has one service marker, and that keeps the rules. -/
structure MakesService (c : Scope) (s : ServiceDeclaration) (service : Service) : Prop where
  named : c.document.IsNamed s.definition service.className
  single : s.moreServices = []
  settings : c.HasSettings s.service s.kind service.settings

/-- The first identifier of a type names a class of the module, or a built-in parameter type that
the module does not bind. -/
def NamesParameterType (c : Scope) (type : Node) : Prop :=
  ∃ token name s, c.document.firstIdentifier? type = .ok (some token) ∧
    c.document.text token = .ok name ∧ c.symbols.lookup? name = some s ∧
    (s.kind = .classType ∨ s.kind = .builtin ∧ name ∈ parameterBuiltins)

def IsTyped (c : Scope) (p : Parameter) : Prop :=
  p.form = .typed ∧ ∃ type, p.node.field? "type" = some type ∧ c.NamesParameterType type

/-- A bare `self` or `cls`. -/
def IsReceiver (c : Scope) (p : Parameter) : Prop :=
  p.form = .bare ∧ ∃ name, c.document.text p.node = .ok name ∧ (name = "self" ∨ name = "cls")

/-- All parameters are typed; the first one may be a receiver instead. -/
def AreTyped (c : Scope) : List Parameter → Prop
  | [] => True
  | first :: rest => (c.IsReceiver first ∨ c.IsTyped first) ∧ ∀ p ∈ rest, c.IsTyped p

/-- The children of a node that declare parameters, in order. -/
def Declared (c : Scope) (list : Node) (declared : List Parameter) : Prop :=
  list.children.filterMapM c.parameter? = .ok declared

def HasTypedParameters (c : Scope) (function : Node) : Prop :=
  ∀ list, function.field? "parameters" = some list →
    ∃ declared, c.Declared list declared ∧ c.AreTyped declared

/-- What a trigger has to say, by the settings of its service, and the name that the function has
if it asks for none. -/
inductive HasDefaultName (c : Scope) (className methodName : String) (m : TriggerMethod) :
    ServiceSettings → String → Prop
  | http (hm : c.document.HasValue m.trigger "method" given) (hl : method = Text.lower given)
      (ha : method ∈ concreteMethods ∨ method = "default")
      (hp : c.document.HasPath c.settings.strictPaths m.trigger "path" path)
      (ht : c.HasTypedParameters m.node) :
      HasDefaultName c className methodName m (.http base level)
        (defaultHttpName method (joinRoute [base, path]))
  | queue : HasDefaultName c className methodName m (.queue queueName connection)
      (className ++ "-" ++ methodName)
  | timer : HasDefaultName c className methodName m (.timer schedule)
      (className ++ "-" ++ methodName)

/-- A method has at most one output marker, with all that the marker cannot do without. -/
def HasOutput (c : Scope) (m : TriggerMethod) : Prop :=
  m.outputs = [] ∨ ∃ kind output, m.outputs = [(kind, output)] ∧
    ∀ name ∈ kind.required, ∃ value, c.document.HasValue output name value

/-- A method makes a function of a name, as far as no other function has that name. -/
structure MakesFunction (c : Scope) (service : Service) (m : TriggerMethod) (name : String) :
    Prop where
  single : m.moreTriggers = []
  fits : m.trigger.name = service.settings.kind.trigger
  output : c.HasOutput m
  named : ∃ methodName fallback given, c.document.IsNamed m.node methodName ∧
    c.HasDefaultName service.className methodName m service.settings fallback ∧
    c.document.MayHaveValue m.trigger "name" given ∧ name = given.getD fallback
  valid : IsFunctionName name

end Scope

end AppManifest
