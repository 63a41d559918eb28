import AppManifest.Descriptor.Basic
import AppManifest.Json.Basic
import AppManifest.Location
import AppManifest.Text.Integer

namespace AppManifest

/-- What is wrong with a value. -/
inductive ComplaintKind
  | missing
  | modelType
  | stringType
  | listType
  | intType
  | intParsing
  | intParsingSize
  | intFromFloat
  | finiteNumber
  deriving DecidableEq, Repr

def ComplaintKind.name : ComplaintKind → String
  | missing => "missing"
  | modelType => "model_type"
  | stringType => "string_type"
  | listType => "list_type"
  | intType => "int_type"
  | intParsing => "int_parsing"
  | intParsingSize => "int_parsing_size"
  | intFromFloat => "int_from_float"
  | finiteNumber => "finite_number"

/-- A step into a value: to a member or to an item. -/
inductive Step
  | member (key : String)
  | item (index : Nat)
  deriving DecidableEq, Repr

/-- Something wrong, and the way to it from the outside in. -/
structure Complaint where
  place : List Step
  kind : ComplaintKind
  deriving DecidableEq, Repr

/-- A value that has been read, or everything that is wrong with its text. -/
inductive Checked (α : Type)
  | valid (value : α)
  | invalid (complaints : List Complaint)

namespace Checked

def map (f : α → β) : Checked α → Checked β
  | valid a => valid (f a)
  | invalid cs => invalid cs

/-- Reads two parts, keeping the complaints about both. -/
def seq (f : Checked (α → β)) (x : Checked α) : Checked β :=
  match f, x with
  | valid f, valid a => valid (f a)
  | valid _, invalid cs => invalid cs
  | invalid cs, valid _ => invalid cs
  | invalid cs, invalid ds => invalid (cs ++ ds)

instance : Applicative Checked where
  map := map
  pure := valid
  seq f x := seq f (x ())

def fail (kind : ComplaintKind) : Checked α :=
  invalid [⟨[], kind⟩]

/-- Moves the complaints about a part to the whole. -/
def under (step : Step) : Checked α → Checked α
  | valid a => valid a
  | invalid cs => invalid (cs.map fun c => { c with place := step :: c.place })

end Checked

abbrev Decoder (α : Type) := Json → Checked α

namespace Decoder

def string : Decoder String
  | .str s => .valid s
  | _ => .fail .stringType

/-- The integer that a stored number is; it must fit into 64 bits. -/
def wholeNumber : Binary64 → Checked Int
  | .infinite _ => .fail .finiteNumber
  | .nan => .fail .finiteNumber
  | x => match x.toInt? with
    | none => .fail .intFromFloat
    | some n => if n.natAbs < Nat.pow 2 63 then .valid n else .fail .intParsingSize

def integer : Decoder Int
  | .int n => .valid n
  | .bool b => .valid (if b then 1 else 0)
  | .decimal x => wholeNumber (.ofDecimal x)
  | .infinity negative => wholeNumber (.infinite negative)
  | .notANumber => wholeNumber .nan
  | .str s => match Text.integer? s.toList with
    | .ok n => .valid n
    | .error .malformed => .fail .intParsing
    | .error .tooLong => .fail .intParsingSize
  | _ => .fail .intType

/-- Null stands for no value. -/
def nullable (decode : Decoder α) : Decoder (Option α)
  | .null => .valid none
  | j => (decode j).map some

/-- Reads items from an index on, keeping the complaints about all of them. -/
def items (decode : Decoder α) (index : Nat) : List Json → Checked (List α)
  | [] => .valid []
  | j :: js => List.cons <$> (decode j).under (.item index) <*> items decode (index + 1) js

def list (decode : Decoder α) : Decoder (List α)
  | .arr js => items decode 0 js
  | _ => .fail .listType

def object (decode : List (String × Json) → Checked α) : Decoder α
  | .obj members => decode members
  | _ => .fail .modelType

def required (key : String) (decode : Decoder α) (members : List (String × Json)) : Checked α :=
  match members.lookup key with
  | some j => (decode j).under (.member key)
  | none => .under (.member key) (.fail .missing)

/-- A member with a value of its own where it is absent. -/
def defaulted (key : String) (absent : α) (decode : Decoder α) (members : List (String × Json)) :
    Checked α :=
  match members.lookup key with
  | some j => (decode j).under (.member key)
  | none => .valid absent

/-- An optional member under either of two keys, the first of which wins. -/
def aliased (first second : String) (decode : Decoder α) (members : List (String × Json)) :
    Checked (Option α) :=
  match members.lookup first <|> members.lookup second with
  | some j => (nullable decode j).under (.member first)
  | none => .valid none

end Decoder

open Decoder

def LinePosition.decode : Decoder LinePosition :=
  object fun ms => mk <$> required "line" integer ms <*> required "offset" integer ms

def LineRange.decode : Decoder LineRange :=
  object fun ms =>
    mk <$> required "start" LinePosition.decode ms <*> required "end" LinePosition.decode ms

def SourceLocation.decode : Decoder SourceLocation :=
  object fun ms =>
    mk <$> required "path" string ms
      <*> required "line_range" LineRange.decode ms
      <*> required "start_byte" integer ms
      <*> required "end_byte" integer ms

def Binding.decode : Decoder Binding :=
  object fun ms =>
    mk <$> required "type" string ms
      <*> required "direction" string ms
      <*> required "name" string ms
      <*> aliased "authLevel" "auth_level" string ms
      <*> aliased "methods" "methods" (list string) ms
      <*> aliased "route" "route" string ms
      <*> aliased "queueName" "queue_name" string ms
      <*> aliased "connection" "connection" string ms
      <*> aliased "schedule" "schedule" string ms
      <*> aliased "path" "path" string ms
      <*> aliased "dataType" "data_type" string ms

def FunctionDescriptor.decode : Decoder FunctionDescriptor :=
  object fun ms =>
    mk <$> required "name" string ms
      <*> required "service" string ms
      <*> required "handler" string ms
      <*> required "bindings" (list Binding.decode) ms

def HostSettings.decode : Decoder HostSettings :=
  object fun ms =>
    mk <$> required "handler_executable" string ms
      <*> defaulted "extension_bundle_version" defaultBundleVersion string ms
      <*> defaulted "queue_batch_size" none (nullable integer) ms
      <*> defaulted "queue_max_dequeue_count" none (nullable integer) ms

def FunctionApp.decode : Decoder FunctionApp :=
  object fun ms =>
    mk <$> required "host" HostSettings.decode ms
      <*> defaulted "functions" [] (list FunctionDescriptor.decode) ms

end AppManifest
