namespace AppManifest.Console

structure OptionSpec (α : Type) where
  /-- The spellings, two hyphens before a word and one before a letter. -/
  names : List String
  key : α
  takesValue : Bool

structure Given (α : Type) where
  key : α
  value : String := ""

/-- The options given in one argument. The last may still need the next argument as its value. -/
structure Given.Run (α : Type) where
  given : List (Given α)
  pending : Option α := none

/-- What arguments come to: the options, and the other arguments in order. -/
structure Arguments (α : Type) where
  options : List (Given α)
  positional : List String

variable {α : Type}

def findOption (specs : List (OptionSpec α)) (name : String) : Option (OptionSpec α) :=
  specs.find? fun s => name ∈ s.names

/-- An argument that begins with two hyphens: a name, and a value after an equals sign. -/
def longOption (specs : List (OptionSpec α)) (argument : List Char) : Option (Given.Run α) := do
  let name := String.ofList (argument.takeWhile (· != '='))
  let spec ← findOption specs name
  match argument.dropWhile (· != '='), spec.takesValue with
  | _ :: value, true => some ⟨[⟨spec.key, String.ofList value⟩], none⟩
  | _ :: _, false => none
  | [], true => some ⟨[], some spec.key⟩
  | [], false => some ⟨[⟨spec.key, ""⟩], none⟩

/-- Letters after one hyphen. The first that takes a value takes the rest of them. -/
def shortOptions (specs : List (OptionSpec α)) : List Char → Option (Given.Run α)
  | [] => some ⟨[], none⟩
  | c :: rest =>
    match findOption specs (String.ofList ['-', c]) with
    | none => none
    | some spec =>
      if spec.takesValue then
        if rest.isEmpty then some ⟨[], some spec.key⟩
        else some ⟨[⟨spec.key, String.ofList rest⟩], none⟩
      else
        (shortOptions specs rest).map fun run => { run with given := ⟨spec.key, ""⟩ :: run.given }

def optionRun (specs : List (OptionSpec α)) : List Char → Option (Given.Run α)
  | '-' :: '-' :: name => longOption specs ('-' :: '-' :: name)
  | _ :: letters => shortOptions specs letters
  | [] => none

/-- Whether an argument gives options; a lone hyphen does not. -/
def isOption (argument : String) : Bool :=
  match argument.toList with
  | '-' :: _ :: _ => true
  | _ => false

namespace Arguments

/-- Reads arguments. Two hyphens end the options; unless mixed, so does the first other argument.
Fails on an unknown option and on a value too few or too many. -/
def parse (specs : List (OptionSpec α)) (mixed : Bool) : List String → Option (Arguments α)
  | [] => some ⟨[], []⟩
  | argument :: rest =>
    if argument = "--" then some ⟨[], rest⟩
    else if isOption argument then
      match optionRun specs argument.toList with
      | none => none
      | some ⟨given, none⟩ =>
        (parse specs mixed rest).map fun a => { a with options := given ++ a.options }
      | some ⟨given, some key⟩ =>
        match rest with
        | [] => none
        | value :: rest =>
          (parse specs mixed rest).map fun a =>
            { a with options := given ++ ⟨key, value⟩ :: a.options }
    else if mixed then
      (parse specs mixed rest).map fun a => { a with positional := argument :: a.positional }
    else some ⟨[], argument :: rest⟩

def last? [DecidableEq α] (a : Arguments α) (key : α) : Option String :=
  (a.options.reverse.find? fun g => g.key = key).map Given.value

end Arguments

end AppManifest.Console
