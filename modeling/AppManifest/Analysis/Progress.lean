import AppManifest.Descriptor.Basic
import AppManifest.Diagnostic.Basic
import AppManifest.Syntax.Document

namespace AppManifest

/-- Why the analysis of a declaration ends early.

A fault ends the whole run; a rejection abandons the declaration that it is about. -/
inductive Halt
  | fault (f : Fault)
  | rejected (d : Diagnostic)

/-- What a run has gathered so far. -/
structure Progress where
  host : HostSettings
  /-- The names given to functions, the latest first. -/
  names : List String
  log : Log

def Progress.note (p : Progress) (d : Diagnostic) : Progress :=
  { p with log := p.log ++ [d] }

/-- A step of the analysis. What it gathered stays where it ends early. -/
abbrev Analysis := ExceptT Halt (StateM Progress)

instance : MonadLift (Except Fault) (Except Halt) where
  monadLift x := x.mapError Halt.fault

instance : MonadLift (Except Halt) Analysis where
  monadLift x := ExceptT.mk (pure x)

namespace Analysis

def note (d : Diagnostic) : Analysis Unit :=
  modify (·.note d)

def noteAll (ds : List Diagnostic) : Analysis Unit :=
  modify fun p => { p with log := p.log ++ ds }

/-- Analyzes one declaration; where it is rejected, its diagnostic is reported. -/
def attempt (x : Analysis α) : Analysis (Option α) :=
  ExceptT.mk do
    match ← x.run with
    | .ok a => return .ok (some a)
    | .error (.rejected d) =>
      modify (·.note d)
      return .ok none
    | .error (.fault f) => return .error (.fault f)

end Analysis

end AppManifest
