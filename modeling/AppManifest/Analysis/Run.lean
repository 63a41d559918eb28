import AppManifest.Analysis.Service

namespace AppManifest

/-- What the analysis of a document reports and, where it comes to an end, the app it finds. -/
structure Outcome where
  log : Log
  result : Except Fault FunctionApp

/-- The host settings before any service has supplied one. -/
def Settings.host (s : Settings) : HostSettings where
  handlerExecutable := s.handlerExecutable
  extensionBundleVersion := s.extensionBundleVersion

/-- Analyzes a document, appending to the diagnostics of a log.

The names of the whole module are collected before the first service is looked at. -/
def Document.analyzeInto (log : Log) (d : Document) (settings : Settings) : Outcome :=
  match SymbolTable.ofDocument d with
  | .error f => ⟨log, .error f⟩
  | .ok symbols =>
    let scope : Scope := ⟨d, settings, symbols⟩
    match (scope.analyzeStatements d.root.children).run.run ⟨settings.host, [], log⟩ with
    | (.ok functions, p) => ⟨p.log, .ok ⟨p.host, functions⟩⟩
    | (.error (.fault f), p) => ⟨p.log, .error f⟩
    | (.error (.rejected d), p) => ⟨p.log ++ [d], .ok ⟨p.host, []⟩⟩

def Document.analyze (d : Document) (settings : Settings) : Outcome :=
  d.analyzeInto [] settings

end AppManifest
