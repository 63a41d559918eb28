import AppManifest.Proofs.Analysis.Confinement
import AppManifest.Proofs.Syntax.Decoding

namespace AppManifest
set_option autoImplicit true

/-! Documents that can be read are analyzed to the end, whatever their markers say. -/

theorem Finding.create_diagnostic (f : Finding) (location : SourceLocation) :
    Diagnostic.create f.code location f.arguments f.properties = .ok (f.diagnostic location) := by
  rw [Diagnostic.create, f.render_arguments]
  rfl

namespace Document

variable {d : Document}

theorem analyzeInto_of_fault (ht : SymbolTable.ofDocument d = .ok symbols)
    (h : (Scope.analyzeStatements ⟨d, settings, symbols⟩ d.root.children).Ends
      (Scope.start ⟨d, settings, symbols⟩ log) (.error (.fault f)) p) :
    d.analyzeInto log settings = ⟨p.log, .error f⟩ := by
  unfold Analysis.Ends Scope.start at h
  unfold analyzeInto
  rw [ht]
  dsimp only
  rw [h]

theorem Readable.exists_symbols (hd : d.Readable) :
    ∃ symbols, SymbolTable.ofDocument d = .ok symbols :=
  ((hd.part (F := fun _ => False) id).ofDocument fun _ hc => d.has_root.child hc).exists_ok

theorem Readable.exists_services (hd : d.Readable) :
    ∃ services, d.serviceDeclarations d.root = .ok services := by
  have hstatement : ∀ statement ∈ d.root.children, _ := fun statement hst =>
    (hd.part (F := fun _ => False) id).serviceDeclaration? (d.has_root.child hst)
  exact (Yields.filterMapM hstatement).exists_ok

theorem Readable.scopePart (hd : d.Readable) (hF : F .emptyDecorator → F .emptyServiceDecorator)
    (settings : Settings) (symbols : SymbolTable) :
    Scope.Part ⟨d, settings, symbols⟩ d.Has F where
  toMarkerPart := hd.part hF
  located _ _ n hn := by
    obtain ⟨k, hk⟩ := hd.kind (has_of_locate? hn)
    rw [hk]
    exact .pure trivial

/-- Of all faults the run over the statements meets only one, over what a service says. -/
theorem Readable.stays (hd : d.Readable) (hs : d.serviceDeclarations d.root = .ok services)
    (settings : Settings) (symbols : SymbolTable) :
    Scope.Stays ⟨d, settings, symbols⟩ d.Has
      (fun f => f = .oversizedNumeral ∧
        ∃ s ∈ services, ∃ setting, Scope.Oversizes ⟨d, settings, symbols⟩ s setting)
      (fun _ => True) (Scope.analyzeStatements ⟨d, settings, symbols⟩ d.root.children) := by
  refine Scope.stays_analyzeStatements (hd.scopePart nofun settings symbols)
    (fun _ hst => d.has_root.child hst) ?_ ?_
  · intro statement hst s hdecl setting ho
    exact ⟨rfl, s, (mem_of_filterMapM_eq_ok hs).2 ⟨statement, hst, hdecl⟩, setting, ho⟩
  · intro definition _ symbol _ n hn _
    exact ⟨has_of_locate? hn, fun l hl => (has_of_locate? hn).parent hl⟩

/-- The analysis of a readable document ends with an app, unless a queue service says a number that
is too long to be read. Either way it only adds to the log, and each diagnostic is made of arguments
that fit its template and points to a node of the document. -/
theorem analysis_returns (hd : d.Readable) (log : Log) (settings : Settings) :
    ∃ notes result symbols services, d.analyzeInto log settings = ⟨log ++ notes, result⟩ ∧
      (∀ note ∈ notes, ∃ n, d.Has n ∧ ∃ f : Finding,
        Diagnostic.create f.code (d.location n) f.arguments f.properties = .ok note) ∧
      SymbolTable.ofDocument d = .ok symbols ∧ d.serviceDeclarations d.root = .ok services ∧
      ((∃ app, result = .ok app) ↔
        ¬∃ s ∈ services, ∃ setting, Scope.Oversizes ⟨d, settings, symbols⟩ s setting) ∧
      ∀ f, result = .error f → f = .oversizedNumeral := by
  obtain ⟨symbols, ht⟩ := hd.exists_symbols
  obtain ⟨services, hs⟩ := hd.exists_services
  obtain ⟨r, p, h⟩ := (Scope.analyzeStatements ⟨d, settings, symbols⟩ d.root.children).exists_ends
    (Scope.start ⟨d, settings, symbols⟩ log)
  have hstays := hd.stays hs settings symbols
  obtain ⟨notes, hlog, hnotes⟩ := hstays.log _ _ _ h
  have hlog : p.log = log ++ notes := hlog
  have hfit : ∀ note ∈ notes, ∃ n, d.Has n ∧ ∃ f : Finding,
      Diagnostic.create f.code (d.location n) f.arguments f.properties = .ok note := by
    intro note hnote
    obtain ⟨n, f, hn, rfl⟩ := hnotes note hnote
    exact ⟨n, hn, f, f.create_diagnostic _⟩
  cases r with
  | ok functions =>
    have hrun := analyzeInto_ok.2 ⟨symbols, functions, p, ht, h, rfl, rfl⟩
    rw [hlog] at hrun
    refine ⟨notes, _, symbols, services, hrun, hfit, ht, hs, iff_of_true ⟨_, rfl⟩ ?_, ?_⟩
    · intro hover
      obtain ⟨s, hmem, setting, ho⟩ := hover
      obtain ⟨statement, hst, hdecl⟩ := (mem_of_filterMapM_eq_ok hs).1 hmem
      exact Scope.statements_of_oversizes (c := ⟨d, settings, symbols⟩) hst hdecl ho h
    · intro f hf
      cases hf
  | error e =>
    obtain ⟨f, rfl⟩ := Scope.analyzeStatements_error h
    obtain ⟨rfl, hover⟩ := hstays.fault h
    have hrun := analyzeInto_of_fault ht h
    rw [hlog] at hrun
    refine ⟨notes, _, symbols, services, hrun, hfit, ht, hs, iff_of_false ?_ ?_, ?_⟩
    · intro hok
      obtain ⟨app, hok⟩ := hok
      cases hok
    · exact fun hno => hno hover
    · intro f hf
      exact (Except.error.inj hf).symm

/-- The service with two methods of one name is analyzed to the end, with a diagnostic for one. -/
theorem analysis_returns_twoTicks : twoTicks.Readable ∧
    ∃ note app symbols services, twoTicks.analyzeInto [] {} = ⟨[note], .ok app⟩ ∧
      (∃ n, twoTicks.Has n ∧ ∃ f : Finding,
        Diagnostic.create f.code (twoTicks.location n) f.arguments f.properties = .ok note) ∧
      SymbolTable.ofDocument twoTicks = .ok symbols ∧
      twoTicks.serviceDeclarations twoTicks.root = .ok services ∧
      ¬∃ s ∈ services, ∃ setting, Scope.Oversizes ⟨twoTicks, {}, symbols⟩ s setting := by
  obtain ⟨notes, result, symbols, services, h, hnotes, ht, hs, hover, -⟩ :=
    analysis_returns readable_twoTicks [] {}
  obtain ⟨log, app, hrun, hlog, -⟩ := analyze_twoTicks
  cases h.symm.trans hrun
  obtain ⟨note, rfl, -⟩ := List.map_eq_singleton_iff.1 hlog
  exact ⟨readable_twoTicks, note, app, symbols, services, hrun,
    hnotes note List.mem_cons_self, ht, hs, hover.1 ⟨app, rfl⟩⟩

end Document

end AppManifest
