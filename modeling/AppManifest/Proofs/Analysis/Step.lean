import AppManifest.Analysis.Run
import AppManifest.Proofs.Analysis.Conduct
import AppManifest.Proofs.Syntax.Declaration

namespace AppManifest
set_option autoImplicit true

/-! What the analysis of a method, of a service and of a statement can come to. -/

namespace Scope

open Analysis

variable {c : Scope} {m : TriggerMethod} {service : Service} {p q : Progress}

/-- A name is given where it is valid and new; else nothing changes. -/
theorem run_assignName (c : Scope) (m : TriggerMethod) (fallback : String) (p : Progress) :
    ((c.assignName m fallback).run.run p : Except Halt String × Progress) =
      match c.optional m.trigger "name" with
      | .error h => (.error h, p)
      | .ok explicit =>
        if isFunctionName (explicit.getD fallback) = false then
          (c.reject (nameAnchor m explicit) (.invalidFunctionName (explicit.getD fallback)), p)
        else if explicit.getD fallback ∈ p.names then
          (c.reject (nameAnchor m explicit) (.duplicateFunctionName (explicit.getD fallback)), p)
        else
          (.ok (explicit.getD fallback),
            { p with names := explicit.getD fallback :: p.names }) := by
  cases he : c.optional m.trigger "name" with
  | error h => exact (ends_bind_of_error (ends_lift.2 ⟨he, rfl⟩)).2 ⟨rfl, rfl⟩
  | ok explicit =>
    dsimp only
    by_cases hv : isFunctionName (explicit.getD fallback) = false
    · rw [if_pos hv]
      refine (ends_bind_of_ok (ends_lift.2 ⟨he, rfl⟩)).2 ?_
      simp only [hv, Bool.not_false, ↓reduceIte]
      exact ends_lift.2 ⟨rfl, rfl⟩
    · rw [if_neg hv]
      rw [Bool.not_eq_false] at hv
      by_cases hn : explicit.getD fallback ∈ p.names
      · rw [if_pos hn]
        refine (ends_bind_of_ok (ends_lift.2 ⟨he, rfl⟩)).2 ?_
        simp only [hv, Bool.not_true, Bool.false_eq_true, ↓reduceIte]
        refine (ends_bind_of_ok (ends_get.2 ⟨rfl, rfl⟩)).2 ?_
        rw [if_pos hn]
        exact ends_lift.2 ⟨rfl, rfl⟩
      · rw [if_neg hn]
        refine (ends_bind_of_ok (ends_lift.2 ⟨he, rfl⟩)).2 ?_
        simp only [hv, Bool.not_true, Bool.false_eq_true, ↓reduceIte]
        refine (ends_bind_of_ok (ends_get.2 ⟨rfl, rfl⟩)).2 ?_
        rw [if_neg hn]
        exact (ends_bind_of_ok (ends_modify.2 ⟨rfl, rfl⟩)).2 (ends_pure.2 ⟨rfl, rfl⟩)

theorem assignName_ok (h : (c.assignName m fallback).Ends p (.ok name) q) :
    (∃ explicit, c.optional m.trigger "name" = .ok explicit ∧ name = explicit.getD fallback) ∧
      isFunctionName name = true ∧ name ∉ p.names ∧ q = { p with names := name :: p.names } := by
  unfold Ends at h
  rw [run_assignName] at h
  split at h
  next => cases h
  next explicit he =>
    split at h
    next => cases h
    next hv =>
      split at h
      next => cases h
      next hn =>
        cases h
        exact ⟨⟨explicit, he, rfl⟩, by simpa using hv, hn, rfl⟩

theorem assignName_of_fresh (he : c.optional m.trigger "name" = .ok explicit)
    (hv : isFunctionName (explicit.getD fallback) = true) (hn : explicit.getD fallback ∉ p.names) :
    (c.assignName m fallback).Ends p (.ok (explicit.getD fallback))
      { p with names := explicit.getD fallback :: p.names } := by
  unfold Ends
  rw [run_assignName, he]
  simp only [hv, Bool.true_eq_false, ↓reduceIte, if_neg hn]

theorem assignName_of_used (he : c.optional m.trigger "name" = .ok explicit)
    (hv : isFunctionName (explicit.getD fallback) = true) (hn : explicit.getD fallback ∈ p.names) :
    (c.assignName m fallback).Ends p
      (c.reject (nameAnchor m explicit) (.duplicateFunctionName (explicit.getD fallback))) p := by
  unfold Ends
  rw [run_assignName, he]
  simp only [hv, Bool.true_eq_false, ↓reduceIte, if_pos hn]

/-- A method that gets no name leaves the names as they were. -/
theorem assignName_error (h : (c.assignName m fallback).Ends p (.error e) q) :
    q = p ∧ (c.optional m.trigger "name" = .error e ∨
      ∃ explicit, c.optional m.trigger "name" = .ok explicit ∧
        (isFunctionName (explicit.getD fallback) = false ∧
            e = .rejected (c.diagnostic (nameAnchor m explicit)
              (.invalidFunctionName (explicit.getD fallback))) ∨
          isFunctionName (explicit.getD fallback) = true ∧ explicit.getD fallback ∈ p.names ∧
            e = .rejected (c.diagnostic (nameAnchor m explicit)
              (.duplicateFunctionName (explicit.getD fallback))))) := by
  unfold Ends at h
  rw [run_assignName] at h
  split at h
  next he =>
    cases h
    exact ⟨rfl, .inl he⟩
  next explicit he =>
    split at h
    next hv =>
      cases h
      exact ⟨rfl, .inr ⟨explicit, he, .inl ⟨hv, rfl⟩⟩⟩
    next hv =>
      split at h
      next hn =>
        cases h
        exact ⟨rfl, .inr ⟨explicit, he, .inr ⟨by simpa using hv, hn, rfl⟩⟩⟩
      next => cases h

/-- Giving a name rejects over an error only. -/
theorem assignName_rejected (h : (c.assignName m fallback).Ends p (.error (.rejected e)) q) :
    e.isError = true := by
  obtain ⟨-, he | ⟨explicit, -, ⟨-, he⟩ | ⟨-, -, he⟩⟩⟩ := assignName_error h
  · exact (halts_optional c _ _ _ he).1
  · cases he
    rfl
  · cases he
    rfl

theorem propose_ok :
    (c.propose service m).Ends p (.ok proposal) q ↔
      c.single "trigger" m.moreTriggers = .ok () ∧
        m.trigger.name = service.settings.kind.trigger ∧
        c.nameOf m.node = .ok proposal.methodName ∧
        c.draft service m proposal.methodName = .ok proposal.draft ∧
        (c.outputBindings m).Ends { p with log := p.log ++ c.argumentWarnings m.trigger }
          (.ok proposal.outputs) q := by
  unfold propose
  simp only [ends_bind_ok, ends_lift]
  constructor
  · rintro ⟨_, _, ⟨hs, rfl⟩, h⟩
    refine ⟨hs, ?_⟩
    split at h
    next ht =>
      simp only [ends_bind_ok, ends_lift, ends_noteAll, ends_pure] at h
      obtain ⟨_, _, ⟨-, rfl⟩, methodName, _, ⟨hn, rfl⟩, draft, _, ⟨hd, rfl⟩, outputs, _, ho, hp,
        rfl⟩ := h
      cases hp
      exact ⟨ht, hn, hd, ho⟩
    next => cases (ends_lift.1 h).1
  · rintro ⟨hs, ht, hn, hd, ho⟩
    refine ⟨(), p, ⟨hs, rfl⟩, ?_⟩
    rw [if_pos ht]
    simp only [ends_bind_ok, ends_lift, ends_noteAll, ends_pure]
    exact ⟨(), _, ⟨trivial, rfl⟩, _, _, ⟨hn, rfl⟩, _, _, ⟨hd, rfl⟩, _, _, ho, rfl, rfl⟩

theorem analyzeFunction_ok :
    (c.analyzeFunction service m).Ends p (.ok f) q ↔
      ∃ proposal r name r', (c.propose service m).Ends p (.ok proposal) r ∧
        (c.assignName m proposal.draft.defaultName).Ends r (.ok name) r' ∧
        f = ⟨name, service.className, service.className ++ "." ++ proposal.methodName,
          proposal.draft.bindings ++ proposal.outputs⟩ ∧
        q = { r' with log := r'.log ++ c.methodNotes service m proposal.draft name } := by
  unfold analyzeFunction
  simp only [ends_bind_ok, ends_noteAll, ends_pure]
  constructor
  · rintro ⟨proposal, r, hp, name, r', hn, -, _, ⟨-, rfl⟩, hf, rfl⟩
    cases hf
    exact ⟨proposal, r, name, r', hp, hn, rfl, rfl⟩
  · rintro ⟨proposal, r, name, r', hp, hn, rfl, rfl⟩
    exact ⟨proposal, r, hp, name, r', hn, (), _, ⟨trivial, rfl⟩, rfl, rfl⟩

theorem analyzeFunction_error :
    (c.analyzeFunction service m).Ends p (.error e) q ↔
      (c.propose service m).Ends p (.error e) q ∨
        ∃ proposal r, (c.propose service m).Ends p (.ok proposal) r ∧
          (c.assignName m proposal.draft.defaultName).Ends r (.error e) q := by
  unfold analyzeFunction
  simp only [ends_bind_error, ends_noteAll, ends_pure, reduceCtorEq, false_and, and_false,
    exists_false, or_false]

theorem triggerMethod?_eq_ok :
    c.triggerMethod? definition symbol = .ok o ↔
      match c.document.locate? symbol with
      | none => o = none
      | some n => ∃ k, c.document.kind n = .ok k ∧
        if k = .functionDefinition ∧ definition.Encloses n then c.document.triggerMethod? n = .ok o
        else o = none := by
  unfold triggerMethod?
  cases c.document.locate? symbol with
  | none => exact pure_eq_ok.trans eq_comm
  | some n =>
    simp only [bind_eq_ok, lift_eq_ok]
    refine exists_congr fun k => and_congr_right fun _ => ?_
    split
    · exact lift_eq_ok
    · exact pure_eq_ok.trans eq_comm

/-- Looking for a method rejects nothing. -/
theorem triggerMethod?_error (h : c.triggerMethod? definition symbol = .error e) :
    ∃ f, e = .fault f := by
  unfold triggerMethod? at h
  split at h
  next => cases h
  next n hl =>
    rcases bind_eq_error.1 h with h | ⟨k, -, h⟩
    · obtain ⟨f, -, rfl⟩ := lift_eq_error.1 h
      exact ⟨f, rfl⟩
    · split at h
      next =>
        obtain ⟨f, -, rfl⟩ := lift_eq_error.1 h
        exact ⟨f, rfl⟩
      next => cases h

theorem analyzeMethods_nil :
    (c.analyzeMethods service definition []).Ends p (.ok results) q ↔
      results = ⟨[], false⟩ ∧ p = q := by
  rw [analyzeMethods, ends_pure, Except.ok.injEq, eq_comm (a := results)]

theorem analyzeMethods_cons :
    (c.analyzeMethods service definition (symbol :: rest)).Ends p (.ok results) q ↔
      c.triggerMethod? definition symbol = .ok none ∧
          (c.analyzeMethods service definition rest).Ends p (.ok results) q ∨
        ∃ m function? r more, c.triggerMethod? definition symbol = .ok (some m) ∧
          (attempt (c.analyzeFunction service m)).Ends p (.ok function?) r ∧
          (c.analyzeMethods service definition rest).Ends r (.ok more) q ∧
          results = ⟨function?.toList ++ more.functions, true⟩ := by
  rw [analyzeMethods, ends_bind_ok]
  simp only [ends_lift]
  constructor
  · rintro ⟨o, _, ⟨ho, rfl⟩, h⟩
    cases o with
    | none => exact .inl ⟨ho, h⟩
    | some m =>
      obtain ⟨function?, r, hf, h⟩ := ends_bind_ok.1 h
      obtain ⟨more, _, hm, h⟩ := ends_bind_ok.1 h
      obtain ⟨hr, rfl⟩ := ends_pure.1 h
      cases hr
      exact .inr ⟨m, function?, r, more, ho, hf, hm, rfl⟩
  · rintro (⟨ho, h⟩ | ⟨m, function?, r, more, ho, hf, hm, rfl⟩)
    · exact ⟨none, p, ⟨ho, rfl⟩, h⟩
    · refine ⟨some m, p, ⟨ho, rfl⟩, ?_⟩
      exact ends_bind_ok.2 ⟨_, _, hf, ends_bind_ok.2 ⟨_, _, hm, ends_pure.2 ⟨rfl, rfl⟩⟩⟩

/-- The methods of a service end no service: a method that is rejected is passed over. -/
theorem analyzeMethods_error {members : List Symbol}
    (h : (c.analyzeMethods service definition members).Ends p (.error e) q) :
    ∃ f, e = .fault f := by
  induction members generalizing p with
  | nil => cases (ends_pure.1 h).1
  | cons symbol rest ih =>
    rw [analyzeMethods] at h
    rcases ends_bind_error.1 h with h | ⟨o, r, -, h⟩
    · exact triggerMethod?_error (ends_lift.1 h).1
    · cases o with
      | none => exact ih h
      | some m =>
        rcases ends_bind_error.1 h with h | ⟨function?, r', -, h⟩
        · exact attempt_error h
        · rcases ends_bind_error.1 h with h | ⟨_, _, -, h⟩
          · exact ih h
          · cases (ends_pure.1 h).1

theorem service_ok :
    (c.service s).Ends p (.ok service) q ↔
      c.nameOf s.definition = .ok service.className ∧ c.single "service" s.moreServices = .ok () ∧
        (c.serviceSettings s.kind s.service).Ends
          { p with log := p.log ++ c.argumentWarnings s.service } (.ok service.settings) q := by
  unfold Scope.service
  simp only [ends_bind_ok, ends_lift, ends_noteAll, ends_pure]
  constructor
  · rintro ⟨className, _, ⟨hn, rfl⟩, _, _, ⟨hs, rfl⟩, _, _, ⟨-, rfl⟩, settings, _, h, he, rfl⟩
    cases he
    exact ⟨hn, hs, h⟩
  · rintro ⟨hn, hs, h⟩
    exact ⟨_, _, ⟨hn, rfl⟩, (), _, ⟨hs, rfl⟩, (), _, ⟨trivial, rfl⟩, _, _, h, rfl, rfl⟩

theorem analyzeService_ok :
    (c.analyzeService s).Ends p (.ok functions) q ↔
      ∃ service r results r', (c.service s).Ends p (.ok service) r ∧
        (c.analyzeMethods service s.definition (c.methodSymbols s.definition)).Ends r
          (.ok results) r' ∧
        functions = results.functions ∧
        q = { r' with log := r'.log ++ c.serviceNotes s.definition results } := by
  unfold analyzeService
  simp only [ends_bind_ok, ends_noteAll, ends_pure]
  constructor
  · rintro ⟨service, r, hs, results, r', hm, -, _, ⟨-, rfl⟩, hf, rfl⟩
    cases hf
    exact ⟨service, r, results, r', hs, hm, rfl, rfl⟩
  · rintro ⟨service, r, results, r', hs, hm, rfl, rfl⟩
    exact ⟨service, r, hs, results, r', hm, (), _, ⟨trivial, rfl⟩, rfl, rfl⟩

/-- A service is rejected over its own marker only. -/
theorem analyzeService_rejected :
    (c.analyzeService s).Ends p (.error (.rejected e)) q ↔
      (c.service s).Ends p (.error (.rejected e)) q := by
  unfold analyzeService
  rw [ends_bind_error]
  refine or_iff_left ?_
  rintro ⟨service, r, -, h⟩
  rcases ends_bind_error.1 h with h | ⟨results, r', -, h⟩
  · obtain ⟨f, hf⟩ := analyzeMethods_error h
    cases hf
  · rcases ends_bind_error.1 h with h | ⟨_, _, -, h⟩
    · cases (ends_noteAll.1 h).1
    · cases (ends_pure.1 h).1

theorem analyzeStatements_nil :
    (c.analyzeStatements []).Ends p (.ok functions) q ↔ functions = [] ∧ p = q := by
  rw [analyzeStatements, ends_pure, Except.ok.injEq, eq_comm (a := functions)]

theorem analyzeStatements_cons :
    (c.analyzeStatements (statement :: rest)).Ends p (.ok functions) q ↔
      c.document.serviceDeclaration? statement = .ok none ∧
          (c.analyzeStatements rest).Ends p (.ok functions) q ∨
        ∃ s emitted? r more, c.document.serviceDeclaration? statement = .ok (some s) ∧
          (attempt (c.analyzeService s)).Ends p (.ok emitted?) r ∧
          (c.analyzeStatements rest).Ends r (.ok more) q ∧
          functions = emitted?.getD [] ++ more := by
  rw [analyzeStatements, ends_bind_ok]
  simp only [ends_lift, lift_eq_ok]
  constructor
  · rintro ⟨o, _, ⟨ho, rfl⟩, h⟩
    cases o with
    | none => exact .inl ⟨ho, h⟩
    | some s =>
      obtain ⟨emitted?, r, hs, h⟩ := ends_bind_ok.1 h
      obtain ⟨more, _, hm, h⟩ := ends_bind_ok.1 h
      obtain ⟨hr, rfl⟩ := ends_pure.1 h
      cases hr
      exact .inr ⟨s, emitted?, r, more, ho, hs, hm, rfl⟩
  · rintro (⟨ho, h⟩ | ⟨s, emitted?, r, more, ho, hs, hm, rfl⟩)
    · exact ⟨none, p, ⟨ho, rfl⟩, h⟩
    · refine ⟨some s, p, ⟨ho, rfl⟩, ?_⟩
      exact ends_bind_ok.2 ⟨_, _, hs, ends_bind_ok.2 ⟨_, _, hm, ends_pure.2 ⟨rfl, rfl⟩⟩⟩

/-- A module is never rejected as a whole. -/
theorem analyzeStatements_error (h : (c.analyzeStatements statements).Ends p (.error e) q) :
    ∃ f, e = .fault f := by
  induction statements generalizing p with
  | nil => cases (ends_pure.1 h).1
  | cons statement rest ih =>
    rw [analyzeStatements] at h
    rcases ends_bind_error.1 h with h | ⟨o, r, -, h⟩
    · obtain ⟨f, -, rfl⟩ := lift_eq_error.1 (ends_lift.1 h).1
      exact ⟨f, rfl⟩
    · cases o with
      | none => exact ih h
      | some s =>
        rcases ends_bind_error.1 h with h | ⟨_, r', -, h⟩
        · exact attempt_error h
        · rcases ends_bind_error.1 h with h | ⟨_, _, -, h⟩
          · exact ih h
          · cases (ends_pure.1 h).1

/-- Where the analysis of a module starts. -/
def start (c : Scope) (log : Log) : Progress := ⟨c.settings.host, [], log⟩

end Scope

/-- A run that returns an app has gone through every statement of the module. -/
theorem Document.analyzeInto_ok {d : Document} :
    d.analyzeInto log settings = ⟨log', .ok app⟩ ↔
      ∃ symbols functions p, SymbolTable.ofDocument d = .ok symbols ∧
        (Scope.analyzeStatements ⟨d, settings, symbols⟩ d.root.children).Ends
          (Scope.start ⟨d, settings, symbols⟩ log) (.ok functions) p ∧
        log' = p.log ∧ app = ⟨p.host, functions⟩ := by
  unfold analyzeInto
  cases ht : SymbolTable.ofDocument d with
  | error f => simp
  | ok symbols =>
    simp only [Except.ok.injEq, exists_and_left, exists_eq_left']
    obtain ⟨r, p, h⟩ := (Scope.analyzeStatements ⟨d, settings, symbols⟩ d.root.children).exists_ends
      (Scope.start ⟨d, settings, symbols⟩ log)
    have hrun := h
    unfold Analysis.Ends Scope.start at hrun
    rw [hrun]
    cases r with
    | error e =>
      obtain ⟨f, rfl⟩ := Scope.analyzeStatements_error h
      constructor
      · intro he
        cases he
      · rintro ⟨functions, q, h', -, -⟩
        cases (h.unique h').1
    | ok functions =>
      constructor
      · intro he
        cases he
        exact ⟨functions, p, h, rfl, rfl⟩
      · rintro ⟨functions', q, h', rfl, rfl⟩
        obtain ⟨hf, rfl⟩ := h.unique h'
        cases hf
        rfl

/-- A run of which something is observed returns an app. -/
theorem Outcome.ok_of_observed {o : Outcome} {observe : Log → FunctionApp → α}
    (h : o.result.toOption.map (observe o.log) = some a) :
    ∃ log app, o = ⟨log, .ok app⟩ ∧ observe log app = a := by
  rcases o with ⟨log, f | app⟩
  · cases h
  · exact ⟨log, app, rfl, Option.some.inj h⟩

/-- Of the two methods the first becomes a function, and the second one is a duplicate. -/
theorem Document.analyze_twoTicks : ∃ log app, twoTicks.analyze {} = ⟨log, .ok app⟩ ∧
    log.map Diagnostic.code = [.duplicateFunctionName] ∧
    app.functions.map FunctionDescriptor.handler = ["T.a"] := by
  let observe (log : Log) (app : FunctionApp) :=
    (log.map Diagnostic.code, app.functions.map FunctionDescriptor.handler)
  have h : (twoTicks.analyze {}).result.toOption.map (observe (twoTicks.analyze {}).log) =
      some ([.duplicateFunctionName], ["T.a"]) := by decide +kernel
  obtain ⟨log, app, hrun, hseen⟩ := Outcome.ok_of_observed h
  obtain ⟨hlog, hfs⟩ := Prod.mk.inj hseen
  exact ⟨log, app, hrun, hlog, hfs⟩

end AppManifest
