import AppManifest.Proofs.Analysis.Replay

namespace AppManifest
set_option autoImplicit true

namespace Scope

/-- A trigger method is answered for by one function under its handler, or by one error. -/
inductive MethodAccount (c : Scope) (service : Service) (m : TriggerMethod) :
    Standing → Standing → Prop
  | emitted (h : (c.analyzeFunction service m).Ends p (.ok f) q)
      (hn : c.document.IsNamed m.node name) (hf : f.handler = service.className ++ "." ++ name)
      (hl : q.log = p.log ++ remarks) (hr : ∀ d ∈ remarks, d.IsRemark) :
      MethodAccount c service m ⟨functions, p⟩ ⟨functions ++ [f], q⟩
  | rejected (h : (c.analyzeFunction service m).Ends p (.error (.rejected e)) q)
      (he : e.isError = true) (hl : (q.note e).log = p.log ++ remarks ++ [e])
      (hr : ∀ d ∈ remarks, d.IsRemark) :
      MethodAccount c service m ⟨functions, p⟩ ⟨functions, q.note e⟩

/-- A service is answered for by one error and no function, or else by its trigger methods, and by
a warning where it has none. -/
inductive ServiceAccount (c : Scope) (s : ServiceDeclaration) : Standing → Standing → Prop
  | rejected (h : (c.service s).Ends p (.error (.rejected e)) q)
      (he : e.isError = true) (hl : (q.note e).log = p.log ++ remarks ++ [e])
      (hr : ∀ d ∈ remarks, d.IsRemark) :
      ServiceAccount c s ⟨functions, p⟩ ⟨functions, q.note e⟩
  | accepted {service : Service} {methods : List TriggerMethod}
      (h : (c.service s).Ends p (.ok service) q)
      (hn : c.document.IsNamed s.definition service.className)
      (hl : q.log = p.log ++ remarks) (hr : ∀ d ∈ remarks, d.IsRemark)
      (hm : c.document.triggerMethods s.definition = .ok methods)
      (ha : Through (c.MethodAccount service) methods ⟨functions, q⟩ ⟨functions', r⟩) :
      ServiceAccount c s ⟨functions, p⟩ ⟨functions', c.leave s.definition methods r⟩

variable {c : Scope} {service : Service} {m : TriggerMethod} {p q : Progress}

theorem isNamed_of_nameOf (hnames : c.document.NamesAreTokens) (hn : c.document.Has n)
    (hk : c.document.kind n = .ok .classDefinition ∨ c.document.kind n = .ok .functionDefinition)
    (h : c.nameOf n = .ok name) : c.document.IsNamed n name := by
  obtain ⟨token, hf⟩ := hnames.exists_name hn hk
  rw [nameOf, hf] at h
  exact ⟨token, hf, lift_eq_ok.1 h⟩

/-- Up to its name a method only causes remarks, and giving it one causes none. -/
theorem log_of_analyzeFunction (h : (c.analyzeFunction service m).Ends p (.ok f) q) :
    ∃ remarks, q.log = p.log ++ remarks ∧ ∀ d ∈ remarks, d.IsRemark := by
  obtain ⟨proposal, r, name, r', hp, hn, -, rfl⟩ := analyzeFunction_ok.1 h
  obtain ⟨-, -, -, rfl⟩ := assignName_ok hn
  obtain ⟨notes, hlog, hnotes⟩ := (steady_propose c service m).log hp
  refine ⟨notes ++ c.methodNotes service m proposal.draft name, ?_, ?_⟩
  · change r.log ++ _ = _
    rw [hlog, List.append_assoc]
  · intro d hd
    rcases List.mem_append.1 hd with hd | hd
    · exact hnotes d hd
    · exact remark_methodNotes c service m _ _ d hd

theorem log_of_rejected_function
    (h : (c.analyzeFunction service m).Ends p (.error (.rejected e)) q) :
    e.isError = true ∧ ∃ remarks, q.log = p.log ++ remarks ∧ ∀ d ∈ remarks, d.IsRemark := by
  rcases analyzeFunction_error.1 h with h | ⟨proposal, r, hp, hn⟩
  · exact ⟨((steady_propose c service m).halt h).1, (steady_propose c service m).log h⟩
  · obtain ⟨rfl, -⟩ := assignName_error hn
    exact ⟨assignName_rejected hn, (steady_propose c service m).log hp⟩

theorem account_of_methodStep (hnames : c.document.NamesAreTokens) (hn : c.document.Has m.node)
    (hk : c.document.kind m.node = .ok .functionDefinition) (h : c.MethodStep service m s t) :
    c.MethodAccount service m s t := by
  cases h with
  | emitted h =>
    obtain ⟨remarks, hl, hr⟩ := log_of_analyzeFunction h
    obtain ⟨proposal, r, name, r', hp, -, rfl, -⟩ := analyzeFunction_ok.1 h
    obtain ⟨-, -, hname, -⟩ := propose_ok.1 hp
    exact .emitted h (isNamed_of_nameOf hnames hn (.inr hk) hname) rfl hl hr
  | rejected h =>
    obtain ⟨he, remarks, hl, hr⟩ := log_of_rejected_function h
    exact .rejected h he (congrArg (· ++ _) hl) hr

theorem account_of_serviceStep (hnames : c.document.NamesAreTokens)
    (hn : c.document.Has s.definition)
    (hk : c.document.kind s.definition = .ok .classDefinition) (h : c.ServiceStep s t u) :
    c.ServiceAccount s t u := by
  cases h with
  | rejected h =>
    obtain ⟨remarks, hl, hr⟩ := (steady_service c s).log h
    exact .rejected h ((steady_service c s).halt h).1 (congrArg (· ++ _) hl) hr
  | accepted h hm ht =>
    obtain ⟨remarks, hl, hr⟩ := (steady_service c s).log h
    have hname := isNamed_of_nameOf hnames hn (.inl hk) (service_ok.1 h).1
    refine .accepted h hname hl hr hm ?_
    refine (ht.simulate (I := fun _ => True) (g := id) trivial ?_).2
    intro m hmem t u _ hstep
    obtain ⟨hnm, hkm⟩ := hn.triggerMethod hm hmem
    exact ⟨trivial, account_of_methodStep hnames hnm hkm hstep⟩

end Scope

/-- In a run that returns an app, every service of the module and every trigger method of an
accepted service is answered for, once and in order, and the log and the functions hold nothing
else. -/
theorem Document.accounting {d : Document} (hd : d.WellFormed) (hnames : d.NamesAreTokens)
    (h : d.analyze settings = ⟨log, .ok app⟩) :
    ∃ symbols services p, SymbolTable.ofDocument d = .ok symbols ∧
      d.serviceDeclarations d.root = .ok services ∧
      Through (Scope.ServiceAccount ⟨d, settings, symbols⟩) services
        ⟨[], Scope.start ⟨d, settings, symbols⟩ []⟩ ⟨app.functions, p⟩ ∧
      p.log = log := by
  obtain ⟨symbols, services, p, ht, hs, hthrough, hlog, -⟩ := replay hd hnames h
  refine ⟨symbols, services, p, ht, hs, ?_, hlog⟩
  refine (hthrough.simulate (I := fun _ => True) (g := id) trivial ?_).2
  intro s hmem t u _ hstep
  obtain ⟨hn, hk⟩ := has_service hs hmem
  exact ⟨trivial, Scope.account_of_serviceStep hnames hn hk hstep⟩

/-- The service with two methods of one name is answered for by a function and an error. -/
theorem Document.accounting_twoTicks : twoTicks.WellFormed ∧ twoTicks.NamesAreTokens ∧
    ∃ log app, twoTicks.analyze {} = ⟨log, .ok app⟩ ∧
      log.map Diagnostic.code = [.duplicateFunctionName] ∧
      app.functions.map FunctionDescriptor.handler = ["T.a"] ∧
      ∃ symbols services p, SymbolTable.ofDocument twoTicks = .ok symbols ∧
        twoTicks.serviceDeclarations twoTicks.root = .ok services ∧
        Through (Scope.ServiceAccount ⟨twoTicks, {}, symbols⟩) services
          ⟨[], Scope.start ⟨twoTicks, {}, symbols⟩ []⟩ ⟨app.functions, p⟩ ∧
        p.log = log := by
  obtain ⟨log, app, h, hlog, hfs⟩ := analyze_twoTicks
  exact ⟨wellFormed_twoTicks, namesAreTokens_twoTicks, log, app, h, hlog, hfs,
    accounting wellFormed_twoTicks namesAreTokens_twoTicks h⟩

end AppManifest
