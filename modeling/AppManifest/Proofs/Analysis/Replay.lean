import AppManifest.Proofs.Analysis.Step
import AppManifest.Proofs.Syntax.Members

namespace AppManifest
set_option autoImplicit true

/-! A run of the analysis, replayed over what the tree declares: first the services of the module,
then inside each one the trigger methods of its class. -/

/-- Steps taken for the elements of a list, one after the other. -/
inductive Through (step : α → σ → σ → Prop) : List α → σ → σ → Prop
  | nil : Through step [] s s
  | cons (h : step a s t) (hs : Through step as t u) : Through step (a :: as) s u

/-- Where each step is matched by another under an invariant, so is the whole way. -/
theorem Through.simulate {step : α → σ → σ → Prop} {step' : α → τ → τ → Prop} {I : σ → Prop}
    {g : σ → τ} (h : Through step as s t) (hs : I s)
    (hstep : ∀ a ∈ as, ∀ s t, I s → step a s t → I t ∧ step' a (g s) (g t)) :
    I t ∧ Through step' as (g s) (g t) := by
  induction h with
  | nil => exact ⟨hs, .nil⟩
  | cons h _ ih =>
    obtain ⟨ht, h'⟩ := hstep _ List.mem_cons_self _ _ hs h
    obtain ⟨hu, hs'⟩ := ih ht fun a ha => hstep a (List.mem_cons_of_mem _ ha)
    exact ⟨hu, .cons h' hs'⟩

namespace Document

/-- The trigger method that a statement of a class body defines: a function or, where the statement
is decorated, one that is its definition. -/
def bodyMethod? (d : Document) (statement : Node) : Except Fault (Option TriggerMethod) := do
  match ← d.kind statement, statement.field? "definition" with
  | .functionDefinition, _ => d.triggerMethod? statement
  | .decoratedDefinition, some n =>
    if (← d.kind n) = .functionDefinition then d.triggerMethod? n else return none
  | _, _ => return none

/-- The trigger methods of a class, in the order of its body. -/
def triggerMethods (d : Document) (definition : Node) : Except Fault (List TriggerMethod) :=
  match definition.field? "body" with
  | none => return []
  | some body => body.children.filterMapM d.bodyMethod?

variable {d : Document} {n definition statement : Node}

theorem bodyMethod?_of_standsFor (hn : d.StandsFor statement n)
    (hk : d.kind n = .ok .functionDefinition) : d.bodyMethod? statement = d.triggerMethod? n := by
  cases hn with
  | bare => rw [bodyMethod?, hk, ok_bind]
  | decorated hk' hf =>
    rw [bodyMethod?, hk', ok_bind, hf]
    dsimp only
    rw [hk, ok_bind, if_pos rfl]

/-- A statement that does not stand for a function defines no trigger method. -/
theorem bodyMethod?_of_no_function (h : d.definition statement = .ok n) (hk : d.kind n = .ok k)
    (hne : k ≠ .functionDefinition) : d.bodyMethod? statement = .ok none := by
  obtain ⟨k', hk', h⟩ := bind_eq_ok.1 h
  rw [bodyMethod?, hk', ok_bind]
  split
  next =>
    cases pure_eq_ok.1 h
    exact absurd (Except.ok.inj (hk.symm.trans hk')) hne
  next n' hf =>
    rw [if_pos rfl, hf, Option.getD_some] at h
    cases pure_eq_ok.1 h
    rw [hk, ok_bind, if_neg hne]
    rfl
  next => rfl

/-- A statement that adds no method to the table defines no trigger method either. -/
theorem bodyMethod?_of_method?_none (hnames : d.NamesAreTokens) (hst : d.Has statement)
    (h : d.method? statement = .ok none) : d.bodyMethod? statement = .ok none := by
  obtain ⟨n, hn, h⟩ := bind_eq_ok.1 h
  obtain ⟨k, hk, h⟩ := bind_eq_ok.1 h
  by_cases he : k = .functionDefinition
  · subst he
    have hstands := standsFor_of_definition hn hk (by simp)
    obtain ⟨token, htok⟩ := hnames.exists_name (hst.definition hstands) (.inr hk)
    rw [htok] at h
    obtain ⟨s, -, h⟩ := bind_eq_ok.1 h
    cases pure_eq_ok.1 h
  · exact bodyMethod?_of_no_function hn hk he

theorem serviceDeclaration?_some (h : d.serviceDeclaration? statement = .ok (some s)) :
    d.kind statement = .ok .decoratedDefinition ∧
      statement.field? "definition" = some s.definition ∧
      d.kind s.definition = .ok .classDefinition ∧
      ∃ markers more, d.markers s.definition = .ok markers ∧
        serviceMarkers markers = (s.kind, s.service) :: more ∧
        s.moreServices = more.map Prod.snd := by
  obtain ⟨k, hk, h⟩ := bind_eq_ok.1 h
  split at h
  next he =>
    subst he
    split at h
    next => cases pure_eq_ok.1 h
    next definition hf =>
      obtain ⟨k, hkc, h⟩ := bind_eq_ok.1 h
      split at h
      next he =>
        subst he
        obtain ⟨markers, hm, h⟩ := bind_eq_ok.1 h
        split at h
        next => cases pure_eq_ok.1 h
        next kind service more he =>
          cases pure_eq_ok.1 h
          exact ⟨hk, hf, hkc, markers, more, mapError_eq_ok.1 hm, he, rfl⟩
      next => cases pure_eq_ok.1 h
  next => cases pure_eq_ok.1 h

theorem triggerMethod?_some (h : d.triggerMethod? n = .ok (some m)) :
    m.node = n ∧ ∃ markers, d.markers n = .ok markers ∧
      markers.filter (fun a => isTrigger a.name) = m.trigger :: m.moreTriggers ∧
      m.outputs = outputMarkers markers := by
  obtain ⟨markers, hm, h⟩ := bind_eq_ok.1 h
  split at h
  next => cases pure_eq_ok.1 h
  next trigger more he =>
    cases pure_eq_ok.1 h
    exact ⟨rfl, markers, hm, he, rfl⟩

theorem bodyMethod?_some (h : d.bodyMethod? statement = .ok (some m)) :
    d.StandsFor statement m.node ∧ d.kind m.node = .ok .functionDefinition ∧
      d.triggerMethod? m.node = .ok (some m) := by
  obtain ⟨k, hk, h⟩ := bind_eq_ok.1 h
  split at h
  next =>
    obtain ⟨rfl, -⟩ := triggerMethod?_some h
    exact ⟨.bare hk (by simp), hk, h⟩
  next n hf =>
    obtain ⟨k, hkn, h⟩ := bind_eq_ok.1 h
    split at h
    next he =>
      subst he
      obtain ⟨rfl, -⟩ := triggerMethod?_some h
      exact ⟨.decorated hk hf, hkn, h⟩
    next => cases pure_eq_ok.1 h
  next => cases pure_eq_ok.1 h

/-- A trigger method of a class is a function that a statement of its body defines. -/
theorem mem_triggerMethods {methods : List TriggerMethod}
    (h : d.triggerMethods definition = .ok methods) (hm : m ∈ methods) :
    ∃ body statement, definition.field? "body" = some body ∧ statement ∈ body.children ∧
      d.StandsFor statement m.node ∧ d.kind m.node = .ok .functionDefinition ∧
      d.triggerMethod? m.node = .ok (some m) := by
  unfold triggerMethods at h
  split at h
  next =>
    cases pure_eq_ok.1 h
    cases hm
  next body hb =>
    obtain ⟨statement, hst, hs⟩ := (mem_of_filterMapM_eq_ok h).1 hm
    exact ⟨body, statement, hb, hst, bodyMethod?_some hs⟩

theorem Has.triggerMethod (hn : d.Has definition) {methods : List TriggerMethod}
    (h : d.triggerMethods definition = .ok methods) (hm : m ∈ methods) :
    d.Has m.node ∧ d.kind m.node = .ok .functionDefinition := by
  obtain ⟨body, statement, hb, hst, hdef, hk, -⟩ := mem_triggerMethods h hm
  exact ⟨((hn.field hb).child hst).definition hdef, hk⟩

theorem has_service {services : List ServiceDeclaration}
    (h : d.serviceDeclarations d.root = .ok services) (hs : s ∈ services) :
    d.Has s.definition ∧ d.kind s.definition = .ok .classDefinition := by
  obtain ⟨statement, hst, hs⟩ := (mem_of_filterMapM_eq_ok h).1 hs
  obtain ⟨-, hf, hk, -⟩ := serviceDeclaration?_some hs
  exact ⟨(d.has_root.child hst).field hf, hk⟩

end Document

/-- The functions emitted so far and where the run stands. -/
structure Standing where
  functions : List FunctionDescriptor
  progress : Progress

namespace Scope

inductive MethodStep (c : Scope) (service : Service) (m : TriggerMethod) :
    Standing → Standing → Prop
  | emitted (h : (c.analyzeFunction service m).Ends p (.ok f) q) :
      MethodStep c service m ⟨functions, p⟩ ⟨functions ++ [f], q⟩
  | rejected (h : (c.analyzeFunction service m).Ends p (.error (.rejected e)) q) :
      MethodStep c service m ⟨functions, p⟩ ⟨functions, q.note e⟩

/-- A service is analyzed, or its rejection reported, and the functions that it emits are added. -/
inductive ServiceAttempt (c : Scope) (s : ServiceDeclaration) : Standing → Standing → Prop
  | intro (h : (Analysis.attempt (c.analyzeService s)).Ends p (.ok emitted?) q) :
      ServiceAttempt c s ⟨functions, p⟩ ⟨functions ++ emitted?.getD [], q⟩

/-- A service is left with a warning where it has no trigger method. -/
def leave (c : Scope) (definition : Node) (methods : List TriggerMethod) (p : Progress) :
    Progress :=
  { p with log := p.log ++ if methods.isEmpty then [c.withoutTriggers definition] else [] }

inductive ServiceStep (c : Scope) (s : ServiceDeclaration) : Standing → Standing → Prop
  | rejected (h : (c.service s).Ends p (.error (.rejected e)) q) :
      ServiceStep c s ⟨functions, p⟩ ⟨functions, q.note e⟩
  | accepted {service : Service} {methods : List TriggerMethod}
      (h : (c.service s).Ends p (.ok service) q)
      (hm : c.document.triggerMethods s.definition = .ok methods)
      (ht : Through (c.MethodStep service) methods ⟨functions, q⟩ ⟨functions', r⟩) :
      ServiceStep c s ⟨functions, p⟩ ⟨functions', c.leave s.definition methods r⟩

variable {c : Scope} {definition body statement : Node} {service : Service} {p q : Progress}

/-- Through the table, the lines of its name and the descent from the root, a method of a class is
found where its statement stands. -/
theorem triggerMethod?_member (hd : c.document.WellFormed) (hdef : c.document.Has definition)
    (hb : definition.field? "body" = some body) (hst : statement ∈ body.children)
    (htok : ∀ n token, c.document.StandsFor statement n →
      c.document.kind n = .ok .functionDefinition → n.field? "name" = some token → token.IsToken)
    (h : c.document.method? statement = .ok (some symbol)) :
    c.triggerMethod? definition symbol = .ok o ↔ c.document.bodyMethod? statement = .ok o := by
  obtain ⟨n, token, hn, hk, hf, hs⟩ := Document.method?_eq_ok_some.1 h
  have hst' : c.document.Has statement := (hdef.field hb).child hst
  have hbelow : n.Below definition :=
    (hn.below.child hst).child (Node.mem_children_of_field? hb)
  have hn' : c.document.Has n := hdef.below hbelow
  have hchild := Node.mem_children_of_field? hf
  have hloc := Document.locate?_token hd (hn'.child hchild) (htok n token hn hk hf)
    (Node.parent?_of_mem_children hchild) (Document.location_of_symbol hs)
  rw [triggerMethod?_eq_ok, hloc, Document.bodyMethod?_of_standsFor hn hk]
  simp only [hk, Except.ok.injEq, exists_eq_left', true_and, if_pos (hd.encloses hdef hbelow)]

theorem MethodStep.of_attempt
    (h : (Analysis.attempt (c.analyzeFunction service m)).Ends p (.ok function?) q) :
    c.MethodStep service m ⟨functions, p⟩ ⟨functions ++ function?.toList, q⟩ := by
  rcases Analysis.attempt_ok h with ⟨f, rfl, hf⟩ | ⟨e, r, rfl, hr, rfl⟩
  · exact .emitted hf
  · rw [Option.toList_none, List.append_nil]
    exact .rejected hr

theorem MethodStep.attempt (h : c.MethodStep service m u v) :
    ∃ function?, (Analysis.attempt (c.analyzeFunction service m)).Ends u.progress (.ok function?)
      v.progress := by
  cases h with
  | emitted h => exact ⟨_, (Analysis.ends_attempt_of_ok h).2 ⟨rfl, rfl⟩⟩
  | rejected h => exact ⟨_, (Analysis.ends_attempt_of_rejected h).2 ⟨rfl, rfl⟩⟩

/-- The run over symbols goes through the trigger methods behind them, in their order. -/
theorem through_symbols {symbols : List Symbol} (functions : List FunctionDescriptor)
    (h : (c.analyzeMethods service definition symbols).Ends p (.ok results) q) :
    ∃ methods, symbols.filterMapM (c.triggerMethod? definition) = .ok methods ∧
      results.hasTriggers = !methods.isEmpty ∧
      Through (c.MethodStep service) methods ⟨functions, p⟩
        ⟨functions ++ results.functions, q⟩ := by
  induction symbols generalizing p results functions with
  | nil =>
    obtain ⟨rfl, rfl⟩ := analyzeMethods_nil.1 h
    refine ⟨[], rfl, rfl, ?_⟩
    rw [List.append_nil]
    exact .nil
  | cons symbol symbols ih =>
    rcases analyzeMethods_cons.1 h with ⟨hnone, h⟩ | ⟨m, function?, r, more, hm, hf, hmore, rfl⟩
    · obtain ⟨methods, hms, ht, hthrough⟩ := ih functions h
      exact ⟨methods, filterMapM_cons_eq_ok.2 ⟨none, methods, hnone, hms, rfl⟩, ht, hthrough⟩
    · obtain ⟨methods, hms, -, hthrough⟩ := ih (functions ++ function?.toList) hmore
      refine ⟨m :: methods, filterMapM_cons_eq_ok.2 ⟨some m, methods, hm, hms, rfl⟩, rfl, ?_⟩
      rw [← List.append_assoc]
      exact .cons (.of_attempt hf) hthrough

/-- The methods behind the symbols of a class are those that its body defines. -/
theorem triggerMethods_of_symbols (hd : c.document.WellFormed) (hnames : c.document.NamesAreTokens)
    (hdef : c.document.Has definition) (hms : c.document.methods definition = .ok ms)
    (hm : ms.filterMapM (c.triggerMethod? definition) = .ok methods) :
    c.document.triggerMethods definition = .ok methods := by
  rw [Document.methods] at hms
  rw [Document.triggerMethods]
  cases hb : definition.field? "body" with
  | none =>
    rw [hb] at hms
    cases pure_eq_ok.1 hms
    cases pure_eq_ok.1 hm
    rfl
  | some body =>
    rw [hb] at hms
    have hhas {statement} (hst : statement ∈ body.children) : c.document.Has statement :=
      (hdef.field hb).child hst
    apply filterMapM_eq_ok_of_filterMapM hms hm
    · -- without a symbol in the table there must be no trigger method in the tree either
      exact fun statement hst => Document.bodyMethod?_of_method?_none hnames (hhas hst)
    · intro statement hst symbol o hsymbol ho
      have htok n token (hn : c.document.StandsFor statement n)
          (hk : c.document.kind n = .ok .functionDefinition)
          (hf : n.field? "name" = some token) : token.IsToken :=
        hnames.isToken ((hhas hst).definition hn) (.inr hk) hf
      exact (triggerMethod?_member hd hdef hb hst htok hsymbol).1 ho

theorem leave_eq {methods : List TriggerMethod} (h : results.hasTriggers = !methods.isEmpty)
    (p : Progress) : c.leave definition methods p =
      { p with log := p.log ++ c.serviceNotes definition results } := by
  rw [leave, serviceNotes, h]
  cases methods.isEmpty with
  | true => rfl
  | false => rfl

/-- The symbols that a service goes through are those of the methods in the body of its class. -/
theorem methodSymbols_of_name (hd : c.document.WellFormed)
    (hnames : ∀ n token s, c.document.Declares n token s →
      c.document.kind n = .ok .classDefinition → token.IsToken)
    (ht : SymbolTable.ofDocument c.document = .ok c.symbols)
    (hst : statement ∈ c.document.root.children)
    (hn : c.document.StandsFor statement definition)
    (hk : c.document.kind definition = .ok .classDefinition)
    (hf : definition.field? "name" = some token) :
    c.document.methods definition = .ok (c.methodSymbols definition) := by
  obtain ⟨s, hs, hm⟩ := SymbolTable.members_classAt? hd hnames ht hst hn hk hf
  rw [methodSymbols, hf]
  simp only [hs, hm]

theorem methodSymbols_eq (hd : c.document.WellFormed) (hnames : c.document.NamesAreTokens)
    (ht : SymbolTable.ofDocument c.document = .ok c.symbols)
    (hst : statement ∈ c.document.root.children)
    (hn : c.document.StandsFor statement definition)
    (hk : c.document.kind definition = .ok .classDefinition) :
    c.document.methods definition = .ok (c.methodSymbols definition) := by
  have hdef : c.document.Has definition := (c.document.has_root.child hst).definition hn
  obtain ⟨token, hf⟩ := hnames.exists_name hdef (.inl hk)
  exact methodSymbols_of_name hd (fun _ _ _ => hnames.class_token) ht hst hn hk hf

/-- The run over statements attempts the services that they declare, in their order. -/
theorem through_services {statements : List Node} (functions : List FunctionDescriptor)
    (h : (c.analyzeStatements statements).Ends p (.ok emitted) q) :
    ∃ services, statements.filterMapM c.document.serviceDeclaration? = .ok services ∧
      Through c.ServiceAttempt services ⟨functions, p⟩ ⟨functions ++ emitted, q⟩ := by
  induction statements generalizing p emitted functions with
  | nil =>
    obtain ⟨rfl, rfl⟩ := analyzeStatements_nil.1 h
    refine ⟨[], rfl, ?_⟩
    rw [List.append_nil]
    exact .nil
  | cons statement statements ih =>
    rcases analyzeStatements_cons.1 h with ⟨ho, h⟩ | ⟨s, emitted?, r, more, ho, hs, hmore, rfl⟩
    · obtain ⟨services, hss, hthrough⟩ := ih functions h
      exact ⟨services, filterMapM_cons_eq_ok.2 ⟨none, services, ho, hss, rfl⟩, hthrough⟩
    · obtain ⟨services, hss, hthrough⟩ := ih (functions ++ emitted?.getD []) hmore
      refine ⟨s :: services, filterMapM_cons_eq_ok.2 ⟨some s, services, ho, hss, rfl⟩, ?_⟩
      rw [← List.append_assoc]
      exact .cons (.intro hs) hthrough

theorem ServiceAttempt.step (h : c.ServiceAttempt s u v) (hd : c.document.WellFormed)
    (hnames : c.document.NamesAreTokens) (ht : SymbolTable.ofDocument c.document = .ok c.symbols)
    (hst : statement ∈ c.document.root.children)
    (hs : c.document.serviceDeclaration? statement = .ok (some s)) : c.ServiceStep s u v := by
  obtain ⟨hdec, hf, hk, -⟩ := Document.serviceDeclaration?_some hs
  have hn : c.document.StandsFor statement s.definition := .decorated hdec hf
  have hdef : c.document.Has s.definition := (c.document.has_root.child hst).definition hn
  have hms := methodSymbols_eq hd hnames ht hst hn hk
  cases h with
  | intro h =>
    rcases Analysis.attempt_ok h with ⟨fs, rfl, hfs⟩ | ⟨e, r, rfl, hr, rfl⟩
    · obtain ⟨service, r, results, r', hv, hm, rfl, rfl⟩ := analyzeService_ok.1 hfs
      obtain ⟨methods, hmethods, htr, hthrough⟩ := through_symbols _ hm
      have htm := triggerMethods_of_symbols hd hnames hdef hms hmethods
      rw [Option.getD_some, ← leave_eq htr]
      exact .accepted hv htm hthrough
    · rw [Option.getD_none, List.append_nil]
      exact .rejected (analyzeService_rejected.1 hr)

end Scope

/-- A run that returns an app has gone through all services of the module in order. -/
theorem Document.replay {d : Document} (hd : d.WellFormed) (hnames : d.NamesAreTokens)
    (h : d.analyzeInto log settings = ⟨log', .ok app⟩) :
    ∃ symbols services p, SymbolTable.ofDocument d = .ok symbols ∧
      d.serviceDeclarations d.root = .ok services ∧
      Through (Scope.ServiceStep ⟨d, settings, symbols⟩) services
        ⟨[], Scope.start ⟨d, settings, symbols⟩ log⟩ ⟨app.functions, p⟩ ∧
      p.log = log' ∧ p.host = app.host := by
  obtain ⟨symbols, functions, p, ht, hrun, rfl, rfl⟩ := analyzeInto_ok.1 h
  obtain ⟨services, hss, hthrough⟩ := Scope.through_services [] hrun
  refine ⟨symbols, services, p, ht, hss, ?_, rfl, rfl⟩
  apply (hthrough.simulate (I := fun _ => True) (g := id) trivial ?_).2
  intro s hmem u v _ hattempt
  obtain ⟨statement, hst, hs⟩ := (mem_of_filterMapM_eq_ok hss).1 hmem
  exact ⟨trivial, hattempt.step (c := ⟨d, settings, symbols⟩) hd hnames ht hst hs⟩

end AppManifest
