import AppManifest.Proofs.Analysis.Accounting
import AppManifest.Proofs.Analysis.Names
import AppManifest.Proofs.Analysis.Typing

namespace AppManifest
set_option autoImplicit true

namespace Analysis

/-- The same as for checks: a step ends in what a rule describes, or rejects where it describes
nothing, from whatever state of progress. -/
structure Obeys (x : Analysis α) (g : α → β) (R : β → Prop) : Prop where
  ok : ∀ {p a q}, x.Ends p (.ok a) q → ∀ b, R b ↔ b = g a
  rejected : ∀ {p e q}, x.Ends p (.error (.rejected e)) q → ∀ b, ¬R b

theorem Obeys.congr {x : Analysis α} (h : x.Obeys g R) (hR : ∀ b, R' b ↔ R b) :
    x.Obeys g R' where
  ok hx b := (hR b).trans (h.ok hx b)
  rejected hx b hb := h.rejected hx b ((hR b).1 hb)

theorem obeys_lift {x : Except Halt α} (h : Decides x g R) : (liftM x : Analysis α).Obeys g R where
  ok hx := h.ok (ends_lift.1 hx).1
  rejected hx := h.rejected (ends_lift.1 hx).1

theorem obeys_pure (a : α) (g : α → β) : (pure a : Analysis α).Obeys g (· = g a) where
  ok hx b := by
    cases (ends_pure.1 hx).1
    rfl
  rejected hx := by cases (ends_pure.1 hx).1

/-- A step that rejects nothing obeys the rule that forbids nothing. -/
theorem obeys_true {x : Analysis α} (h : ∀ p e q, ¬x.Ends p (.error (.rejected e)) q) :
    x.Obeys (fun _ => ()) fun _ => True where
  ok _ _ := iff_of_true trivial rfl
  rejected hx := absurd hx (h _ _ _)

theorem obeys_noteAll (ds : List Diagnostic) :
    (noteAll ds).Obeys (fun _ => ()) fun _ => True := by
  refine obeys_true fun p e q h => ?_
  cases (ends_noteAll.1 h).1

theorem Obeys.bind {x : Analysis α} {f : α → Analysis γ} {S : β → δ → Prop}
    (hx : x.Obeys g R) (hf : ∀ a, R (g a) → (f a).Obeys g' (S (g a))) :
    (x >>= f).Obeys g' fun b => ∃ a, R a ∧ S a b where
  ok h b := by
    obtain ⟨a, m, ha, h⟩ := ends_bind_ok.1 h
    have hR := (hx.ok ha (g a)).2 rfl
    rw [← (hf a hR).ok h b]
    constructor
    · intro h
      obtain ⟨a', ha', hb⟩ := h
      rwa [(hx.ok ha a').1 ha'] at hb
    · exact fun hb => ⟨g a, hR, hb⟩
  rejected h b := by
    intro h
    obtain ⟨a', ha', hb⟩ := h
    rcases ends_bind_error.1 h with h | ⟨a, m, ha, h⟩
    · exact hx.rejected h a' ha'
    · rw [(hx.ok ha a').1 ha'] at hb
      exact (hf a ((hx.ok ha _).2 rfl)).rejected h b hb

end Analysis

namespace Scope

open Analysis

/-- A trigger method becomes a function where the rules give it a name that no earlier function
has, and is rejected over an error where they do not. -/
inductive MethodVerdict (c : Scope) (service : Service) (m : TriggerMethod) :
    Standing → Standing → Prop
  | emitted (h : (c.analyzeFunction service m).Ends p (.ok f) q)
      (hr : c.MakesFunction service m f.name) (hn : ∀ g ∈ functions, g.name ≠ f.name) :
      MethodVerdict c service m ⟨functions, p⟩ ⟨functions ++ [f], q⟩
  | rejected (h : (c.analyzeFunction service m).Ends p (.error (.rejected e)) q)
      (he : e.isError = true)
      (hr : ∀ name, c.MakesFunction service m name → ∃ g ∈ functions, g.name = name) :
      MethodVerdict c service m ⟨functions, p⟩ ⟨functions, q.note e⟩

/-- A declaration is accepted as the service that the rules make of it, and rejected over an error
where they make none. -/
inductive ServiceVerdict (c : Scope) (s : ServiceDeclaration) : Standing → Standing → Prop
  | rejected (h : (c.service s).Ends p (.error (.rejected e)) q) (he : e.isError = true)
      (hr : ∀ service, ¬c.MakesService s service) :
      ServiceVerdict c s ⟨functions, p⟩ ⟨functions, q.note e⟩
  | accepted {service : Service} {methods : List TriggerMethod}
      (h : (c.service s).Ends p (.ok service) q) (hr : c.MakesService s service)
      (hm : c.document.triggerMethods s.definition = .ok methods)
      (hv : Through (c.MethodVerdict service) methods ⟨functions, q⟩ ⟨functions', r⟩) :
      ServiceVerdict c s ⟨functions, p⟩ ⟨functions', c.leave s.definition methods r⟩

variable {c : Scope} {service : Service} {m : TriggerMethod} {p q : Progress}

theorem obeys_supply (c : Scope) (service : Marker) (setting : QueueSetting) :
    (c.supply service setting).Obeys (fun _ => ())
      fun _ => c.MayBePositive service setting.field := by
  refine ((obeys_lift (decides_positive? c _ _)).bind (S := fun _ _ => True)
    fun value _ => obeys_true fun p e q h => ?_).congr fun _ => by simp
  cases value with
  | none => cases (ends_pure.1 h).1
  | some value =>
    rcases ends_bind_error.1 h with h | ⟨r, m, -, h⟩
    · cases (ends_get.1 h).1
    · rw [keep] at h
      split at h
      next => cases (ends_modify.1 h).1
      next =>
        split at h
        next => cases (ends_pure.1 h).1
        next => cases (ends_note.1 h).1

theorem authLevel_eq (c : Scope) (given : Option String) :
    c.authLevel given = (given.filter (· ≠ "")).getD c.settings.defaultAuthLevel := by
  cases given with
  | none => rfl
  | some level =>
    by_cases h : level = ""
    · simp [authLevel, h, Option.filter]
    · simp [authLevel, h, Option.filter]

theorem obeys_httpSettings (c : Scope) (service : Marker) :
    (c.serviceSettings .http service).Obeys id (c.HasSettings service .http) := by
  refine ((obeys_lift (decides_optional c service "auth_level")).bind
    (S := fun given settings => c.authLevel given ∈ authLevels ∧
      ∃ route, c.document.HasPath c.settings.strictPaths service "base_path" route ∧
        settings = .http route (c.authLevel given)) fun given _ => ?_).congr fun settings => ?_
  · simp only [id_eq]
    split
    next ha =>
      refine ((obeys_lift (decides_pathValue c _ _)).bind
        (S := fun route settings => settings = .http route (c.authLevel given))
        fun route _ => obeys_pure _ id).congr fun settings => ?_
      simp [ha]
    next ha => exact (obeys_lift (decides_reject c _ _ id)).congr fun settings => by simp [ha]
  · constructor
    · intro h
      obtain ⟨hg, rfl, ha, hp⟩ := h
      rw [← authLevel_eq] at ha ⊢
      exact ⟨_, hg, by simpa [authLevels] using ha, _, hp, rfl⟩
    · intro h
      obtain ⟨given, hg, ha, route, hp, rfl⟩ := h
      exact .http hg (c.authLevel_eq given) (by simpa [authLevels] using ha) hp

theorem obeys_queueSettings (c : Scope) (service : Marker) :
    (c.serviceSettings .queue service).Obeys id (c.HasSettings service .queue) := by
  refine ((obeys_lift (decides_required c service "queue_name")).bind
    (S := fun queueName settings => ∃ connection,
      c.document.HasValue service "connection" connection ∧
      ∃ _ : Unit, c.MayBePositive service "batch_size" ∧
      ∃ _ : Unit, c.MayBePositive service "max_dequeue_count" ∧
        settings = .queue queueName connection) fun queueName _ =>
    (obeys_lift (decides_required c service "connection")).bind fun connection _ =>
    (obeys_supply c service .batchSize).bind fun _ _ =>
    (obeys_supply c service .maxDequeueCount).bind fun _ _ => obeys_pure _ id).congr
    fun settings => ?_
  constructor
  · intro h
    rcases h with - | ⟨hq, hc, hb, hm⟩
    exact ⟨_, hq, _, hc, (), hb, (), hm, rfl⟩
  · intro h
    obtain ⟨queueName, hq, connection, hc, -, hb, -, hm, rfl⟩ := h
    exact .queue hq hc hb hm

theorem obeys_timerSettings (c : Scope) (service : Marker) :
    (c.serviceSettings .timer service).Obeys id (c.HasSettings service .timer) := by
  refine ((obeys_lift (decides_required c service "schedule")).bind
    (S := fun schedule settings => (Text.words schedule.toList).length = 6 ∧
      settings = .timer schedule) fun schedule _ => ?_).congr fun settings => ?_
  · simp only [id_eq]
    split
    next hw => exact (obeys_pure _ id).congr fun settings => by simp [hw]
    next hw => exact (obeys_lift (decides_reject c _ _ id)).congr fun settings => by simp [hw]
  · constructor
    · intro h
      rcases h with - | - | ⟨hs, hw⟩
      exact ⟨_, hs, hw, rfl⟩
    · intro h
      obtain ⟨schedule, hs, hw, rfl⟩ := h
      exact .timer hs hw

theorem obeys_serviceSettings (c : Scope) (kind : ServiceKind) (service : Marker) :
    (c.serviceSettings kind service).Obeys id (c.HasSettings service kind) := by
  cases kind with
  | http => exact obeys_httpSettings c service
  | queue => exact obeys_queueSettings c service
  | timer => exact obeys_timerSettings c service

theorem obeys_service (hnames : c.document.NamesAreTokens)
    (hn : c.document.Has s.definition) (hk : c.document.kind s.definition = .ok .classDefinition) :
    (c.service s).Obeys id (c.MakesService s) := by
  obtain ⟨token, hf⟩ := hnames.exists_name hn (.inl hk)
  refine ((obeys_lift (decides_nameOf c hf)).bind
    (S := fun className service => ∃ _ : Unit, s.moreServices = [] ∧ ∃ _ : Unit, True ∧
      ∃ settings, c.HasSettings s.service s.kind settings ∧ service = ⟨className, settings⟩)
    fun className _ => (obeys_lift (decides_single c _ _)).bind fun _ _ =>
    (obeys_noteAll _).bind fun _ _ => (obeys_serviceSettings c _ _).bind fun settings _ =>
    obeys_pure _ id).congr fun service => ?_
  constructor
  · intro h
    obtain ⟨hn, hs, hset⟩ := h
    exact ⟨_, hn, (), hs, (), trivial, _, hset, rfl⟩
  · intro h
    obtain ⟨className, hn, -, hs, -, -, settings, hset, rfl⟩ := h
    exact ⟨hn, hs, hset⟩

theorem decides_httpDraft (c : Scope) (base level : String) (trigger : Marker) :
    Decides (c.httpDraft base level trigger) Draft.defaultName fun fallback =>
      ∃ given, c.document.HasValue trigger "method" given ∧
        (Text.lower given ∈ concreteMethods ∨ Text.lower given = anyMethod) ∧
        ∃ path, c.document.HasPath c.settings.strictPaths trigger "path" path ∧
          fallback = defaultHttpName (Text.lower given) (joinRoute [base, path]) := by
  refine (decides_required c trigger "method").bind
    (S := fun given fallback =>
      (Text.lower given ∈ concreteMethods ∨ Text.lower given = anyMethod) ∧
      ∃ path, c.document.HasPath c.settings.strictPaths trigger "path" path ∧
        fallback = defaultHttpName (Text.lower given) (joinRoute [base, path])) fun given _ => ?_
  dsimp only [id_eq]
  split
  next ha =>
    refine ((decides_pathValue c trigger "path").bind
      (S := fun path fallback => fallback = defaultHttpName (Text.lower given)
        (joinRoute [base, path])) fun path _ => decides_pure (Draft.mk _ _) Draft.defaultName).congr
      fun fallback => ?_
    simp [ha]
  next ha => exact (decides_reject c _ _ _).congr fun fallback => by simp [ha]

theorem decides_draft (hd : c.document.Regular)
    (ht : SymbolTable.ofDocument c.document = .ok c.symbols) (hn : c.document.Has m.node)
    (methodName : String) :
    Decides (c.draft service m methodName) Draft.defaultName
      (c.HasDefaultName service.className methodName m service.settings) := by
  rw [draft]
  cases service.settings with
  | http base level =>
    refine ((decides_httpDraft c base level m.trigger).bind
      (S := fun fallback name => ∃ _ : Unit, c.HasTypedParameters m.node ∧ name = fallback)
      fun draft _ => (decides_checkParameters hd ht hn).bind fun _ _ =>
      decides_pure _ _).congr fun name => ?_
    constructor
    · intro h
      obtain ⟨hm, rfl, ha, hp, ht⟩ := h
      exact ⟨_, ⟨_, hm, ha, _, hp, rfl⟩, (), ht, rfl⟩
    · intro h
      obtain ⟨fallback, ⟨given, hm, ha, path, hp, rfl⟩, -, ht, rfl⟩ := h
      exact .http hm rfl ha hp ht
  | queue queueName connection =>
    refine (decides_pure _ _).congr fun name => ?_
    constructor
    · intro h
      cases h
      rfl
    · intro h
      subst h
      exact .queue
  | timer schedule =>
    refine (decides_pure _ _).congr fun name => ?_
    constructor
    · intro h
      cases h
      rfl
    · intro h
      subst h
      exact .timer

theorem decides_twoRequired (c : Scope) (a : Marker) (first second : String)
    (f : String → String → α) :
    Decides (do return f (← c.required a first) (← c.required a second)) (fun _ => ()) fun _ =>
      (∃ value, c.document.HasValue a first value) ∧
        ∃ value, c.document.HasValue a second value := by
  refine ((decides_required c a first).bind
    (S := fun _ _ => ∃ value, c.document.HasValue a second value) fun _ _ => ?_).congr
    fun _ => by simp
  refine ((decides_required c a second).bind (S := fun _ _ => True) fun _ _ => ?_).congr
    fun _ => by simp
  exact (decides_pure _ _).congr fun _ => by simp

theorem decides_outputBinding (c : Scope) (kind : OutputKind) (output : Marker) :
    Decides (c.outputBinding kind output) (fun _ => ()) fun _ =>
      ∀ name ∈ kind.required, ∃ value, c.document.HasValue output name value := by
  cases kind with
  | queue =>
    apply (decides_twoRequired c output "queue_name" "connection" _).congr
    simp [OutputKind.required]
  | blob =>
    apply (decides_twoRequired c output "path" "connection" _).congr
    simp [OutputKind.required]

theorem obeys_outputBindings (c : Scope) (m : TriggerMethod) :
    (c.outputBindings m).Obeys (fun _ => ()) fun _ => c.HasOutput m := by
  rw [outputBindings, HasOutput]
  cases m.outputs with
  | nil => exact (obeys_pure _ _).congr fun _ => by simp
  | cons first more =>
    obtain ⟨kind, output⟩ := first
    refine ((obeys_lift (decides_single c _ _)).bind
      (S := fun _ _ => ∃ _ : Unit, True ∧ ∃ _ : Unit,
        (∀ name ∈ kind.required, ∃ value, c.document.HasValue output name value) ∧ True)
      fun _ _ => (obeys_noteAll _).bind fun _ _ =>
      (obeys_lift (decides_outputBinding c kind output)).bind fun _ _ =>
      (obeys_pure _ _).congr fun _ => by simp).congr fun _ => ?_
    simp [and_comm]

theorem obeys_propose (hd : c.document.Regular)
    (ht : SymbolTable.ofDocument c.document = .ok c.symbols) (hn : c.document.Has m.node)
    (hk : c.document.kind m.node = .ok .functionDefinition) (service : Service) :
    (c.propose service m).Obeys (fun proposal => proposal.draft.defaultName) fun fallback =>
      m.moreTriggers = [] ∧ m.trigger.name = service.settings.kind.trigger ∧ c.HasOutput m ∧
        ∃ methodName, c.document.IsNamed m.node methodName ∧
          c.HasDefaultName service.className methodName m service.settings fallback := by
  obtain ⟨token, hf⟩ := hd.names.exists_name hn (.inr hk)
  refine ((obeys_lift (decides_single c _ _)).bind
    (S := fun _ fallback => m.trigger.name = service.settings.kind.trigger ∧ c.HasOutput m ∧
        ∃ methodName, c.document.IsNamed m.node methodName ∧
          c.HasDefaultName service.className methodName m service.settings fallback)
    fun _ _ => ?_).congr fun fallback => by simp
  split
  next hfits =>
    refine ((obeys_noteAll _).bind (S := fun _ fallback => ∃ methodName,
      c.document.IsNamed m.node methodName ∧ ∃ name,
        c.HasDefaultName service.className methodName m service.settings name ∧ ∃ _ : Unit,
          c.HasOutput m ∧ fallback = name) fun _ _ => (obeys_lift (decides_nameOf c hf)).bind
      fun methodName _ => (obeys_lift (decides_draft hd ht hn methodName)).bind fun draft _ =>
      (obeys_outputBindings c m).bind fun outputs _ =>
      obeys_pure (Proposal.mk methodName draft outputs) _).congr fun fallback => ?_
    constructor
    · intro h
      obtain ⟨-, ho, methodName, hname, hdef⟩ := h
      exact ⟨(), trivial, methodName, hname, _, hdef, (), ho, rfl⟩
    · intro h
      obtain ⟨-, -, methodName, hname, _, hdef, -, ho, rfl⟩ := h
      exact ⟨hfits, ho, methodName, hname, hdef⟩
  next hfits => exact (obeys_lift (decides_reject c _ _ _)).congr fun _ => by simp [hfits]

theorem makesFunction_of_ok (hd : c.document.Regular)
    (ht : SymbolTable.ofDocument c.document = .ok c.symbols) (hn : c.document.Has m.node)
    (hk : c.document.kind m.node = .ok .functionDefinition)
    (h : (c.analyzeFunction service m).Ends p (.ok f) q) : c.MakesFunction service m f.name := by
  obtain ⟨proposal, r, name, r', hp, hname, rfl, -⟩ := analyzeFunction_ok.1 h
  obtain ⟨⟨given, hg, rfl⟩, hv, -, -⟩ := assignName_ok hname
  obtain ⟨hs, hfits, ho, methodName, hnamed, hdef⟩ :=
    ((obeys_propose hd ht hn hk service).ok hp _).2 rfl
  have hgiven := ((decides_optional c m.trigger "name").ok hg given).2 rfl
  exact ⟨hs, hfits, ho, ⟨methodName, _, given, hnamed, hdef, hgiven, rfl⟩,
    (isFunctionName_iff _).1 hv⟩

/-- What the rules would name a rejected method is the name of an earlier function. -/
theorem mem_names_of_rejected (hd : c.document.Regular)
    (ht : SymbolTable.ofDocument c.document = .ok c.symbols) (hn : c.document.Has m.node)
    (hk : c.document.kind m.node = .ok .functionDefinition)
    (h : (c.analyzeFunction service m).Ends p (.error (.rejected e)) q)
    (hr : c.MakesFunction service m name) : name ∈ p.names := by
  obtain ⟨hs, hfits, ho, ⟨methodName, fallback, given, hnamed, hdef, hgiven, rfl⟩, hv⟩ := hr
  have hobeys := obeys_propose hd ht hn hk service
  rcases analyzeFunction_error.1 h with h | ⟨proposal, r, hp, hname⟩
  · exact absurd ⟨hs, hfits, ho, methodName, hnamed, hdef⟩ (hobeys.rejected h fallback)
  · obtain rfl := (hobeys.ok hp fallback).1 ⟨hs, hfits, ho, methodName, hnamed, hdef⟩
    have hoptional := decides_optional c m.trigger "name"
    rw [← (steady_propose c service m).names hp]
    obtain ⟨-, he | ⟨given', hg, ⟨hv', -⟩ | ⟨-, hmem, -⟩⟩⟩ := assignName_error hname
    · exact absurd hgiven (hoptional.rejected he given)
    · obtain rfl := (hoptional.ok hg given).1 hgiven
      rw [(isFunctionName_iff _).2 hv] at hv'
      cases hv'
    · obtain rfl := (hoptional.ok hg given).1 hgiven
      exact hmem

theorem verdict_of_methodStep (hd : c.document.Regular)
    (ht : SymbolTable.ofDocument c.document = .ok c.symbols) (hn : c.document.Has m.node)
    (hk : c.document.kind m.node = .ok .functionDefinition)
    (hreg : Registered s.functions s.progress) (h : c.MethodStep service m s t) :
    Registered t.functions t.progress ∧ c.MethodVerdict service m s t := by
  cases h with
  | emitted h =>
    obtain ⟨hnew, hv, hq⟩ := names_of_analyzeFunction h
    refine ⟨hreg.emit hnew hv hq, .emitted h (makesFunction_of_ok hd ht hn hk h) ?_⟩
    exact fun g hg he => hnew ((hreg.names _).2 ⟨g, hg, he⟩)
  | rejected h =>
    have hq := hreg.same (names_of_rejected_function h)
    refine ⟨hq.same rfl, .rejected h ((log_of_rejected_function h).1) fun name hr => ?_⟩
    exact (hreg.names name).1 (mem_names_of_rejected hd ht hn hk h hr)

theorem verdict_of_serviceStep (hd : c.document.Regular)
    (ht : SymbolTable.ofDocument c.document = .ok c.symbols) (hn : c.document.Has s.definition)
    (hk : c.document.kind s.definition = .ok .classDefinition)
    (hreg : Registered t.functions t.progress) (h : c.ServiceStep s t u) :
    Registered u.functions u.progress ∧ c.ServiceVerdict s t u := by
  have hobeys := obeys_service hd.names hn hk
  cases h with
  | rejected h =>
    have hq := hreg.same ((steady_service c s).names h)
    exact ⟨hq.same rfl, .rejected h ((steady_service c s).halt h).1 (hobeys.rejected h)⟩
  | accepted h hm hthrough =>
    have hq := hreg.same ((steady_service c s).names h)
    obtain ⟨hr, hv⟩ := hthrough.simulate (I := fun s => Registered s.functions s.progress)
      (g := id) hq fun m hmem t u hreg hstep => by
        obtain ⟨hnm, hkm⟩ := hn.triggerMethod hm hmem
        exact verdict_of_methodStep hd ht hnm hkm hreg hstep
    exact ⟨hr.same rfl, .accepted h ((hobeys.ok h _).2 rfl) hm hv⟩

end Scope

/-- In a run that returns an app, a declaration is accepted exactly where the rules make a service
of it, and a trigger method of an accepted service becomes a function exactly where they give it a
name that is not taken. -/
theorem Document.acceptance {d : Document} (hd : d.Regular)
    (h : d.analyze settings = ⟨log, .ok app⟩) :
    ∃ symbols services p, SymbolTable.ofDocument d = .ok symbols ∧
      d.serviceDeclarations d.root = .ok services ∧
      Through (Scope.ServiceVerdict ⟨d, settings, symbols⟩) services
        ⟨[], Scope.start ⟨d, settings, symbols⟩ []⟩ ⟨app.functions, p⟩ ∧
      p.log = log := by
  obtain ⟨symbols, services, p, ht, hs, hthrough, hlog, -⟩ := replay hd.wellFormed hd.names h
  refine ⟨symbols, services, p, ht, hs, ?_, hlog⟩
  refine (hthrough.simulate (I := fun s => Registered s.functions s.progress) (g := id)
    (Scope.registered_start _ []) ?_).2
  intro s hmem t u hreg hstep
  obtain ⟨hn, hk⟩ := has_service hs hmem
  exact Scope.verdict_of_serviceStep hd ht hn hk hreg hstep

set_option maxRecDepth 100000 in
theorem Document.regular_twoTicks : twoTicks.Regular where
  wellFormed := wellFormed_twoTicks
  names := namesAreTokens_twoTicks
  targets := fun n hn _ token ht _ => (name_twoTicks n hn).2 token ht
  types := by
    have htypes : ∀ n, twoTicks.Has n → ¬(SyntaxKind.ofType n.type = .typedParameter ∨
        SyntaxKind.ofType n.type = .typedDefaultParameter) := by decide +kernel
    intro n hn hk
    refine absurd ?_ (htypes n hn)
    rcases hk with hk | hk
    · exact .inl (ofType_of_kind hk (by simp) (by simp))
    · exact .inr (ofType_of_kind hk (by simp) (by simp))

/-- The rules make a service of the class with two methods of one name, and one function. -/
theorem Document.acceptance_twoTicks : twoTicks.Regular ∧
    ∃ log app, twoTicks.analyze {} = ⟨log, .ok app⟩ ∧
      log.map Diagnostic.code = [.duplicateFunctionName] ∧
      app.functions.map FunctionDescriptor.handler = ["T.a"] ∧
      ∃ symbols services p, SymbolTable.ofDocument twoTicks = .ok symbols ∧
        twoTicks.serviceDeclarations twoTicks.root = .ok services ∧
        Through (Scope.ServiceVerdict ⟨twoTicks, {}, symbols⟩) services
          ⟨[], Scope.start ⟨twoTicks, {}, symbols⟩ []⟩ ⟨app.functions, p⟩ ∧
        p.log = log := by
  obtain ⟨log, app, h, hlog, hfs⟩ := analyze_twoTicks
  exact ⟨regular_twoTicks, log, app, h, hlog, hfs, acceptance regular_twoTicks h⟩

end AppManifest
