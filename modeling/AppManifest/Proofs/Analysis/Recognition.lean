import AppManifest.Proofs.Analysis.Determinacy
import AppManifest.Proofs.Syntax.Arguments

namespace AppManifest
set_option autoImplicit true

/-! Arguments that a marker does not know are warned about and have no other effect: without them,
every declaration comes to the same. -/

/-- The diagnostics that are not about arguments of markers. -/
def Log.muted (log : Log) : Log :=
  log.filter fun d => ¬d.IsArgumentWarning

def Progress.muted (p : Progress) : Progress :=
  { p with log := p.log.muted }

def Standing.muted (s : Standing) : Standing :=
  { s with progress := s.progress.muted }

/-- The marker without the fields that it does not know and without positional arguments. -/
def Marker.recognized (a : Marker) : Marker :=
  { a with fields := a.fields.filter fun f => f.name ∈ allowedFields a.name, positional := [] }

def ServiceDeclaration.recognized (s : ServiceDeclaration) : ServiceDeclaration :=
  { s with service := s.service.recognized }

def TriggerMethod.recognized (m : TriggerMethod) : TriggerMethod :=
  { m with
    trigger := m.trigger.recognized
    outputs := m.outputs.map fun o => (o.1, o.2.recognized) }

/-- The markers of a method are those of a trigger and of outputs. -/
structure TriggerMethod.IsMarked (m : TriggerMethod) : Prop where
  trigger : isTrigger m.trigger.name = true
  outputs : ∀ o ∈ m.outputs, OutputKind.ofMarker? o.2.name = some o.1

namespace Scope

/-- The step of a service without the arguments that its markers do not know. -/
inductive RecognizedStep (c : Scope) (s : ServiceDeclaration) : Standing → Standing → Prop
  | rejected (h : (c.service s.recognized).Ends p (.error (.rejected e)) q) :
      RecognizedStep c s ⟨functions, p⟩ ⟨functions, q.note e⟩
  | accepted {service : Service} {methods : List TriggerMethod}
      (h : (c.service s.recognized).Ends p (.ok service) q)
      (hm : (c.methodSymbols s.definition).filterMapM (c.triggerMethod? s.definition) = .ok methods)
      (ht : Through (fun m => c.MethodStep service m.recognized) methods ⟨functions, q⟩
        ⟨functions', r⟩) :
      RecognizedStep c s ⟨functions, p⟩ ⟨functions', c.leave s.definition methods r⟩

end Scope

namespace Log

theorem muted_append (log more : Log) : muted (log ++ more) = muted log ++ muted more :=
  List.filter_append ..

theorem muted_of_other {notes : Log} (h : ∀ d ∈ notes, ¬d.IsArgumentWarning) :
    muted notes = notes :=
  filter_of_all h

theorem muted_of_all {notes : Log} (h : ∀ d ∈ notes, d.IsArgumentWarning) : muted notes = [] :=
  filter_of_none fun d hd => not_not_intro (h d hd)

end Log

theorem Progress.muted_note {d : Diagnostic} (h : ¬d.IsArgumentWarning) (p : Progress) :
    (p.note d).muted = p.muted.note d := by
  rw [muted, note, Log.muted_append, Log.muted_of_other (List.forall_mem_singleton.2 h)]
  rfl

theorem Marker.allows {a : Marker} {name field : String} (ha : a.name = name)
    (h : field ∈ allowedFields name) : field ∈ allowedFields a.name := by
  rwa [ha]

/-- A field that the marker knows is found among those that it knows. -/
theorem Marker.field?_recognized {a : Marker} {name : String} (h : name ∈ allowedFields a.name) :
    a.recognized.field? name = a.field? name := by
  rw [field?, recognized, List.find?_filter, field?]
  congr 1
  funext f
  by_cases hf : f.name = name
  · simp [hf, h]
  · simp [hf]

theorem ServiceKind.eq_marker {name : String} {kind : ServiceKind}
    (h : ofMarker? name = some kind) : name = kind.marker := by
  have hname := List.find?_some h
  exact (of_decide_eq_true hname).symm

theorem OutputKind.eq_marker {name : String} {kind : OutputKind}
    (h : ofMarker? name = some kind) : name = kind.marker := by
  have hname := List.find?_some h
  exact (of_decide_eq_true hname).symm

namespace Analysis

/-- The second step does without warnings about arguments what the first one does. -/
def Mutes (x y : Analysis α) : Prop :=
  ∀ p r q, x.Ends p r q → y.Ends p.muted r q.muted

theorem mutes_lift {x y : Except Halt α} (h : y = x) :
    (liftM x : Analysis α).Mutes (liftM y) := by
  intro p r q hx
  obtain ⟨hr, rfl⟩ := ends_lift.1 hx
  exact ends_lift.2 ⟨h.trans hr, rfl⟩

theorem mutes_pure (a : α) : (pure a : Analysis α).Mutes (pure a) := by
  intro p r q hx
  obtain ⟨hr, rfl⟩ := ends_pure.1 hx
  exact ends_pure.2 ⟨hr, rfl⟩

theorem mutes_noteAll {ds es : Log} (h : es = ds.muted) : (noteAll ds).Mutes (noteAll es) := by
  intro p r q hx
  obtain ⟨hr, rfl⟩ := ends_noteAll.1 hx
  refine ends_noteAll.2 ⟨hr, ?_⟩
  rw [h, Progress.muted, Progress.muted, Log.muted_append]

theorem mutes_note {d : Diagnostic} (h : ¬d.IsArgumentWarning) : (note d).Mutes (note d) := by
  intro p r q hx
  obtain ⟨hr, rfl⟩ := ends_note.1 hx
  exact ends_note.2 ⟨hr, (Progress.muted_note h p).symm⟩

theorem mutes_modify {f : Progress → Progress} (h : ∀ p, (f p).muted = f p.muted) :
    (modify f : Analysis PUnit).Mutes (modify f) := by
  intro p r q hx
  obtain ⟨hr, rfl⟩ := ends_modify.1 hx
  exact ends_modify.2 ⟨hr, (h p).symm⟩

theorem Mutes.bind {x x' : Analysis α} {f f' : α → Analysis β} (hx : x.Mutes x')
    (hf : ∀ a, (f a).Mutes (f' a)) : (x >>= f).Mutes (x' >>= f') := by
  intro p r q h
  obtain ⟨r', m, hm⟩ := x.exists_ends p
  cases r' with
  | ok a => exact (ends_bind_of_ok (hx _ _ _ hm)).2 (hf a _ _ _ ((ends_bind_of_ok hm).1 h))
  | error e =>
    obtain ⟨hr, rfl⟩ := (ends_bind_of_error hm).1 h
    exact (ends_bind_of_error (hx _ _ _ hm)).2 ⟨hr, rfl⟩

/-- What a step reads from its progress must not lie in the warnings. -/
theorem Mutes.get_bind {f f' : Progress → Analysis β} (hf : ∀ p, (f p).Mutes (f' p.muted)) :
    ((get : Analysis Progress) >>= f).Mutes (get >>= f') := by
  intro p r q h
  have h := (ends_bind_of_ok (ends_get.2 ⟨rfl, rfl⟩)).1 h
  exact (ends_bind_of_ok (ends_get.2 ⟨rfl, rfl⟩)).2 (hf p _ _ _ h)

end Analysis

namespace Scope

open Analysis

variable {c : Scope} {a : Marker} {service : Service} {m : TriggerMethod} {p q : Progress}

theorem anchor_recognized (h : name ∈ allowedFields a.name) :
    anchor a.recognized name = anchor a name := by
  rw [anchor, Marker.field?_recognized h]
  rfl

theorem required_recognized (h : name ∈ allowedFields a.name) :
    c.required a.recognized name = c.required a name := by
  rw [required, Marker.field?_recognized h]
  rfl

theorem optional_recognized (h : name ∈ allowedFields a.name) :
    c.optional a.recognized name = c.optional a name := by
  rw [optional, Marker.field?_recognized h]
  rfl

theorem positive?_recognized (h : name ∈ allowedFields a.name) :
    c.positive? a.recognized name = c.positive? a name := by
  rw [positive?, optional_recognized h, anchor_recognized h]
  rfl

theorem pathValue_recognized (h : name ∈ allowedFields a.name) :
    c.pathValue a.recognized name = c.pathValue a name := by
  rw [pathValue, Marker.field?_recognized h]
  rfl

/-- Without the arguments that it does not know, a marker is not warned about. -/
theorem argumentWarnings_recognized (c : Scope) (a : Marker) :
    c.argumentWarnings a.recognized = Log.muted (c.argumentWarnings a) := by
  rw [Log.muted_of_all fun d hd => argumentWarning_of_mem hd]
  have hknown : (a.recognized.fields.filter fun f => f.name ∉ allowedFields a.name) = [] := by
    apply List.filter_eq_nil_iff.2
    intro f hf
    have hmem := (List.mem_filter.1 hf).2
    simpa using hmem
  have hwarnings : c.argumentWarnings a.recognized = List.map _ (a.recognized.fields.filter
      fun f => f.name ∉ allowedFields a.name) ++ [] := rfl
  rw [hwarnings, hknown]
  rfl

theorem mutes_argumentWarnings (c : Scope) (a : Marker) :
    (noteAll (c.argumentWarnings a)).Mutes (noteAll (c.argumentWarnings a.recognized)) :=
  mutes_noteAll (argumentWarnings_recognized c a)

theorem mutes_keep {setting : QueueSetting} (h : setting.field ∈ allowedFields a.name) (value : Int)
    (host : HostSettings) :
    (c.keep a setting value host).Mutes (c.keep a.recognized setting value host) := by
  rw [keep, keep, anchor_recognized h]
  cases setting.get host with
  | none => exact mutes_modify fun _ => rfl
  | some kept =>
    dsimp only
    split
    · exact mutes_pure _
    · apply mutes_note
      exact Diagnostic.not_isArgumentWarning_of_code (k := .conflictingHostSetting) rfl (by decide)

theorem mutes_supply {setting : QueueSetting} (h : setting.field ∈ allowedFields a.name) :
    (c.supply a setting).Mutes (c.supply a.recognized setting) := by
  apply (mutes_lift (positive?_recognized h)).bind
  intro given
  cases given with
  | none => exact mutes_pure _
  | some value => exact Mutes.get_bind fun p => mutes_keep h value p.host

theorem mutes_serviceSettings (h : ServiceKind.ofMarker? a.name = some kind) :
    (c.serviceSettings kind a).Mutes (c.serviceSettings kind a.recognized) := by
  have hname := ServiceKind.eq_marker h
  cases kind with
  | http =>
    have hlevel : "auth_level" ∈ allowedFields a.name := Marker.allows hname (by decide)
    apply (mutes_lift (optional_recognized hlevel)).bind
    intro given
    dsimp only
    rw [anchor_recognized hlevel]
    split
    · have hpath : "base_path" ∈ allowedFields a.name := Marker.allows hname (by decide)
      exact (mutes_lift (pathValue_recognized hpath)).bind fun _ => mutes_pure _
    · exact mutes_lift rfl
  | queue =>
    apply (mutes_lift (required_recognized (Marker.allows hname (by decide)))).bind
    intro queueName
    apply (mutes_lift (required_recognized (Marker.allows hname (by decide)))).bind
    intro connection
    apply (mutes_supply (Marker.allows hname (by decide))).bind
    intro _
    exact (mutes_supply (Marker.allows hname (by decide))).bind fun _ => mutes_pure _
  | timer =>
    have hschedule : "schedule" ∈ allowedFields a.name := Marker.allows hname (by decide)
    apply (mutes_lift (required_recognized hschedule)).bind
    intro schedule
    rw [anchor_recognized hschedule]
    split
    · exact mutes_pure _
    · exact mutes_lift rfl

theorem mutes_service {s : ServiceDeclaration}
    (h : ServiceKind.ofMarker? s.service.name = some s.kind) :
    (c.service s).Mutes (c.service s.recognized) := by
  apply (mutes_lift rfl).bind
  intro className
  apply (mutes_lift rfl).bind
  intro _
  apply (mutes_argumentWarnings c s.service).bind
  intro _
  exact (mutes_serviceSettings h).bind fun _ => mutes_pure _

theorem httpDraft_recognized (h : a.name = ServiceKind.http.trigger) (routeStart level : String) :
    c.httpDraft routeStart level a.recognized = c.httpDraft routeStart level a := by
  rw [httpDraft, required_recognized (Marker.allows h (by decide)),
    pathValue_recognized (Marker.allows h (by decide)),
    anchor_recognized (Marker.allows h (by decide))]
  rfl

theorem draft_recognized (h : m.trigger.name = service.settings.kind.trigger) (name : String) :
    c.draft service m.recognized name = c.draft service m name := by
  unfold Scope.draft
  cases hs : service.settings with
  | http routeStart authLevel =>
    rw [hs] at h
    have htrigger : m.recognized.trigger = m.trigger.recognized := rfl
    dsimp only
    rw [htrigger, httpDraft_recognized h]
    rfl
  | queue queueName connection => rfl
  | timer schedule => rfl

theorem outputBinding_recognized (h : OutputKind.ofMarker? a.name = some kind) :
    c.outputBinding kind a.recognized = c.outputBinding kind a := by
  have hname := OutputKind.eq_marker h
  unfold outputBinding
  cases kind with
  | queue =>
    dsimp only
    rw [required_recognized (Marker.allows hname (by decide)),
      required_recognized (Marker.allows hname (by decide))]
  | blob =>
    dsimp only
    rw [required_recognized (Marker.allows hname (by decide)),
      required_recognized (Marker.allows hname (by decide))]

/-- A second marker is rejected where it stands, whatever its arguments are. -/
theorem single_recognized (c : Scope) (role : String) (more : List (OutputKind × Marker)) :
    c.single role ((more.map fun o => (o.1, o.2.recognized)).map Prod.snd) =
      c.single role (more.map Prod.snd) := by
  cases more with
  | nil => rfl
  | cons second rest => rfl

theorem mutes_outputBindings (h : ∀ o ∈ m.outputs, OutputKind.ofMarker? o.2.name = some o.1) :
    (c.outputBindings m).Mutes (c.outputBindings m.recognized) := by
  rw [outputBindings, outputBindings, TriggerMethod.recognized]
  dsimp only
  cases ho : m.outputs with
  | nil => exact mutes_pure _
  | cons o more =>
    rw [ho] at h
    apply (mutes_lift (single_recognized c "output" more)).bind
    intro _
    apply (mutes_argumentWarnings c o.2).bind
    intro _
    exact (mutes_lift (outputBinding_recognized (h o List.mem_cons_self))).bind
      fun _ => mutes_pure _

theorem mutes_propose (h : m.IsMarked) :
    (c.propose service m).Mutes (c.propose service m.recognized) := by
  apply (mutes_lift rfl).bind
  intro _
  have htrigger : m.recognized.trigger.name = m.trigger.name := rfl
  rw [htrigger]
  split
  next ht =>
    apply (mutes_argumentWarnings c m.trigger).bind
    intro _
    apply (mutes_lift rfl).bind
    intro methodName
    apply (mutes_lift (draft_recognized ht methodName)).bind
    intro draft
    exact (mutes_outputBindings h.outputs).bind fun _ => mutes_pure _
  next => exact mutes_lift rfl

theorem name_allowed (h : isTrigger name = true) : "name" ∈ allowedFields name := by
  obtain ⟨kind, -, hk⟩ := List.any_eq_true.1 h
  rw [← of_decide_eq_true hk]
  cases kind with
  | http => decide
  | queue => decide
  | timer => decide

theorem nameAnchor_recognized (h : "name" ∈ allowedFields m.trigger.name)
    (explicit : Option String) : nameAnchor m.recognized explicit = nameAnchor m explicit := by
  cases explicit with
  | none => rfl
  | some name => exact anchor_recognized h

theorem mutes_assignName (h : isTrigger m.trigger.name = true) (fallback : String) :
    (c.assignName m fallback).Mutes (c.assignName m.recognized fallback) := by
  have hallowed := name_allowed h
  apply (mutes_lift (optional_recognized hallowed)).bind
  intro explicit
  dsimp only
  rw [nameAnchor_recognized hallowed]
  split
  · exact mutes_lift rfl
  · apply Mutes.get_bind
    intro p
    change Mutes (if explicit.getD fallback ∈ p.names then _ else _)
      (if explicit.getD fallback ∈ p.names then _ else _)
    split
    · exact mutes_lift rfl
    · apply Mutes.bind (mutes_modify _) fun _ => mutes_pure _
      exact fun _ => rfl

theorem mutes_analyzeFunction (h : m.IsMarked) :
    (c.analyzeFunction service m).Mutes (c.analyzeFunction service m.recognized) := by
  apply (mutes_propose h).bind
  intro proposal
  apply (mutes_assignName h.trigger proposal.draft.defaultName).bind
  intro name
  have hnotes := Log.muted_of_other fun d hd => Diagnostic.not_isArgumentWarning_of_code
    (notes_methodNotes c service m proposal.draft name d hd) (by decide)
  exact (mutes_noteAll hnotes.symm).bind fun _ => mutes_pure _

theorem isMarked_of_triggerMethod? (h : c.triggerMethod? definition symbol = .ok (some m)) :
    m.IsMarked := by
  have h := triggerMethod?_eq_ok.1 h
  split at h
  next => cases h
  next n _ =>
    obtain ⟨_, -, h⟩ := h
    split at h
    next =>
      obtain ⟨-, markers, -, htrigger, houtputs⟩ := Document.triggerMethod?_some h
      have hmem : m.trigger ∈ markers.filter fun a => isTrigger a.name := by
        rw [htrigger]
        exact List.mem_cons_self
      refine ⟨(List.mem_filter.1 hmem).2, fun o ho => ?_⟩
      rw [houtputs] at ho
      obtain ⟨a, -, ha⟩ := List.mem_filterMap.1 ho
      obtain ⟨kind, hkind, rfl⟩ := Option.map_eq_some_iff.1 ha
      exact hkind
    next => cases h

theorem MethodStep.recognized {u v : Standing} (hm : m.IsMarked) (h : c.MethodStep service m u v) :
    c.MethodStep service m.recognized u.muted v.muted := by
  cases h with
  | emitted h => exact .emitted (mutes_analyzeFunction hm _ _ _ h)
  | rejected h =>
    have he := Diagnostic.not_isArgumentWarning_of_isError (log_of_rejected_function h).1
    simp only [Standing.muted, Progress.muted_note he]
    exact .rejected (mutes_analyzeFunction hm _ _ _ h)

theorem muted_leave (c : Scope) (definition : Node) (methods : List TriggerMethod)
    (p : Progress) :
    (c.leave definition methods p).muted = c.leave definition methods p.muted := by
  have hnotes : Log.muted (if methods.isEmpty then [c.withoutTriggers definition] else []) =
      if methods.isEmpty then [c.withoutTriggers definition] else [] := by
    apply Log.muted_of_other
    intro d hd
    split at hd
    next =>
      cases List.mem_singleton.1 hd
      exact Diagnostic.not_isArgumentWarning_of_code (k := .noTriggerFunctions) rfl (by decide)
    next => cases hd
  rw [leave, leave, Progress.muted, Log.muted_append, hnotes]
  rfl

/-- A service that is attempted takes its step without the arguments that its markers do not know.
-/
theorem ServiceAttempt.recognized {s : ServiceDeclaration} {u v : Standing}
    (hs : ServiceKind.ofMarker? s.service.name = some s.kind) (h : c.ServiceAttempt s u v) :
    c.RecognizedStep s u.muted v.muted := by
  cases h with
  | intro h =>
    rcases attempt_ok h with ⟨functions, rfl, hx⟩ | ⟨e, r, rfl, hx, rfl⟩
    · obtain ⟨service, r, results, r', hservice, hrun, rfl, rfl⟩ := analyzeService_ok.1 hx
      obtain ⟨methods, hms, htriggers, hthrough⟩ := through_symbols _ hrun
      rw [Option.getD_some, ← leave_eq htriggers, Standing.muted, Standing.muted, muted_leave]
      refine .accepted (mutes_service hs _ _ _ hservice) hms ?_
      apply (hthrough.simulate (I := fun _ => True) (g := Standing.muted) trivial ?_).2
      intro m hm u v _ hstep
      obtain ⟨symbol, -, hsymbol⟩ := (mem_of_filterMapM_eq_ok hms).1 hm
      exact ⟨trivial, hstep.recognized (isMarked_of_triggerMethod? hsymbol)⟩
    · have hr := analyzeService_rejected.1 hx
      have he := Diagnostic.not_isArgumentWarning_of_isError ((steady_service c s).halt hr).1
      rw [Option.getD_none, List.append_nil]
      simp only [Standing.muted, Progress.muted_note he]
      exact .rejected (mutes_service hs _ _ _ hr)

end Scope

theorem Document.ofMarker?_service {d : Document}
    (h : d.serviceDeclaration? statement = .ok (some s)) :
    ServiceKind.ofMarker? s.service.name = some s.kind := by
  obtain ⟨-, -, -, markers, more, -, hservices, -⟩ := serviceDeclaration?_some h
  have hmem : (s.kind, s.service) ∈ serviceMarkers markers := by
    rw [hservices]
    exact List.mem_cons_self
  obtain ⟨a, -, ha⟩ := List.mem_filterMap.1 hmem
  obtain ⟨kind, hkind, he⟩ := Option.map_eq_some_iff.1 ha
  cases he
  exact hkind

/-- A run comes to the same app without the arguments that no marker knows, and reports the same but
for the warnings about them. -/
theorem Document.recognized_run {d : Document}
    (h : (Scope.analyzeStatements ⟨d, settings, symbols⟩ d.root.children).Ends
      (Scope.start ⟨d, settings, symbols⟩ before) (.ok functions) p) :
    ∃ services, d.serviceDeclarations d.root = .ok services ∧
      Through (Scope.RecognizedStep ⟨d, settings, symbols⟩) services
        ⟨[], Scope.start ⟨d, settings, symbols⟩ before.muted⟩ ⟨functions, p.muted⟩ := by
  obtain ⟨services, hservices, hthrough⟩ := Scope.through_services [] h
  refine ⟨services, hservices, ?_⟩
  apply (hthrough.simulate (I := fun _ => True) (g := Standing.muted) trivial ?_).2
  intro s hs u v _ hstep
  obtain ⟨statement, -, hs⟩ := (mem_of_filterMapM_eq_ok hservices).1 hs
  exact ⟨trivial, hstep.recognized (ofMarker?_service hs)⟩

namespace Document

/-- A child of the argument list of a marker becomes a field or a positional argument, in their
order, or it is dropped, and it is only one of these. A run warns about the markers that it checks,
which the module determines: first about each field that the marker does not know, then about each
positional argument. It gives no other warnings about arguments, and without those arguments it
comes to the same app and reports the rest of the log. -/
theorem marker_arguments {d : Document} (h : d.analyzeInto before settings = ⟨log, result⟩) :
    (∀ decorator call, d.decoratorExpression decorator.children = .ok call →
      d.kind call = .ok .call →
      ((∀ n, n.Below decorator → ∃ t, d.text n = .ok t) → ∃ a, d.marker decorator = .ok a) ∧
      ∀ a, d.marker decorator = .ok a → d.Splits (argumentNodes call) a.fields a.positional ∧
        ∀ child ∈ argumentNodes call, ∃! role, d.HasRole child role) ∧
    ((∃ f, SymbolTable.ofDocument d = .error f ∧ result = .error f ∧ log = before) ∨
      ∃ symbols markers parts, SymbolTable.ofDocument d = .ok symbols ∧
        Collects d.serviceDeclaration? (Scope.ChecksService ⟨d, settings, symbols⟩)
          d.root.children result.isOk markers ∧
        (∀ done markers', Collects d.serviceDeclaration?
          (Scope.ChecksService ⟨d, settings, symbols⟩) d.root.children done markers' →
            done = result.isOk ∧ markers' = markers) ∧
        List.Forall₂ (Scope.Warns ⟨d, settings, symbols⟩) markers parts ∧
        log.onArguments = before.onArguments ++ parts.flatten ∧
        ∀ app, result = .ok app → ∃ services p, d.serviceDeclarations d.root = .ok services ∧
          Through (Scope.RecognizedStep ⟨d, settings, symbols⟩) services
            ⟨[], Scope.start ⟨d, settings, symbols⟩ before.muted⟩ ⟨app.functions, p⟩ ∧
          p.host = app.host ∧ p.log = log.muted) := by
  constructor
  · intro decorator call hcall hk
    refine ⟨exists_marker hcall hk, fun a ha => ?_⟩
    have hsplits := splits_of_marker hcall hk ha
    refine ⟨hsplits, fun child hc => ?_⟩
    obtain ⟨role, hrole⟩ := hsplits.exists_role hc
    exact ⟨role, hrole, fun _ h' => h'.unique hrole⟩
  · rcases warnedOf_run h with hfault | ⟨symbols, markers, ht, hmarkers, hlog⟩
    · exact .inl hfault
    · refine .inr ⟨symbols, markers, _, ht, hmarkers, ?_, ?_, hlog, ?_⟩
      · intro done markers' h'
        exact Scope.checks_unique (c := ⟨d, settings, symbols⟩) h' hmarkers
      · rw [List.forall₂_map_right_iff]
        exact List.forall₂_same.2 fun a _ => Scope.warns_argumentWarnings _ a
      · rintro app rfl
        obtain ⟨symbols', functions, p, ht', hrun, rfl, rfl⟩ := analyzeInto_ok.1 h
        cases ht.symm.trans ht'
        obtain ⟨services, hservices, hthrough⟩ := recognized_run hrun
        exact ⟨services, p.muted, hservices, hthrough, rfl, rfl⟩

/-- A service, a trigger and an output with arguments that their markers do not know. -/
def wordyTick : Document where
  path := "tick.py"
  source := ("@timer_service(1, schedule='* * * * * *', x=2)\nclass T:\n @on_tick(3, y=4)\n" ++
    " @blob_output(path='', connection='', z=5)\n def a(): 0\n").toUTF8
  tree :=
    .node "module" 0 129 "" [
      .node "decorated_definition" 0 128 "" [
        .node "decorator" 0 46 "" [
          .node "@" 0 1 "" [],
          .node "call" 1 46 "" [
            .node "identifier" 1 14 "function" [],
            .node "argument_list" 14 46 "arguments" [
              .node "(" 14 15 "" [],
              .node "integer" 15 16 "" [],
              .node "," 16 17 "" [],
              .node "keyword_argument" 18 40 "" [
                .node "identifier" 18 26 "name" [],
                .node "=" 26 27 "" [],
                .node "string" 27 40 "value" []],
              .node "," 40 41 "" [],
              .node "keyword_argument" 42 45 "" [
                .node "identifier" 42 43 "name" [],
                .node "=" 43 44 "" [],
                .node "integer" 44 45 "value" []],
              .node ")" 45 46 "" []]]],
        .node "class_definition" 47 128 "definition" [
          .node "class" 47 52 "" [],
          .node "identifier" 53 54 "name" [],
          .node ":" 54 55 "" [],
          .node "block" 57 128 "body" [
            .node "decorated_definition" 57 128 "" [
              .node "decorator" 57 73 "" [
                .node "@" 57 58 "" [],
                .node "call" 58 73 "" [
                  .node "identifier" 58 65 "function" [],
                  .node "argument_list" 65 73 "arguments" [
                    .node "(" 65 66 "" [],
                    .node "integer" 66 67 "" [],
                    .node "," 67 68 "" [],
                    .node "keyword_argument" 69 72 "" [
                      .node "identifier" 69 70 "name" [],
                      .node "=" 70 71 "" [],
                      .node "integer" 71 72 "value" []],
                    .node ")" 72 73 "" []]]],
              .node "decorator" 75 116 "" [
                .node "@" 75 76 "" [],
                .node "call" 76 116 "" [
                  .node "identifier" 76 87 "function" [],
                  .node "argument_list" 87 116 "arguments" [
                    .node "(" 87 88 "" [],
                    .node "keyword_argument" 88 95 "" [
                      .node "identifier" 88 92 "name" [],
                      .node "=" 92 93 "" [],
                      .node "string" 93 95 "value" []],
                    .node "," 95 96 "" [],
                    .node "keyword_argument" 97 110 "" [
                      .node "identifier" 97 107 "name" [],
                      .node "=" 107 108 "" [],
                      .node "string" 108 110 "value" []],
                    .node "," 110 111 "" [],
                    .node "keyword_argument" 112 115 "" [
                      .node "identifier" 112 113 "name" [],
                      .node "=" 113 114 "" [],
                      .node "integer" 114 115 "value" []],
                    .node ")" 115 116 "" []]]],
              .node "function_definition" 118 128 "definition" [
                .node "def" 118 121 "" [],
                .node "identifier" 122 123 "name" [],
                .node "parameters" 123 125 "parameters" [
                  .node "(" 123 124 "" [],
                  .node ")" 124 125 "" []],
                .node ":" 125 126 "" [],
                .node "block" 127 128 "body" [
                  .node "expression_statement" 127 128 "" [
                    .node "integer" 127 128 "" []]]]]]]]]

/-- The method becomes a function, with a warning about each of the five arguments. -/
theorem analyze_wordyTick : ∃ log app, wordyTick.analyzeInto [] {} = ⟨log, .ok app⟩ ∧
    log.map Diagnostic.code = [.unknownField, .positionalArgument, .unknownField,
      .positionalArgument, .unknownField] ∧
    app.functions.map FunctionDescriptor.handler = ["T.a"] := by
  let observe (log : Log) (app : FunctionApp) :=
    (log.map Diagnostic.code, app.functions.map FunctionDescriptor.handler)
  have h : (wordyTick.analyze {}).result.toOption.map (observe (wordyTick.analyze {}).log) =
      some ([.unknownField, .positionalArgument, .unknownField, .positionalArgument,
        .unknownField], ["T.a"]) := by decide +kernel
  obtain ⟨log, app, hrun, hseen⟩ := Outcome.ok_of_observed h
  obtain ⟨hlog, hfs⟩ := Prod.mk.inj hseen
  exact ⟨log, app, hrun, hlog, hfs⟩

/-- The service marker has two fields and a positional argument. The run warns about its unknown
field, and about the arguments of the other markers, and the app is the one without them. -/
theorem marker_arguments_wordyTick : ∃ log app decorator call a symbols markers parts services p,
    wordyTick.analyzeInto [] {} = ⟨log, .ok app⟩ ∧
    log.map Diagnostic.code = [.unknownField, .positionalArgument, .unknownField,
      .positionalArgument, .unknownField] ∧
    app.functions.map FunctionDescriptor.handler = ["T.a"] ∧
    wordyTick.root.descend? [0, 0] = some decorator ∧ wordyTick.marker decorator = .ok a ∧
    (a.fields.map MarkerField.name, a.positional.length) = (["schedule", "x"], 1) ∧
    wordyTick.Splits (argumentNodes call) a.fields a.positional ∧
    Collects wordyTick.serviceDeclaration? (Scope.ChecksService ⟨wordyTick, {}, symbols⟩)
      wordyTick.root.children true markers ∧
    List.Forall₂ (Scope.Warns ⟨wordyTick, {}, symbols⟩) markers parts ∧
    log.onArguments = parts.flatten ∧ wordyTick.serviceDeclarations wordyTick.root = .ok services ∧
    Through (Scope.RecognizedStep ⟨wordyTick, {}, symbols⟩) services
      ⟨[], Scope.start ⟨wordyTick, {}, symbols⟩ []⟩ ⟨app.functions, p⟩ := by
  obtain ⟨log, app, h, hcodes, hfunctions⟩ := analyze_wordyTick
  obtain ⟨hsplits, hrun⟩ := marker_arguments h
  obtain ⟨decorator, hdecorator⟩ : ∃ n, wordyTick.root.descend? [0, 0] = some n := ⟨_, rfl⟩
  have hseen : ((wordyTick.root.descend? [0, 0]).bind fun n =>
      (wordyTick.decoratorExpression n.children).toOption.bind fun call =>
      (wordyTick.marker n).toOption.map fun a => ((wordyTick.kind call).toOption,
        a.fields.map MarkerField.name, a.positional.length)) =
      some (some .call, ["schedule", "x"], 1) := by decide +kernel
  rw [hdecorator, Option.bind_some] at hseen
  obtain ⟨call, hcall, hseen⟩ := Option.bind_eq_some_iff.1 hseen
  obtain ⟨a, ha, hseen⟩ := Option.map_eq_some_iff.1 hseen
  obtain ⟨hk, hfields⟩ := Prod.mk.inj hseen
  have hmarker := eq_ok_of_toOption ha
  have hchildren := (hsplits decorator call (eq_ok_of_toOption hcall) (eq_ok_of_toOption hk)).2
  rcases hrun with ⟨_, -, hfault, -⟩ |
      ⟨symbols, markers, parts, -, hmarkers, -, hparts, hlog, hsame⟩
  · cases hfault
  · obtain ⟨services, p, hservices, hthrough, -⟩ := hsame app rfl
    exact ⟨log, app, decorator, call, a, symbols, markers, parts, services, p, h, hcodes,
      hfunctions, hdecorator, hmarker, hfields, (hchildren a hmarker).1, hmarkers, hparts, hlog,
      hservices, hthrough⟩

end Document

end AppManifest
