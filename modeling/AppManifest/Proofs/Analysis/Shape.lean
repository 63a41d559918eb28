import AppManifest.Proofs.Analysis.Acceptance
import AppManifest.Proofs.Analysis.HostHistory
import AppManifest.Proofs.Route.Joining

namespace AppManifest
set_option autoImplicit true

/-! The bindings of the functions that a run emits. -/

/-- A route that is written out: it is not empty and has no slash at either end. -/
def IsRoute (route : String) : Prop :=
  route ≠ "" ∧ IsTrimmed route.toList

/-- The trigger of a function, by the kind of its service; all other fields are absent. -/
inductive Binding.IsTrigger : ServiceKind → Binding → Prop
  | http {methods : Option (List String)} {route : Option String}
      (hl : level = "anonymous" ∨ level = "function" ∨ level = "admin")
      (hm : ∀ ms ∈ methods, ∃ m ∈ ["get", "post", "put", "patch", "delete", "head", "options"],
        ms = [m])
      (hr : ∀ r ∈ route, IsRoute r) :
      IsTrigger .http { type := "httpTrigger", direction := "in", name := "httpPayload",
                        authLevel := some level, methods := methods, route := route }
  | queue {queueName connection : String} :
      IsTrigger .queue { type := "queueTrigger", direction := "in", name := "inMsg",
                         queueName := some queueName, connection := some connection }
  | timer {schedule : String} (hw : (Text.words schedule.toList).length = 6) :
      IsTrigger .timer { type := "timerTrigger", direction := "in", name := "inMsg",
                         schedule := some schedule }

/-- Where a function sends its result besides the caller. -/
inductive Binding.IsOutput : Binding → Prop
  | queue {queueName connection : String} :
      IsOutput { type := "queue", direction := "out", name := "outMsg",
                 queueName := some queueName, connection := some connection }
  | blob {path connection : String} :
      IsOutput { type := "blob", direction := "out", name := "outMsg", path := some path,
                 connection := some connection, dataType := some "string" }

/-- What follows the trigger of each function of a service. -/
def ServiceKind.responses : ServiceKind → List Binding
  | http => [{ type := "http", direction := "out", name := "resp" }]
  | _ => []

namespace FunctionDescriptor

/-- The bindings of a function: its trigger and what follows that, with at most one output. -/
structure HasShape (kind : ServiceKind) (f : FunctionDescriptor) : Prop where
  bindings : ∃ trigger outputs, Binding.IsTrigger kind trigger ∧
    f.bindings = trigger :: kind.responses ++ outputs ∧ outputs.length ≤ 1 ∧
    ∀ b ∈ outputs, b.IsOutput
  input : (f.bindings.filter fun b => b.direction = "in").length = 1
  names : (f.bindings.map Binding.name).Nodup

/-- A function that is called with any method. -/
def acceptsAllMethods (f : FunctionDescriptor) : Bool :=
  f.bindings.head?.any fun b => b.type = "httpTrigger" && b.methods.isNone

end FunctionDescriptor

/-- What an accepted service hands on to its functions is in order. -/
def ServiceSettings.IsValid : ServiceSettings → Prop
  | http _ level => level = "anonymous" ∨ level = "function" ∨ level = "admin"
  | queue .. => True
  | timer schedule => (Text.words schedule.toList).length = 6

/-- The notes of one run and the next on functions that accept every method. -/
def Announces (functions : List FunctionDescriptor) (p q : Progress) : Prop :=
  (q.log.about .acceptsAllMethods).map Diagnostic.message =
    (p.log.about .acceptsAllMethods).map Diagnostic.message ++
      (functions.filter FunctionDescriptor.acceptsAllMethods).map fun f =>
        "Function '" ++ f.name ++ "' accepts all HTTP methods"

theorem Finding.message_acceptsAllMethods (name : String) :
    (acceptsAllMethods name).message = "Function '" ++ name ++ "' accepts all HTTP methods" := by
  apply String.toList_inj.1
  rw [message, String.toList_ofList]
  simp only [String.toList_append]
  simp [code, Code.template, arguments, Template.fill]

namespace Announces

variable {p q r : Progress}

theorem append (h : Announces fs p q) (h' : Announces gs q r) : Announces (fs ++ gs) p r := by
  rw [Announces] at *
  rw [h', h, List.filter_append, List.map_append, List.append_assoc]

theorem of_other {notes : Log} (hlog : q.log = p.log ++ notes)
    (h : ∀ d ∈ notes, d.code ≠ .acceptsAllMethods) : Announces [] p q := by
  rw [Announces, hlog, Log.about_append_other h]
  exact (List.append_nil _).symm

theorem nil (p : Progress) : Announces [] p p :=
  of_other (List.append_nil _).symm (List.forall_mem_nil _)

end Announces

namespace Scope

open Analysis

variable {c : Scope} {service : Service} {m : TriggerMethod} {s : ServiceDeclaration}
  {settings : ServiceSettings} {draft : Draft} {p q : Progress}

theorem HasSettings.isValid (h : c.HasSettings a kind settings) :
    settings.kind = kind ∧ settings.IsValid := by
  cases h with
  | http hg hl ha hp => exact ⟨rfl, ha⟩
  | queue hq hc hb hm => exact ⟨rfl, trivial⟩
  | timer hs hw => exact ⟨rfl, hw⟩

theorem isRoute_joinRoute (h : joinRoute parts ≠ "") : IsRoute (joinRoute parts) :=
  ⟨h, trimmed_joinRoute parts⟩

theorem bindings_of_httpDraft
    (hl : level = "anonymous" ∨ level = "function" ∨ level = "admin")
    (h : c.httpDraft base level trigger = .ok draft) : ∃ b, Binding.IsTrigger .http b ∧
      draft.bindings = b :: ServiceKind.http.responses := by
  obtain ⟨given, -, h⟩ := bind_eq_ok.1 h
  dsimp only at h
  split at h
  next hmethod =>
    obtain ⟨path, -, h⟩ := bind_eq_ok.1 h
    cases pure_eq_ok.1 h
    refine ⟨_, .http hl ?_ ?_, rfl⟩
    · intro ms hms
      split at hms
      next => cases hms
      next hany =>
        cases hms
        exact ⟨_, hmethod.resolve_right hany, rfl⟩
    · intro r hr
      split at hr
      next => cases hr
      next hne =>
        cases hr
        exact isRoute_joinRoute hne
  next => cases h

/-- A method begins with the trigger of its service and what follows that. -/
theorem bindings_of_draft (hv : service.settings.IsValid)
    (h : c.draft service m methodName = .ok draft) :
    ∃ b, Binding.IsTrigger service.settings.kind b ∧
      draft.bindings = b :: service.settings.kind.responses := by
  unfold Scope.draft at h
  cases hs : service.settings with
  | http base level =>
    rw [hs] at h hv
    obtain ⟨d, hd, h⟩ := bind_eq_ok.1 h
    obtain ⟨_, -, h⟩ := bind_eq_ok.1 h
    cases pure_eq_ok.1 h
    exact bindings_of_httpDraft hv hd
  | queue queueName connection =>
    rw [hs] at h
    cases pure_eq_ok.1 h
    exact ⟨_, .queue, rfl⟩
  | timer schedule =>
    rw [hs] at h hv
    cases pure_eq_ok.1 h
    exact ⟨_, .timer hv, rfl⟩

theorem isOutput_of_outputBinding (h : c.outputBinding kind output = .ok b) : b.IsOutput := by
  cases kind with
  | queue =>
    obtain ⟨queueName, -, h⟩ := bind_eq_ok.1 h
    obtain ⟨connection, -, h⟩ := bind_eq_ok.1 h
    cases pure_eq_ok.1 h
    exact .queue
  | blob =>
    obtain ⟨path, -, h⟩ := bind_eq_ok.1 h
    obtain ⟨connection, -, h⟩ := bind_eq_ok.1 h
    cases pure_eq_ok.1 h
    exact .blob

theorem outputs_of_outputBindings (h : (c.outputBindings m).Ends p (.ok outputs) q) :
    outputs.length ≤ 1 ∧ ∀ b ∈ outputs, b.IsOutput := by
  unfold outputBindings at h
  split at h
  next =>
    cases (ends_pure.1 h).1
    exact ⟨Nat.zero_le _, List.forall_mem_nil _⟩
  next kind output more _ =>
    obtain ⟨_, _, -, h⟩ := ends_bind_ok.1 h
    obtain ⟨_, _, -, h⟩ := ends_bind_ok.1 h
    obtain ⟨b, _, hb, h⟩ := ends_bind_ok.1 h
    cases (ends_pure.1 h).1
    have houtput := isOutput_of_outputBinding (ends_lift.1 hb).1
    exact ⟨Nat.le_refl _, List.forall_mem_singleton.2 houtput⟩

end Scope

namespace Binding

theorem IsTrigger.direction (h : IsTrigger kind b) : b.direction = "in" := by
  cases h with
  | http => rfl
  | queue => rfl
  | timer => rfl

theorem IsOutput.out (h : IsOutput b) : b.direction = "out" ∧ b.name = "outMsg" := by
  cases h with
  | queue => exact ⟨rfl, rfl⟩
  | blob => exact ⟨rfl, rfl⟩

/-- The trigger and what follows it are told apart by their names, and from an output. -/
theorem IsTrigger.names (h : IsTrigger kind b) :
    ((b :: kind.responses).map name ++ ["outMsg"]).Nodup := by
  cases h with
  | http => simp [ServiceKind.responses]
  | queue => simp [ServiceKind.responses]
  | timer => simp [ServiceKind.responses]

theorem direction_of_mem_responses (h : b ∈ ServiceKind.responses kind) : b.direction = "out" := by
  cases kind with
  | http =>
    cases List.mem_singleton.1 h
    rfl
  | queue => cases h
  | timer => cases h

end Binding

/-- A trigger, what follows it, and at most one output make a function of the right shape. -/
theorem FunctionDescriptor.hasShape_of_bindings {f : FunctionDescriptor}
    (ht : Binding.IsTrigger kind trigger) (hf : f.bindings = trigger :: kind.responses ++ outputs)
    (hlength : outputs.length ≤ 1) (houtputs : ∀ b ∈ outputs, b.IsOutput) : f.HasShape kind where
  bindings := ⟨trigger, outputs, ht, hf, hlength, houtputs⟩
  input := by
    have hout : ∀ b ∈ kind.responses ++ outputs, ¬b.direction = "in" := by
      intro b hb
      have hdirection : b.direction = "out" := by
        rcases List.mem_append.1 hb with hb | hb
        · exact Binding.direction_of_mem_responses hb
        · exact (houtputs b hb).out.1
      rw [hdirection]
      decide
    have hnone : (kind.responses ++ outputs).filter (fun b => b.direction = "in") = [] := by
      apply List.filter_eq_nil_iff.2
      intro b hb
      simpa using hout b hb
    have htrigger : decide (trigger.direction = "in") = true := decide_eq_true ht.direction
    rw [hf, List.cons_append, List.filter_cons, if_pos htrigger, hnone]
    rfl
  names := by
    rw [hf, List.map_append]
    cases outputs with
    | nil =>
      rw [List.map_nil, List.append_nil]
      exact ht.names.sublist (List.sublist_append_left _ _)
    | cons b rest =>
      obtain rfl := List.length_eq_zero_iff.1 (Nat.le_zero.1 (Nat.le_of_succ_le_succ hlength))
      rw [List.map_singleton, (houtputs b List.mem_cons_self).out.2]
      exact ht.names

namespace Scope

open Analysis

variable {c : Scope} {service : Service} {m : TriggerMethod} {s : ServiceDeclaration}
  {settings : ServiceSettings} {draft : Draft} {p q : Progress}

/-- A method is noted to accept every method where its trigger says so, under the name it has. -/
theorem message_methodNotes (ht : Binding.IsTrigger service.settings.kind b)
    (hd : draft.bindings = b :: rest) (hf : f.bindings = b :: more) :
    (c.methodNotes service m draft f.name).map Diagnostic.message =
      ([f].filter FunctionDescriptor.acceptsAllMethods).map fun f =>
        "Function '" ++ f.name ++ "' accepts all HTTP methods" := by
  have hmessage : (c.diagnostic m.trigger.node (.acceptsAllMethods f.name)).message = _ :=
    Finding.message_acceptsAllMethods f.name
  rw [methodNotes, hd, List.filter_singleton, FunctionDescriptor.acceptsAllMethods, hf]
  cases hk : service.settings.kind with
  | http =>
    rw [hk] at ht
    cases ht with
    | @http level methods route hl hm hr =>
      cases methods with
      | none => simpa using hmessage
      | some methods => simp
  | queue =>
    rw [hk] at ht
    cases ht with
    | queue => simp
  | timer =>
    rw [hk] at ht
    cases ht with
    | timer => simp

/-- A method that becomes a function gives it the shape that its service asks for, and is noted
where the function accepts every method. -/
theorem shape_of_analyzeFunction (hv : service.settings.IsValid)
    (h : (c.analyzeFunction service m).Ends p (.ok f) q) :
    f.HasShape service.settings.kind ∧ f.service = service.className ∧ Announces [f] p q := by
  have hservice : f.service = service.className := by
    obtain ⟨proposal, r, name, r', -, -, rfl, -⟩ := analyzeFunction_ok.1 h
    rfl
  obtain ⟨proposal, r, notes, hp, hf, -, hnotes, hlog⟩ := progress_of_analyzeFunction h
  obtain ⟨-, -, -, hdraft, houtputs⟩ := propose_ok.1 hp
  obtain ⟨b, hb, hbindings⟩ := bindings_of_draft hv hdraft
  obtain ⟨hlength, houtput⟩ := outputs_of_outputBindings houtputs
  rw [hbindings] at hf
  refine ⟨FunctionDescriptor.hasShape_of_bindings hb hf hlength houtput, hservice, ?_⟩
  have hother : Log.about notes .acceptsAllMethods = [] :=
    Log.about_of_other fun d hd => (hnotes d hd).code_ne ⟨nofun, nofun⟩
  have hall := Log.about_of_all (notes_methodNotes c service m proposal.draft f.name)
  rw [Announces, hlog, Log.about_append, Log.about_append, hother, List.append_nil, hall,
    List.map_append, message_methodNotes hb hbindings hf]

theorem shape_of_attempt (hv : service.settings.IsValid)
    (h : (attempt (c.analyzeFunction service m)).Ends p (.ok function?) q) :
    (∀ f ∈ function?.toList, f.HasShape service.settings.kind ∧ f.service = service.className) ∧
      Announces function?.toList p q := by
  rcases attempt_ok h with ⟨f, rfl, hf⟩ | ⟨e, r, rfl, hr, rfl⟩
  · obtain ⟨hshape, hservice, hlog⟩ := shape_of_analyzeFunction hv hf
    exact ⟨List.forall_mem_singleton.2 ⟨hshape, hservice⟩, hlog⟩
  · have he := (log_of_rejected_function hr).1
    obtain ⟨-, notes, hnotes, hlog⟩ := progress_of_rejected_function hr
    have hlog' : (r.note e).log = p.log ++ (notes ++ [e]) := by
      rw [← List.append_assoc, ← hlog]
      rfl
    refine ⟨List.forall_mem_nil _, Announces.of_other hlog' ?_⟩
    intro d hd
    rcases List.mem_append.1 hd with hd | hd
    · exact (hnotes d hd).code_ne ⟨nofun, nofun⟩
    · cases List.mem_singleton.1 hd
      exact Diagnostic.code_ne_of_isError he nofun

theorem shapes_of_methods {members : List Symbol} (hv : service.settings.IsValid)
    (h : (c.analyzeMethods service definition members).Ends p (.ok results) q) :
    (∀ f ∈ results.functions, f.HasShape service.settings.kind ∧ f.service = service.className) ∧
      Announces results.functions p q := by
  induction members generalizing p results with
  | nil =>
    obtain ⟨rfl, rfl⟩ := analyzeMethods_nil.1 h
    exact ⟨List.forall_mem_nil _, Announces.nil p⟩
  | cons symbol rest ih =>
    rcases analyzeMethods_cons.1 h with ⟨-, hx⟩ | ⟨m, function?, r, more, -, hf, hm, rfl⟩
    · exact ih hx
    · obtain ⟨hfunction, hnote⟩ := shape_of_attempt hv hf
      obtain ⟨hrest, hnotes⟩ := ih hm
      exact ⟨List.forall_mem_append.2 ⟨hfunction, hrest⟩, hnote.append hnotes⟩

/-- The functions of a declaration have the shape that its kind asks for, and name its class. -/
def Emits (c : Scope) (s : ServiceDeclaration) (functions : List FunctionDescriptor) : Prop :=
  ∀ f ∈ functions, f.HasShape s.kind ∧ c.nameOf s.definition = .ok f.service

theorem announces_of_service (h : (c.service s).Ends p r q) (hr : ¬IsFault r) :
    Announces [] p q := by
  obtain ⟨notes, hlog, hnotes⟩ := log_of_service h hr
  apply Announces.of_other hlog
  intro d hd
  rcases hnotes d hd with hd | hd
  · exact hd.code_ne ⟨nofun, nofun⟩
  · rw [hd]
    exact nofun

theorem shapes_of_service (h : (c.analyzeService s).Ends p (.ok functions) q) :
    c.Emits s functions ∧ Announces functions p q := by
  obtain ⟨service, r, results, r', hs, hm, rfl, rfl⟩ := analyzeService_ok.1 h
  obtain ⟨hname, -, hsettings⟩ := service_ok.1 hs
  have hsettings : c.HasSettings s.service s.kind service.settings :=
    ((obeys_serviceSettings c s.kind s.service).ok hsettings _).2 rfl
  obtain ⟨hkind, hv⟩ := hsettings.isValid
  obtain ⟨hshapes, hlog⟩ := shapes_of_methods hv hm
  have hservice := announces_of_service hs not_isFault_ok
  constructor
  · intro f hf
    obtain ⟨hshape, hclass⟩ := hshapes f hf
    rw [hkind] at hshape
    exact ⟨hshape, hclass ▸ hname⟩
  · have hnone :
        Announces [] r' { r' with log := r'.log ++ c.serviceNotes s.definition results } := by
      apply Announces.of_other rfl
      intro d hd
      rw [code_of_mem_serviceNotes hd]
      exact nofun
    have hall := (hservice.append hlog).append hnone
    rwa [List.nil_append, List.append_nil] at hall

theorem shapes_of_attempted_service (h : (attempt (c.analyzeService s)).Ends p (.ok emitted?) q) :
    c.Emits s (emitted?.getD []) ∧ Announces (emitted?.getD []) p q := by
  rcases attempt_ok h with ⟨functions, rfl, hf⟩ | ⟨e, r, rfl, hr, rfl⟩
  · exact shapes_of_service hf
  · have hs := analyzeService_rejected.1 hr
    have hservice := announces_of_service hs (not_isFault_rejected e)
    have he := ((steady_service c s).halt hs).1
    have hnote : Announces [] r (r.note e) := by
      apply Announces.of_other rfl
      exact List.forall_mem_singleton.2 (Diagnostic.code_ne_of_isError he nofun)
    exact ⟨List.forall_mem_nil _, hservice.append hnote⟩

theorem shapes_of_statements {statements : List Node}
    (h : (c.analyzeStatements statements).Ends p (.ok functions) q) :
    Announces functions p q ∧ ∃ services blocks,
      statements.filterMapM c.document.serviceDeclaration? = .ok services ∧
      functions = blocks.flatten ∧ List.Forall₂ c.Emits services blocks := by
  induction statements generalizing p functions with
  | nil =>
    obtain ⟨rfl, rfl⟩ := analyzeStatements_nil.1 h
    exact ⟨Announces.nil p, [], [], rfl, rfl, .nil⟩
  | cons statement rest ih =>
    rcases analyzeStatements_cons.1 h with ⟨ho, hx⟩ | ⟨s, emitted?, r, more, ho, hs, hm, rfl⟩
    · obtain ⟨hlog, services, blocks, hservices, hfunctions, hblocks⟩ := ih hx
      have hservices := filterMapM_cons_eq_ok.2 ⟨none, services, ho, hservices, rfl⟩
      exact ⟨hlog, services, blocks, hservices, hfunctions, hblocks⟩
    · obtain ⟨hlog, services, blocks, hservices, rfl, hblocks⟩ := ih hm
      obtain ⟨hemits, hnotes⟩ := shapes_of_attempted_service hs
      have hservices := filterMapM_cons_eq_ok.2 ⟨some s, services, ho, hservices, rfl⟩
      exact ⟨hnotes.append hlog, s :: services, emitted?.getD [] :: blocks, hservices, rfl,
        .cons hemits hblocks⟩

end Scope

/-- The functions of an app come service by service in the order of the module, each with the shape
that the kind of its service asks for, and the log has one note for each function that accepts every
method and no further such note. -/
theorem Document.function_shapes {d : Document}
    (h : d.analyzeInto log settings = ⟨log', .ok app⟩) :
    ∃ symbols services blocks, SymbolTable.ofDocument d = .ok symbols ∧
      d.serviceDeclarations d.root = .ok services ∧ app.functions = blocks.flatten ∧
      List.Forall₂ (Scope.Emits ⟨d, settings, symbols⟩) services blocks ∧
      (log'.about .acceptsAllMethods).map Diagnostic.message =
        (log.about .acceptsAllMethods).map Diagnostic.message ++
          (app.functions.filter FunctionDescriptor.acceptsAllMethods).map fun f =>
            "Function '" ++ f.name ++ "' accepts all HTTP methods" := by
  obtain ⟨symbols, functions, p, ht, hrun, rfl, rfl⟩ := analyzeInto_ok.1 h
  obtain ⟨hlog, services, blocks, hservices, hfunctions, hblocks⟩ :=
    Scope.shapes_of_statements hrun
  exact ⟨symbols, services, blocks, ht, hservices, hfunctions, hblocks, hlog⟩

/-- A service with one method, which accepts every method of its route. -/
def Document.openService : Document where
  path := "open.py"
  source := "@http_service\nclass H:\n @resource(method='default')\n def f(): 0\n".toUTF8
  tree :=
    .node "module" 0 64 "" [
      .node "decorated_definition" 0 63 "" [
        .node "decorator" 0 13 "" [
          .node "@" 0 1 "" [],
          .node "identifier" 1 13 "" []],
        .node "class_definition" 14 63 "definition" [
          .node "class" 14 19 "" [],
          .node "identifier" 20 21 "name" [],
          .node ":" 21 22 "" [],
          .node "block" 24 63 "body" [
            .node "decorated_definition" 24 63 "" [
              .node "decorator" 24 51 "" [
                .node "@" 24 25 "" [],
                .node "call" 25 51 "" [
                  .node "identifier" 25 33 "function" [],
                  .node "argument_list" 33 51 "arguments" [
                    .node "(" 33 34 "" [],
                    .node "keyword_argument" 34 50 "" [
                      .node "identifier" 34 40 "name" [],
                      .node "=" 40 41 "" [],
                      .node "string" 41 50 "value" []],
                    .node ")" 50 51 "" []]]],
              .node "function_definition" 53 63 "definition" [
                .node "def" 53 56 "" [],
                .node "identifier" 57 58 "name" [],
                .node "parameters" 58 60 "parameters" [
                  .node "(" 58 59 "" [],
                  .node ")" 59 60 "" []],
                .node ":" 60 61 "" [],
                .node "block" 62 63 "body" [
                  .node "expression_statement" 62 63 "" [
                    .node "integer" 62 63 "" []]]]]]]]]

/-- The method becomes a function, and is noted. -/
theorem Document.analyze_openService : ∃ log app, openService.analyzeInto [] {} = ⟨log, .ok app⟩ ∧
    log.map Diagnostic.code = [.acceptsAllMethods] ∧
    app.functions.map FunctionDescriptor.name = ["default-root"] := by
  let observe (log : Log) (app : FunctionApp) :=
    (log.map Diagnostic.code, app.functions.map FunctionDescriptor.name)
  have h : (openService.analyzeInto [] {}).result.toOption.map
      (observe (openService.analyzeInto [] {}).log) =
      some ([.acceptsAllMethods], ["default-root"]) := by decide +kernel
  obtain ⟨log, app, hrun, hseen⟩ := Outcome.ok_of_observed h
  obtain ⟨hlog, hnames⟩ := Prod.mk.inj hseen
  exact ⟨log, app, hrun, hlog, hnames⟩

/-- The function of the service has the shape of one that a service of its kind calls. -/
theorem Document.function_shapes_openService : ∃ log app symbols services blocks,
    openService.analyzeInto [] {} = ⟨log, .ok app⟩ ∧
      log.map Diagnostic.code = [.acceptsAllMethods] ∧
      app.functions.map FunctionDescriptor.name = ["default-root"] ∧
      openService.serviceDeclarations openService.root = .ok services ∧
      app.functions = blocks.flatten ∧
      List.Forall₂ (Scope.Emits ⟨openService, {}, symbols⟩) services blocks := by
  obtain ⟨log, app, h, hlog, hnames⟩ := analyze_openService
  obtain ⟨symbols, services, blocks, -, hservices, hfunctions, hblocks, -⟩ := function_shapes h
  exact ⟨log, app, symbols, services, blocks, h, hlog, hnames, hservices, hfunctions, hblocks⟩

end AppManifest
