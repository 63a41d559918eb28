import AppManifest.Proofs.Analysis.HostHistory

namespace AppManifest
set_option autoImplicit true

/-! Which markers a run checks for arguments that they do not know, and what it warns about. A
marker is checked on the way through the declarations, each of which may be abandoned before its
next marker, and any of which may end the run. -/

instance : DecidablePred Diagnostic.IsArgumentWarning := fun d =>
  inferInstanceAs (Decidable (d.code = .unknownField ∨ d.code = .positionalArgument))

namespace Log

/-- The warnings about arguments of markers. -/
def onArguments (log : Log) : Log :=
  log.filter fun d => d.IsArgumentWarning

theorem onArguments_append (log more : Log) :
    onArguments (log ++ more) = onArguments log ++ onArguments more :=
  List.filter_append ..

theorem onArguments_of_all {notes : Log} (h : ∀ d ∈ notes, d.IsArgumentWarning) :
    onArguments notes = notes :=
  filter_of_all h

theorem onArguments_of_other {notes : Log} (h : ∀ d ∈ notes, ¬d.IsArgumentWarning) :
    onArguments notes = [] :=
  filter_of_none h

theorem onArguments_append_other {notes : Log} (h : ∀ d ∈ notes, ¬d.IsArgumentWarning)
    (log : Log) : onArguments (log ++ notes) = onArguments log := by
  rw [onArguments_append, onArguments_of_other h, List.append_nil]

end Log

theorem Diagnostic.not_isArgumentWarning_of_isError {d : Diagnostic} (h : d.isError = true) :
    ¬d.IsArgumentWarning := by
  intro hd
  rcases hd with hd | hd
  · exact code_ne_of_isError h (by decide) hd
  · exact code_ne_of_isError h (by decide) hd

theorem Diagnostic.not_isArgumentWarning_of_code {d : Diagnostic} {k : Code} (h : d.code = k)
    (hk : k ≠ .unknownField ∧ k ≠ .positionalArgument) : ¬d.IsArgumentWarning :=
  fun hd => hd.code_ne hk h

/-- What a list of declarations comes to, one after the other, where some elements declare nothing.
The run ends at an element that cannot be read or that is not done. -/
inductive Collects (find : α → Except ε (Option β)) (step : β → Bool → List γ → Prop) :
    List α → Bool → List γ → Prop
  | nil : Collects find step [] true []
  | skipped (h : find a = .ok none) (hs : Collects find step as done cs) :
      Collects find step (a :: as) done cs
  | step (h : find a = .ok (some b)) (hb : step b true cs) (hs : Collects find step as done cs') :
      Collects find step (a :: as) done (cs ++ cs')
  | stopped (h : find a = .ok (some b)) (hb : step b false cs) :
      Collects find step (a :: as) false cs
  | unread (h : find a = .error e) : Collects find step (a :: as) false []

/-- A step of which something is returned ends where it ends. -/
theorem Analysis.ends_of_bind_pure {x : Analysis α} {g : α → β}
    (h : (x >>= fun a => pure (g a)).Ends p r q) : ∃ r', x.Ends p r' q ∧ r.isOk = r'.isOk := by
  obtain ⟨r', q', hx⟩ := x.exists_ends p
  cases r' with
  | error e =>
    obtain ⟨rfl, rfl⟩ := (ends_bind_of_error hx).1 h
    exact ⟨_, hx, rfl⟩
  | ok a =>
    have h := (ends_bind_of_ok hx).1 h
    obtain ⟨rfl, rfl⟩ := ends_pure.1 h
    exact ⟨_, hx, rfl⟩

namespace Scope

open Analysis

/-- The markers of a trigger method that are checked: its trigger, where that is alone and fits the
service, and then its output marker, where that is alone and the trigger is accepted. -/
inductive ChecksMarkers (c : Scope) (service : Service) (m : TriggerMethod) : List Marker → Prop
  | none (h : m.moreTriggers ≠ [] ∨ m.trigger.name ≠ service.settings.kind.trigger) :
      ChecksMarkers c service m []
  | trigger (hs : m.moreTriggers = []) (ht : m.trigger.name = service.settings.kind.trigger)
      (h : m.outputs.length ≠ 1 ∨ ¬∃ name d, c.nameOf m.node = .ok name ∧
        c.draft service m name = .ok d) : ChecksMarkers c service m [m.trigger]
  | output (hs : m.moreTriggers = []) (ht : m.trigger.name = service.settings.kind.trigger)
      (hn : c.nameOf m.node = .ok name) (hd : c.draft service m name = .ok d)
      (ho : m.outputs = [(kind, output)]) : ChecksMarkers c service m [m.trigger, output]

/-- The same for the run: it goes on behind the method unless that meets a fault. -/
def ChecksMethod (c : Scope) (service : Service) (m : TriggerMethod) (done : Bool)
    (markers : List Marker) : Prop :=
  c.ChecksMarkers service m markers ∧
    ∃ p r q, (attempt (c.analyzeFunction service m)).Ends p r q ∧ r.isOk = done

/-- The markers of the trigger methods that are checked once the service marker has come to a
result: those of an accepted service. The run goes on behind a rejected one. -/
inductive ChecksMethods (c : Scope) (definition : Node) :
    Except Halt Service → Bool → List Marker → Prop
  | broken : ChecksMethods c definition (.error (.fault f)) false []
  | refused : ChecksMethods c definition (.error (.rejected e)) true []
  | accepted {service : Service} (h : Collects (c.triggerMethod? definition)
      (c.ChecksMethod service) (c.methodSymbols definition) done markers) :
      ChecksMethods c definition (.ok service) done markers

/-- The markers that are checked for a declaration: the service marker, if it is alone, and then
those of the trigger methods. -/
inductive ChecksService (c : Scope) (s : ServiceDeclaration) : Bool → List Marker → Prop
  | unread (h : c.nameOf s.definition = .error e) : ChecksService c s false []
  | several (hn : c.nameOf s.definition = .ok name) (hs : s.moreServices ≠ []) :
      ChecksService c s true []
  | alone (hn : c.nameOf s.definition = .ok name) (hs : s.moreServices = [])
      (h : (c.service s).Ends p r q) (hm : c.ChecksMethods s.definition r done markers) :
      ChecksService c s done (s.service :: markers)

/-- The warning about a field that a marker does not know. -/
structure WarnsOfField (c : Scope) (a : Marker) (f : MarkerField) (d : Diagnostic) : Prop where
  code : d.code = .unknownField
  properties : d.properties = [⟨"annotation", .str a.name⟩, ⟨"field", .str f.name⟩]
  location : d.location = c.document.location f.node

structure WarnsOfPositional (c : Scope) (n : Node) (d : Diagnostic) : Prop where
  code : d.code = .positionalArgument
  properties : d.properties = []
  location : d.location = c.document.location n

/-- The warnings about a marker: one for each field that it does not know, then one for each
positional argument. -/
def Warns (c : Scope) (a : Marker) (ds : Log) : Prop :=
  ∃ unknown ignored, ds = unknown ++ ignored ∧
    List.Forall₂ (c.WarnsOfField a) (a.fields.filter fun f => f.name ∉ allowedFields a.name)
      unknown ∧
    List.Forall₂ c.WarnsOfPositional a.positional ignored

variable {c : Scope} {service : Service} {m : TriggerMethod} {p q : Progress}

theorem warns_argumentWarnings (c : Scope) (a : Marker) : c.Warns a (c.argumentWarnings a) := by
  refine ⟨_, _, rfl, ?_, ?_⟩
  · rw [List.forall₂_map_right_iff]
    exact List.forall₂_same.2 fun f _ => ⟨rfl, rfl, rfl⟩
  · rw [List.forall₂_map_right_iff]
    exact List.forall₂_same.2 fun n _ => ⟨rfl, rfl, rfl⟩

theorem onArguments_argumentWarnings (c : Scope) (markers : List Marker) :
    Log.onArguments (markers.flatMap c.argumentWarnings) = markers.flatMap c.argumentWarnings := by
  apply Log.onArguments_of_all
  intro d hd
  obtain ⟨a, -, hd⟩ := List.mem_flatMap.1 hd
  exact argumentWarning_of_mem hd

/-- On the way from one state to another, the markers are warned about and no others. -/
def WarnedOf (c : Scope) (markers : List Marker) (p q : Progress) : Prop :=
  q.log.onArguments = p.log.onArguments ++ markers.flatMap c.argumentWarnings

theorem WarnedOf.of_log (h : q.log = p.log ++ markers.flatMap c.argumentWarnings ++ notes)
    (hnotes : ∀ d ∈ notes, ¬d.IsArgumentWarning) : c.WarnedOf markers p q := by
  rw [WarnedOf, h, Log.onArguments_append_other hnotes, Log.onArguments_append,
    onArguments_argumentWarnings]

theorem WarnedOf.refl (c : Scope) (p : Progress) : c.WarnedOf [] p p :=
  (List.append_nil _).symm

theorem WarnedOf.trans (h : c.WarnedOf markers p q) (h' : c.WarnedOf markers' q r) :
    c.WarnedOf (markers ++ markers') p r := by
  rw [WarnedOf, h', h, List.flatMap_append, List.append_assoc]

/-- What is noted at the end without being about arguments does not count. -/
theorem WarnedOf.noted (h : c.WarnedOf markers p q) (hnotes : ∀ d ∈ notes, ¬d.IsArgumentWarning) :
    c.WarnedOf markers p { q with log := q.log ++ notes } :=
  (Log.onArguments_append_other hnotes _).trans h

theorem single_ok (h : c.single role more = .ok ()) : more = [] :=
  ((decides_single c _ _).ok h ()).2 rfl

theorem single_error (h : c.single role more = .error e) :
    more ≠ [] ∧ ∃ d, e = .rejected d := by
  cases more with
  | nil => cases h
  | cons second rest =>
    cases h
    exact ⟨List.cons_ne_nil _ _, _, rfl⟩

theorem log_of_outputBindings (h : (c.outputBindings m).Ends p r q) :
    m.outputs.length ≠ 1 ∧ q = p ∨ ∃ kind output, m.outputs = [(kind, output)] ∧
      q = { p with log := p.log ++ c.argumentWarnings output } := by
  rw [outputBindings] at h
  split at h
  next ho =>
    obtain ⟨-, rfl⟩ := ends_pure.1 h
    exact .inl ⟨by rw [ho]; decide, rfl⟩
  next kind output more ho =>
    cases hs : c.single "output" (more.map Prod.snd) with
    | error e =>
      obtain ⟨-, rfl⟩ := (ends_bind_of_error (ends_lift.2 ⟨hs, rfl⟩)).1 h
      refine .inl ⟨?_, rfl⟩
      have hmore := (single_error hs).1
      rw [ho]
      simpa using hmore
    | ok _ =>
      have h := (ends_bind_of_ok (ends_lift.2 ⟨hs, rfl⟩)).1 h
      have h := (ends_bind_of_ok (ends_noteAll.2 ⟨rfl, rfl⟩)).1 h
      obtain ⟨r', hb, -⟩ := ends_of_bind_pure h
      rw [List.map_eq_nil_iff.1 (single_ok hs)] at ho
      exact .inr ⟨kind, output, ho, (ends_lift.1 hb).2.symm⟩

/-- Up to its name a method causes the warnings about its checked markers and nothing else. -/
theorem log_of_propose (h : (c.propose service m).Ends p r q) :
    ∃ markers, c.ChecksMarkers service m markers ∧
      q.log = p.log ++ markers.flatMap c.argumentWarnings := by
  rw [propose] at h
  cases hs : c.single "trigger" m.moreTriggers with
  | error e =>
    obtain ⟨-, rfl⟩ := (ends_bind_of_error (ends_lift.2 ⟨hs, rfl⟩)).1 h
    exact ⟨[], .none (.inl (single_error hs).1), (List.append_nil _).symm⟩
  | ok _ =>
    have h := (ends_bind_of_ok (ends_lift.2 ⟨hs, rfl⟩)).1 h
    split at h
    next ht =>
      have h := (ends_bind_of_ok (ends_noteAll.2 ⟨rfl, rfl⟩)).1 h
      have halone : ∀ {q : Progress}, q.log = p.log ++ c.argumentWarnings m.trigger →
          q.log = p.log ++ [m.trigger].flatMap c.argumentWarnings := by
        intro q hq
        rw [hq, List.flatMap_singleton]
      cases hn : c.nameOf m.node with
      | error e =>
        obtain ⟨-, rfl⟩ := (ends_bind_of_error (ends_lift.2 ⟨hn, rfl⟩)).1 h
        refine ⟨_, .trigger (single_ok hs) ht (.inr ?_), halone rfl⟩
        rintro ⟨name, d, hname, -⟩
        cases hn.symm.trans hname
      | ok name =>
        have h := (ends_bind_of_ok (ends_lift.2 ⟨hn, rfl⟩)).1 h
        cases hd : c.draft service m name with
        | error e =>
          obtain ⟨-, rfl⟩ := (ends_bind_of_error (ends_lift.2 ⟨hd, rfl⟩)).1 h
          refine ⟨_, .trigger (single_ok hs) ht (.inr ?_), halone rfl⟩
          rintro ⟨name', d, hname, hdraft⟩
          cases hn.symm.trans hname
          cases hd.symm.trans hdraft
        | ok d =>
          have h := (ends_bind_of_ok (ends_lift.2 ⟨hd, rfl⟩)).1 h
          obtain ⟨r', ho, -⟩ := ends_of_bind_pure h
          rcases log_of_outputBindings ho with ⟨hno, rfl⟩ | ⟨kind, output, houtput, rfl⟩
          · exact ⟨_, .trigger (single_ok hs) ht (.inl hno), halone rfl⟩
          · refine ⟨_, .output (single_ok hs) ht hn hd houtput, ?_⟩
            simp
    next ht =>
      obtain ⟨-, rfl⟩ := ends_lift.1 h
      exact ⟨[], .none (.inr ht), (List.append_nil _).symm⟩

/-- A method is warned about by its checked markers, whatever it comes to. -/
theorem warnedOf_analyzeFunction (h : (c.analyzeFunction service m).Ends p r q) :
    ∃ markers, c.ChecksMarkers service m markers ∧ c.WarnedOf markers p q := by
  have hpropose {r q} (h : (c.propose service m).Ends p r q) :
      ∃ markers, c.ChecksMarkers service m markers ∧ c.WarnedOf markers p q := by
    obtain ⟨markers, hmarkers, hlog⟩ := log_of_propose h
    rw [← List.append_nil (p.log ++ _)] at hlog
    exact ⟨markers, hmarkers, .of_log hlog (List.forall_mem_nil _)⟩
  cases r with
  | ok f =>
    obtain ⟨proposal, r, name, r', hp, hn, -, rfl⟩ := analyzeFunction_ok.1 h
    obtain ⟨-, -, -, rfl⟩ := assignName_ok hn
    obtain ⟨markers, hmarkers, hwarned⟩ := hpropose hp
    refine ⟨markers, hmarkers, WarnedOf.noted hwarned fun d hd => ?_⟩
    exact Diagnostic.not_isArgumentWarning_of_code (notes_methodNotes c service m _ _ d hd)
      (by decide)
  | error e =>
    rcases analyzeFunction_error.1 h with h | ⟨proposal, r, hp, hn⟩
    · exact hpropose h
    · obtain ⟨rfl, -⟩ := assignName_error hn
      exact hpropose hp

theorem warnedOf_method (h : (attempt (c.analyzeFunction service m)).Ends p r q) :
    ∃ markers, c.ChecksMethod service m r.isOk markers ∧ c.WarnedOf markers p q := by
  rcases attempt_cases h with ⟨f, rfl, hf⟩ | ⟨e, q', rfl, hf, rfl⟩ | ⟨f, rfl, hf⟩
  · obtain ⟨markers, hmarkers, hwarned⟩ := warnedOf_analyzeFunction hf
    exact ⟨markers, ⟨hmarkers, p, _, _, h, rfl⟩, hwarned⟩
  · obtain ⟨markers, hmarkers, hwarned⟩ := warnedOf_analyzeFunction hf
    have he := Diagnostic.not_isArgumentWarning_of_isError (log_of_rejected_function hf).1
    exact ⟨markers, ⟨hmarkers, p, _, _, h, rfl⟩, hwarned.noted (List.forall_mem_singleton.2 he)⟩
  · obtain ⟨markers, hmarkers, hwarned⟩ := warnedOf_analyzeFunction hf
    exact ⟨markers, ⟨hmarkers, p, _, _, h, rfl⟩, hwarned⟩

/-- The run over the methods of a service warns about the markers that it checks. -/
theorem warnedOf_methods {symbols : List Symbol}
    (h : (c.analyzeMethods service definition symbols).Ends p r q) :
    ∃ markers, Collects (c.triggerMethod? definition) (c.ChecksMethod service) symbols r.isOk
      markers ∧ c.WarnedOf markers p q := by
  induction symbols generalizing p r q with
  | nil =>
    obtain ⟨rfl, rfl⟩ := ends_pure.1 h
    exact ⟨[], .nil, .refl c p⟩
  | cons symbol symbols ih =>
    rw [analyzeMethods] at h
    cases ht : c.triggerMethod? definition symbol with
    | error e =>
      obtain ⟨rfl, rfl⟩ := (ends_bind_of_error (ends_lift.2 ⟨ht, rfl⟩)).1 h
      exact ⟨[], .unread ht, .refl c p⟩
    | ok o =>
      have h := (ends_bind_of_ok (ends_lift.2 ⟨ht, rfl⟩)).1 h
      cases o with
      | none =>
        obtain ⟨markers, hmarkers, hwarned⟩ := ih h
        exact ⟨markers, .skipped ht hmarkers, hwarned⟩
      | some m =>
        obtain ⟨r', p', hm⟩ := (attempt (c.analyzeFunction service m)).exists_ends p
        obtain ⟨markers, hmarkers, hwarned⟩ := warnedOf_method hm
        cases r' with
        | error e =>
          obtain ⟨rfl, rfl⟩ := (ends_bind_of_error hm).1 h
          exact ⟨markers, .stopped ht hmarkers, hwarned⟩
        | ok function? =>
          obtain ⟨r'', hrest, hdone⟩ := ends_of_bind_pure ((ends_bind_of_ok hm).1 h)
          obtain ⟨more, hmore, hwarned'⟩ := ih hrest
          rw [hdone]
          exact ⟨_, .step ht hmarkers hmore, hwarned.trans hwarned'⟩

theorem adds_supply (c : Scope) (a : Marker) (setting : QueueSetting) :
    (c.supply a setting).Adds fun d => d.code = .conflictingHostSetting := by
  intro p r q h
  cases hg : c.positive? a setting.field with
  | error e =>
    obtain ⟨-, rfl⟩ := (supply_of_error hg).1 h
    exact ⟨[], (List.append_nil _).symm, List.forall_mem_nil _⟩
  | ok given =>
    obtain ⟨-, rfl⟩ := (supply_of_ok hg).1 h
    exact ⟨_, log_supplied c a setting p given, fun d => code_of_mem_conflictOver⟩

/-- What a service marker says is only ever warned about over the host settings. -/
theorem adds_serviceSettings (c : Scope) (kind : ServiceKind) (a : Marker) :
    (c.serviceSettings kind a).Adds fun d => d.code = .conflictingHostSetting := by
  by_cases hk : kind = .queue
  · subst hk
    apply (notes_lift _).log.bind
    intro _ _ _ _
    apply (notes_lift _).log.bind
    intro _ _ _ _
    apply (adds_supply c a _).bind
    intro _ _ _ _
    apply (adds_supply c a _).bind
    intro _ _ _ _
    exact (notes_pure _).log
  · exact (reading_serviceSettings c hk a).notes.log

/-- A service marker is checked where its class can be named and it is the only one. -/
theorem warnedOf_service (h : (c.service s).Ends p r q) :
    (∃ e, c.nameOf s.definition = .error e) ∧ (∃ f, r = .error (.fault f)) ∧ q = p ∨
      ∃ name, c.nameOf s.definition = .ok name ∧
        (s.moreServices ≠ [] ∧ (∃ d, r = .error (.rejected d)) ∧ q = p ∨
          s.moreServices = [] ∧ c.WarnedOf [s.service] p q) := by
  rw [Scope.service] at h
  cases hn : c.nameOf s.definition with
  | error e =>
    obtain ⟨rfl, rfl⟩ := (ends_bind_of_error (ends_lift.2 ⟨hn, rfl⟩)).1 h
    obtain ⟨f, rfl⟩ := nameOf_error hn
    exact .inl ⟨⟨_, rfl⟩, ⟨f, rfl⟩, rfl⟩
  | ok name =>
    have h := (ends_bind_of_ok (ends_lift.2 ⟨hn, rfl⟩)).1 h
    refine .inr ⟨name, rfl, ?_⟩
    cases hs : c.single "service" s.moreServices with
    | error e =>
      obtain ⟨rfl, rfl⟩ := (ends_bind_of_error (ends_lift.2 ⟨hs, rfl⟩)).1 h
      obtain ⟨hmore, d, rfl⟩ := single_error hs
      exact .inl ⟨hmore, ⟨d, rfl⟩, rfl⟩
    | ok _ =>
      have h := (ends_bind_of_ok (ends_lift.2 ⟨hs, rfl⟩)).1 h
      have h := (ends_bind_of_ok (ends_noteAll.2 ⟨rfl, rfl⟩)).1 h
      obtain ⟨r', hsettings, -⟩ := ends_of_bind_pure h
      obtain ⟨notes, hlog, hnotes⟩ := adds_serviceSettings c s.kind s.service _ _ _ hsettings
      rw [← List.flatMap_singleton c.argumentWarnings s.service] at hlog
      refine .inr ⟨single_ok hs, .of_log hlog fun d hd => ?_⟩
      exact Diagnostic.not_isArgumentWarning_of_code (hnotes d hd) (by decide)

/-- An accepted service is warned about by the checked markers of its methods. -/
theorem warnedOf_accepted (hs : (c.service s).Ends p (.ok service) p')
    (h : (attempt (c.analyzeService s)).Ends p r q) :
    ∃ markers, Collects (c.triggerMethod? s.definition) (c.ChecksMethod service)
      (c.methodSymbols s.definition) r.isOk markers ∧ c.WarnedOf markers p' q := by
  obtain ⟨r', p'', hm⟩ := (c.analyzeMethods service s.definition
    (c.methodSymbols s.definition)).exists_ends p'
  obtain ⟨markers, hmarkers, hwarned⟩ := warnedOf_methods hm
  cases r' with
  | error e =>
    obtain ⟨f, rfl⟩ := analyzeMethods_error hm
    have hx : (c.analyzeService s).Ends p (.error (.fault f)) p'' :=
      (ends_bind_of_ok hs).2 ((ends_bind_of_error hm).2 ⟨rfl, rfl⟩)
    obtain ⟨rfl, rfl⟩ := (ends_attempt_of_fault hx).1 h
    exact ⟨markers, hmarkers, hwarned⟩
  | ok results =>
    have hx := analyzeService_ok.2 ⟨service, p', results, p'', hs, hm, rfl, rfl⟩
    obtain ⟨rfl, rfl⟩ := (ends_attempt_of_ok hx).1 h
    refine ⟨markers, hmarkers, hwarned.noted fun d hd => ?_⟩
    exact Diagnostic.not_isArgumentWarning_of_code (code_of_mem_serviceNotes hd) (by decide)

/-- A declaration is warned about by its checked markers, whatever it comes to. -/
theorem warnedOf_declaration (h : (attempt (c.analyzeService s)).Ends p r q) :
    ∃ markers, c.ChecksService s r.isOk markers ∧ c.WarnedOf markers p q := by
  obtain ⟨r', p', hs⟩ := (c.service s).exists_ends p
  have hbroken {f} (hs : (c.service s).Ends p (.error (.fault f)) p') :
      .error (.fault f) = r ∧ p' = q :=
    (ends_attempt_of_fault ((ends_bind_of_error hs).2 ⟨rfl, rfl⟩)).1 h
  have hrefused {e} (hs : (c.service s).Ends p (.error (.rejected e)) p') :
      .ok none = r ∧ p'.note e = q :=
    (ends_attempt_of_rejected ((ends_bind_of_error hs).2 ⟨rfl, rfl⟩)).1 h
  have hnotes {e} (hs : (c.service s).Ends p (.error (.rejected e)) p') :
      ∀ d ∈ [e], ¬d.IsArgumentWarning := List.forall_mem_singleton.2
    (Diagnostic.not_isArgumentWarning_of_isError ((steady_service c s).halt hs).1)
  rcases warnedOf_service hs with
    ⟨⟨_, hn⟩, ⟨f, rfl⟩, rfl⟩ | ⟨name, hn, ⟨hmore, ⟨e, rfl⟩, rfl⟩ | hone⟩
  · obtain ⟨rfl, rfl⟩ := hbroken hs
    exact ⟨[], .unread hn, .refl c _⟩
  · obtain ⟨rfl, rfl⟩ := hrefused hs
    exact ⟨[], .several hn hmore, (WarnedOf.refl c _).noted (hnotes hs)⟩
  · obtain ⟨hsingle, hwarned⟩ := hone
    rcases r' with (f | e) | service
    · obtain ⟨rfl, rfl⟩ := hbroken hs
      exact ⟨_, .alone hn hsingle hs .broken, hwarned⟩
    · obtain ⟨rfl, rfl⟩ := hrefused hs
      exact ⟨_, .alone hn hsingle hs .refused, hwarned.noted (hnotes hs)⟩
    · obtain ⟨markers, hmarkers, hmethods⟩ := warnedOf_accepted hs h
      exact ⟨_, .alone hn hsingle hs (.accepted hmarkers), hwarned.trans hmethods⟩

/-- The run over the statements of a module warns about the markers that it checks. -/
theorem warnedOf_statements {statements : List Node}
    (h : (c.analyzeStatements statements).Ends p r q) :
    ∃ markers, Collects c.document.serviceDeclaration? c.ChecksService statements r.isOk markers ∧
      c.WarnedOf markers p q := by
  induction statements generalizing p r q with
  | nil =>
    obtain ⟨rfl, rfl⟩ := ends_pure.1 h
    exact ⟨[], .nil, .refl c p⟩
  | cons statement statements ih =>
    rw [analyzeStatements] at h
    cases hd : c.document.serviceDeclaration? statement with
    | error f =>
      have hfault := lift_eq_error.2 ⟨f, hd, rfl⟩
      obtain ⟨rfl, rfl⟩ := (ends_bind_of_error (ends_lift.2 ⟨hfault, rfl⟩)).1 h
      exact ⟨[], .unread hd, .refl c p⟩
    | ok o =>
      have h := (ends_bind_of_ok (ends_lift.2 ⟨lift_eq_ok.2 hd, rfl⟩)).1 h
      cases o with
      | none =>
        obtain ⟨markers, hmarkers, hwarned⟩ := ih h
        exact ⟨markers, .skipped hd hmarkers, hwarned⟩
      | some s =>
        obtain ⟨r', p', hs⟩ := (attempt (c.analyzeService s)).exists_ends p
        obtain ⟨markers, hmarkers, hwarned⟩ := warnedOf_declaration hs
        cases r' with
        | error e =>
          obtain ⟨rfl, rfl⟩ := (ends_bind_of_error hs).1 h
          exact ⟨markers, .stopped hd hmarkers, hwarned⟩
        | ok emitted? =>
          obtain ⟨r'', hrest, hdone⟩ := ends_of_bind_pure ((ends_bind_of_ok hs).1 h)
          obtain ⟨more, hmore, hwarned'⟩ := ih hrest
          rw [hdone]
          exact ⟨_, .step hd hmarkers hmore, hwarned.trans hwarned'⟩

end Scope

/-- A run has not begun where the names of the module cannot be read. Else it goes through the
statements, and all that it warns about arguments is about the markers that it checks there. -/
theorem Document.warnedOf_run {d : Document} (h : d.analyzeInto before settings = ⟨log, result⟩) :
    (∃ f, SymbolTable.ofDocument d = .error f ∧ result = .error f ∧ log = before) ∨
      ∃ symbols markers, SymbolTable.ofDocument d = .ok symbols ∧
        Collects d.serviceDeclaration? (Scope.ChecksService ⟨d, settings, symbols⟩)
          d.root.children result.isOk markers ∧
        log.onArguments = before.onArguments ++
          markers.flatMap (Scope.argumentWarnings ⟨d, settings, symbols⟩) := by
  unfold analyzeInto at h
  cases ht : SymbolTable.ofDocument d with
  | error f =>
    rw [ht] at h
    cases h
    exact .inl ⟨f, rfl, rfl, rfl⟩
  | ok symbols =>
    rw [ht] at h
    obtain ⟨r, p, hrun⟩ := (Scope.analyzeStatements ⟨d, settings, symbols⟩
      d.root.children).exists_ends (Scope.start ⟨d, settings, symbols⟩ before)
    obtain ⟨markers, hmarkers, hwarned⟩ := Scope.warnedOf_statements hrun
    unfold Analysis.Ends Scope.start at hrun
    dsimp only at h
    rw [hrun] at h
    rcases r with (f | e) | functions
    · cases h
      exact .inr ⟨symbols, markers, rfl, hmarkers, hwarned⟩
    · obtain ⟨f, hf⟩ := Scope.analyzeStatements_error hrun
      cases hf
    · cases h
      exact .inr ⟨symbols, markers, rfl, hmarkers, hwarned⟩

end AppManifest
