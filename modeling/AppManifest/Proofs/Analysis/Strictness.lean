import AppManifest.Proofs.Analysis.Shape

namespace AppManifest
set_option autoImplicit true

/-! Two runs over one document, the second of which leaves out unsupported path segments. -/

@[simp] theorem Progress.names_note (p : Progress) (d : Diagnostic) : (p.note d).names = p.names :=
  rfl

/-- What neither ends the run nor is a rejection over a path segment. -/
def IsFirm (r : Except Halt α) : Prop :=
  ¬IsFault r ∧ ∀ d, r = .error (.rejected d) → d.code ≠ .unsupportedPathSegment

theorem isFirm_ok (a : α) : IsFirm (.ok a) := by
  refine ⟨not_isFault_ok, ?_⟩
  intro d hd
  cases hd

theorem IsFirm.of_error {e : Halt} (h : IsFirm (.error e : Except Halt α)) :
    IsFirm (.error e : Except Halt β) := by
  constructor
  · exact mt IsFault.of_error h.1
  · intro d hd
    cases hd
    exact h.2 d rfl

/-- The second check accepts what the first one does, with the same value, and rejects what it does,
unless that is over a path segment. -/
structure Eases (x x' : Except Halt α) : Prop where
  ok : ∀ {a}, x = .ok a → x' = .ok a
  rejected : ∀ {d}, x = .error (.rejected d) → d.code ≠ .unsupportedPathSegment →
    x' = .error (.rejected d)

namespace Eases

theorem refl (x : Except Halt α) : Eases x x where
  ok := id
  rejected h _ := h

theorem bind {x x' : Except Halt α} {f f' : α → Except Halt β} (hx : Eases x x')
    (hf : ∀ a, Eases (f a) (f' a)) : Eases (x >>= f) (x' >>= f') where
  ok h := by
    obtain ⟨a, ha, h⟩ := bind_eq_ok.1 h
    exact bind_eq_ok.2 ⟨a, hx.ok ha, (hf a).ok h⟩
  rejected h hd := by
    rcases bind_eq_error.1 h with h | ⟨a, ha, h⟩
    · exact bind_eq_error.2 (.inl (hx.rejected h hd))
    · exact bind_eq_error.2 (.inr ⟨a, hx.ok ha, (hf a).rejected h hd⟩)

theorem of_firm {x x' : Except Halt α} (h : Eases x x') (hx : IsFirm x) : x' = x := by
  rcases x with (f | d) | a
  · exact absurd ⟨f, rfl⟩ hx.1
  · exact h.rejected rfl (hx.2 d rfl)
  · exact h.ok rfl

end Eases

namespace Analysis

/-- Where the first step ends firmly, with no rejection over a path segment in the log, the second
one ends in the same way. -/
structure Relaxes (x x' : Analysis α) : Prop where
  grows : x.Adds fun _ => True
  firm : ∀ {p r q}, x.Ends p r q → IsFirm r → q.log.about .unsupportedPathSegment = [] →
    x'.Ends p r q

/-- Moreover the second step finds what the first one does, from wherever it starts. -/
structure Loosens (x x' : Analysis α) : Prop extends Relaxes x x' where
  finds : ∀ {p a q p' r q'}, x.Ends p (.ok a) q → x'.Ends p' r q' → ¬IsFault r → r = .ok a

theorem IsSteady.grows {x : Analysis α} (h : x.IsSteady) : x.Adds fun _ => True := by
  intro p r q hx
  obtain ⟨notes, hlog, -⟩ := h.log hx
  exact ⟨notes, hlog, fun _ _ => trivial⟩

theorem Relaxes.refl {x : Analysis α} (h : x.Adds fun _ => True) : x.Relaxes x where
  grows := h
  firm hx _ _ := hx

theorem Relaxes.bind {x x' : Analysis α} {f f' : α → Analysis β} (hx : x.Relaxes x')
    (hf : ∀ a, (f a).Relaxes (f' a)) : (x >>= f).Relaxes (x' >>= f') where
  grows := hx.grows.bind fun a _ _ _ => (hf a).grows
  firm {p r q} h hr hlog := by
    obtain ⟨r', m, hm⟩ := x.exists_ends p
    cases r' with
    | ok a =>
      have hrest := (ends_bind_of_ok hm).1 h
      obtain ⟨notes, hnotes, -⟩ := (hf a).grows _ _ _ hrest
      have hlogm := hlog
      rw [hnotes, Log.about_append] at hlogm
      have hfirst := hx.firm hm (isFirm_ok a) (List.append_eq_nil_iff.1 hlogm).1
      exact (ends_bind_of_ok hfirst).2 ((hf a).firm hrest hr hlog)
    | error e =>
      obtain ⟨rfl, rfl⟩ := (ends_bind_of_error hm).1 h
      exact (ends_bind_of_error (hx.firm hm hr.of_error hlog)).2 ⟨rfl, rfl⟩

theorem Relaxes.attempt {x x' : Analysis α} (h : x.Relaxes x') :
    (attempt x).Relaxes (attempt x') where
  grows p r q hx := by
    rcases attempt_cases hx with ⟨a, -, hy⟩ | ⟨e, m, -, hy, rfl⟩ | ⟨f, -, hy⟩
    · exact h.grows _ _ _ hy
    · obtain ⟨notes, hlog, -⟩ := h.grows _ _ _ hy
      refine ⟨notes ++ [e], ?_, fun _ _ => trivial⟩
      rw [← List.append_assoc, ← hlog]
      rfl
    · exact h.grows _ _ _ hy
  firm hx hr hlog := by
    rcases attempt_cases hx with ⟨a, rfl, hy⟩ | ⟨e, m, rfl, hy, rfl⟩ | ⟨f, rfl, -⟩
    · exact (ends_attempt_of_ok (h.firm hy (isFirm_ok a) hlog)).2 ⟨rfl, rfl⟩
    · have hsplit : Log.about (m.log ++ [e]) .unsupportedPathSegment = [] := hlog
      rw [Log.about_append] at hsplit
      obtain ⟨hm, he⟩ := List.append_eq_nil_iff.1 hsplit
      have hcode : e.code ≠ .unsupportedPathSegment := by
        simpa using List.filter_eq_nil_iff.1 he e List.mem_cons_self
      have hfirm : IsFirm (.error (.rejected e) : Except Halt α) := by
        constructor
        · exact not_isFault_rejected e
        · intro d hd
          cases hd
          exact hcode
      exact (ends_attempt_of_rejected (h.firm hy hfirm hm)).2 ⟨rfl, rfl⟩
    · exact absurd ⟨f, rfl⟩ hr.1

theorem Loosens.bind {x x' : Analysis α} {f f' : α → Analysis β} (hx : x.Loosens x')
    (hf : ∀ a, (f a).Loosens (f' a)) : (x >>= f).Loosens (x' >>= f') where
  toRelaxes := hx.toRelaxes.bind fun a => (hf a).toRelaxes
  finds {p b q p' r q'} h h' hr := by
    obtain ⟨a, m, ha, h⟩ := ends_bind_ok.1 h
    obtain ⟨r', m', hm⟩ := x'.exists_ends p'
    cases r' with
    | ok a' =>
      cases hx.finds ha hm not_isFault_ok
      exact (hf a).finds h ((ends_bind_of_ok hm).1 h') hr
    | error e =>
      obtain ⟨rfl, -⟩ := (ends_bind_of_error hm).1 h'
      cases hx.finds ha hm (mt IsFault.of_error hr)

theorem loosens_lift {x x' : Except Halt α} (h : Eases x x') :
    (liftM x : Analysis α).Loosens (liftM x') where
  grows p r q hx := by
    obtain ⟨-, rfl⟩ := ends_lift.1 hx
    exact ⟨[], (List.append_nil _).symm, fun _ _ => trivial⟩
  firm hx hr _ := by
    obtain ⟨rfl, rfl⟩ := ends_lift.1 hx
    exact ends_lift.2 ⟨h.of_firm hr, rfl⟩
  finds hx hx' _ := by
    have ha := h.ok (ends_lift.1 hx).1
    exact (ends_lift.1 hx').1.symm.trans ha

theorem loosens_pure (a : α) : (pure a : Analysis α).Loosens (pure a) :=
  loosens_lift (.refl (.ok a))

theorem loosens_noteAll (ds : List Diagnostic) : (noteAll ds).Loosens (noteAll ds) where
  grows p r q h := by
    obtain ⟨-, rfl⟩ := ends_noteAll.1 h
    exact ⟨ds, rfl, fun _ _ => trivial⟩
  firm h _ _ := h
  finds _ h _ := (ends_noteAll.1 h).1.symm

end Analysis

namespace Document

variable {d : Document} {parts : List Node}

theorem Spells.lenient (h : d.Spells strict parts ts) : d.Spells false parts ts := by
  induction h with
  | nil => exact .nil
  | part h _ ih => exact .part h ih
  | other hk ho _ _ ih => exact .other hk ho rfl ih

theorem resolvePath_lenient {strict : Bool} (h : d.resolvePath strict parts = .ok route) :
    d.resolvePath false parts = .ok route := by
  obtain ⟨ts, hts, hroute⟩ := resolvePath_eq_ok.1 h
  exact resolvePath_eq_ok.2 ⟨ts, hts.lenient, hroute⟩

/-- A number is no path segment, and the lenient route goes without it. -/
example : (twoTicks.resolvePath true [⟨.node "integer" 90 91 "" [], []⟩]).toOption = none ∧
    (twoTicks.resolvePath false [⟨.node "integer" 90 91 "" [], []⟩]).toOption = some "" := by
  decide +kernel

end Document

namespace Scope

open Analysis

/-- The same scope, in which unsupported path segments are left out. -/
def lenient (c : Scope) : Scope :=
  { c with settings := { c.settings with strictPaths := false } }

variable {c : Scope} {service : Service} {m : TriggerMethod} {s : ServiceDeclaration}
  {p q p' q' : Progress}

theorem eases_pathValue (c : Scope) (a : Marker) (name : String) :
    Eases (c.pathValue a name) (c.lenient.pathValue a name) := by
  unfold pathValue
  split
  next => exact .refl _
  next f _ =>
    apply (Eases.refl _).bind
    intro n
    apply (Eases.refl _).bind
    intro parts
    constructor
    · intro route h
      cases hstrict : c.document.resolvePath c.settings.strictPaths parts with
      | ok path =>
        have hlenient : c.lenient.document.resolvePath c.lenient.settings.strictPaths parts =
            .ok path := Document.resolvePath_lenient hstrict
        rw [hstrict] at h
        rw [hlenient]
        exact h
      | error e =>
        rw [hstrict] at h
        cases e with
        | fault f => cases h
        | unsupported n =>
          obtain ⟨_, -, h⟩ := bind_eq_ok.1 h
          cases h
    · intro d h hd
      cases hstrict : c.document.resolvePath c.settings.strictPaths parts with
      | ok path =>
        rw [hstrict] at h
        cases h
      | error e =>
        rw [hstrict] at h
        cases e with
        | fault f => cases h
        | unsupported n =>
          rcases bind_eq_error.1 h with h | ⟨_, -, h⟩
          · obtain ⟨f, -, hf⟩ := lift_eq_error.1 h
            cases hf
          · cases h
            exact absurd rfl hd

theorem eases_httpDraft (c : Scope) (routeStart authLevel : String) (trigger : Marker) :
    Eases (c.httpDraft routeStart authLevel trigger)
      (c.lenient.httpDraft routeStart authLevel trigger) := by
  apply (Eases.refl (c.required trigger "method")).bind
  intro method
  dsimp only
  split
  · exact (eases_pathValue c trigger "path").bind fun _ => .refl _
  · exact .refl _

theorem eases_draft (c : Scope) (service : Service) (m : TriggerMethod) (methodName : String) :
    Eases (c.draft service m methodName) (c.lenient.draft service m methodName) := by
  unfold draft
  split
  · exact (eases_httpDraft c _ _ _).bind fun _ => .refl _
  · exact .refl _
  · exact .refl _

theorem loosens_outputBindings (c : Scope) (m : TriggerMethod) :
    (c.outputBindings m).Loosens (c.lenient.outputBindings m) := by
  unfold outputBindings
  split
  next => exact loosens_pure _
  next kind output more _ =>
    apply (loosens_lift (.refl _)).bind
    intro _
    apply (loosens_noteAll _).bind
    intro _
    exact (loosens_lift (.refl _)).bind fun _ => loosens_pure _

theorem loosens_propose (c : Scope) (service : Service) (m : TriggerMethod) :
    (c.propose service m).Loosens (c.lenient.propose service m) := by
  apply (loosens_lift (.refl _)).bind
  intro _
  split
  next =>
    apply (loosens_noteAll _).bind
    intro _
    apply (loosens_lift (.refl _)).bind
    intro methodName
    apply (loosens_lift (eases_draft c service m methodName)).bind
    intro _
    exact (loosens_outputBindings c m).bind fun _ => loosens_pure _
  next => exact loosens_lift (.refl _)

theorem loosens_supply (c : Scope) (a : Marker) (setting : QueueSetting) :
    (c.supply a setting).Loosens (c.lenient.supply a setting) where
  grows := (steady_supply c a setting).grows
  firm h _ _ := h
  finds h h' _ := by
    obtain ⟨given, _, hg, -⟩ := ends_bind_ok.1 h
    have hg := (ends_lift.1 hg).1
    have h' : (c.supply a setting).Ends _ _ _ := h'
    exact ((supply_of_ok hg).1 h').1.symm

theorem loosens_serviceSettings (c : Scope) (kind : ServiceKind) (a : Marker) :
    (c.serviceSettings kind a).Loosens (c.lenient.serviceSettings kind a) := by
  cases kind with
  | http =>
    apply (loosens_lift (.refl (c.optional a "auth_level"))).bind
    intro given
    have hlevel : c.lenient.authLevel given = c.authLevel given := rfl
    rw [hlevel]
    dsimp only
    split
    · apply (loosens_lift (eases_pathValue c a "base_path")).bind
      intro _
      exact loosens_pure _
    · exact loosens_lift (.refl _)
  | queue =>
    apply (loosens_lift (.refl (c.required a "queue_name"))).bind
    intro queueName
    apply (loosens_lift (.refl (c.required a "connection"))).bind
    intro connection
    apply (loosens_supply c a .batchSize).bind
    intro _
    exact (loosens_supply c a .maxDequeueCount).bind fun _ => loosens_pure _
  | timer =>
    apply (loosens_lift (.refl (c.required a "schedule"))).bind
    intro schedule
    split
    · exact loosens_pure _
    · exact loosens_lift (.refl _)

theorem loosens_service (c : Scope) (s : ServiceDeclaration) :
    (c.service s).Loosens (c.lenient.service s) := by
  apply (loosens_lift (.refl (c.nameOf s.definition))).bind
  intro className
  apply (loosens_lift (.refl (c.single "service" s.moreServices))).bind
  intro _
  apply (loosens_noteAll (c.argumentWarnings s.service)).bind
  intro _
  exact (loosens_serviceSettings c s.kind s.service).bind fun _ => loosens_pure _

theorem grows_assignName (c : Scope) (m : TriggerMethod) (fallback : String) :
    (c.assignName m fallback).Adds fun _ => True := by
  intro p r q h
  refine ⟨[], ?_, fun _ _ => trivial⟩
  rw [List.append_nil]
  cases r with
  | ok name =>
    obtain ⟨-, -, -, rfl⟩ := assignName_ok h
    rfl
  | error e =>
    obtain ⟨rfl, -⟩ := assignName_error h
    rfl

theorem relaxes_analyzeFunction (c : Scope) (service : Service) (m : TriggerMethod) :
    (c.analyzeFunction service m).Relaxes (c.lenient.analyzeFunction service m) := by
  apply (loosens_propose c service m).toRelaxes.bind
  intro proposal
  apply (Relaxes.refl (grows_assignName c m proposal.draft.defaultName)).bind
  intro name
  apply (loosens_noteAll (c.methodNotes service m proposal.draft name)).toRelaxes.bind
  intro _
  exact (loosens_pure _).toRelaxes

theorem relaxes_analyzeMethods (c : Scope) (service : Service) (definition : Node)
    (members : List Symbol) : (c.analyzeMethods service definition members).Relaxes
      (c.lenient.analyzeMethods service definition members) := by
  induction members with
  | nil => exact (loosens_pure _).toRelaxes
  | cons symbol rest ih =>
    apply (loosens_lift (.refl (c.triggerMethod? definition symbol))).toRelaxes.bind
    intro o
    cases o with
    | none => exact ih
    | some m =>
      apply (relaxes_analyzeFunction c service m).attempt.bind
      intro function?
      apply ih.bind
      intro results
      exact (loosens_pure _).toRelaxes

theorem relaxes_analyzeService (c : Scope) (s : ServiceDeclaration) :
    (c.analyzeService s).Relaxes (c.lenient.analyzeService s) := by
  apply (loosens_service c s).toRelaxes.bind
  intro service
  apply (relaxes_analyzeMethods c service s.definition (c.methodSymbols s.definition)).bind
  intro results
  apply (loosens_noteAll (c.serviceNotes s.definition results)).toRelaxes.bind
  intro _
  exact (loosens_pure _).toRelaxes

/-- A run that rejects no path segment goes as the one that leaves them out. -/
theorem relaxes_analyzeStatements (c : Scope) (statements : List Node) :
    (c.analyzeStatements statements).Relaxes (c.lenient.analyzeStatements statements) := by
  induction statements with
  | nil => exact (loosens_pure _).toRelaxes
  | cons statement rest ih =>
    apply (loosens_lift (.refl _)).toRelaxes.bind
    intro o
    cases o with
    | none => exact ih
    | some s =>
      apply (relaxes_analyzeService c s).attempt.bind
      intro emitted?
      apply ih.bind
      intro more
      exact (loosens_pure _).toRelaxes

/-- Where the first run gives a name to a method, the second one has given it too, to the same
method or to an earlier one. -/
theorem mem_names_of_lenient (h : (c.analyzeFunction service m).Ends p (.ok f) q)
    (h' : (c.lenient.analyzeFunction service m).Ends p' r q') (hr : ¬IsFault r) :
    f.name ∈ q'.names := by
  obtain ⟨proposal, _, name, _, hx, hn, rfl, -⟩ := analyzeFunction_ok.1 h
  obtain ⟨⟨explicit, he, rfl⟩, hv, -, -⟩ := assignName_ok hn
  have hproposal : ∀ r q', (c.lenient.propose service m).Ends p' r q' → ¬IsFault r →
      r = .ok proposal := fun r q' hx' hr => (loosens_propose c service m).finds hx hx' hr
  cases r with
  | ok f' =>
    obtain ⟨proposal', r', name', r'', hx', hn', -, rfl⟩ := analyzeFunction_ok.1 h'
    cases hproposal _ _ hx' not_isFault_ok
    obtain ⟨⟨explicit', he', rfl⟩, -, -, rfl⟩ := assignName_ok hn'
    cases he.symm.trans he'
    exact List.mem_cons_self
  | error e =>
    rcases analyzeFunction_error.1 h' with hx' | ⟨proposal', r', hx', hn'⟩
    · cases hproposal _ _ hx' (mt IsFault.of_error hr)
    · cases hproposal _ _ hx' not_isFault_ok
      obtain ⟨rfl, he' | ⟨explicit', he', hname⟩⟩ := assignName_error hn'
      · cases he.symm.trans he'
      · cases he.symm.trans he'
        rcases hname with ⟨hinvalid, -⟩ | ⟨-, hused, -⟩
        · exact absurd hv (by simp [hinvalid])
        · exact hused

theorem names_grow_attempt (h : (attempt (c.analyzeFunction service m)).Ends p (.ok function?) q) :
    p.names ⊆ q.names := by
  rcases attempt_ok h with ⟨f, -, hf⟩ | ⟨e, r, -, hr, rfl⟩
  · rw [(names_of_analyzeFunction hf).2.2]
    exact List.subset_cons_self _ _
  · rw [Progress.names_note, names_of_rejected_function hr]
    exact List.Subset.refl _

theorem names_grow_methods {members : List Symbol}
    (h : (c.analyzeMethods service definition members).Ends p (.ok results) q) :
    p.names ⊆ q.names := by
  induction members generalizing p results with
  | nil =>
    obtain ⟨-, rfl⟩ := analyzeMethods_nil.1 h
    exact List.Subset.refl _
  | cons symbol rest ih =>
    rcases analyzeMethods_cons.1 h with ⟨-, hx⟩ | ⟨m, function?, r, more, -, hf, hm, -⟩
    · exact ih hx
    · exact List.Subset.trans (names_grow_attempt hf) (ih hm)

theorem names_grow_service (h : (attempt (c.analyzeService s)).Ends p (.ok emitted?) q) :
    p.names ⊆ q.names := by
  rcases attempt_ok h with ⟨functions, -, hf⟩ | ⟨e, r, -, hr, rfl⟩
  · obtain ⟨service, r, results, r', hs, hm, -, rfl⟩ := analyzeService_ok.1 hf
    have hnames := (steady_service c s).names hs
    have hgrows := names_grow_methods hm
    rw [hnames] at hgrows
    exact hgrows
  · rw [Progress.names_note, names_of_rejected_service hr]
    exact List.Subset.refl _

theorem names_attempt_function (hp : p.names ⊆ p'.names)
    (h : (attempt (c.analyzeFunction service m)).Ends p (.ok function?) q)
    (h' : (attempt (c.lenient.analyzeFunction service m)).Ends p' (.ok other?) q') :
    q.names ⊆ q'.names := by
  have hgrows := List.Subset.trans hp (names_grow_attempt h')
  rcases attempt_ok h with ⟨f, -, hf⟩ | ⟨e, r, -, hr, rfl⟩
  · have hmem : f.name ∈ q'.names := by
      rcases attempt_ok h' with ⟨f', -, hf'⟩ | ⟨e', r', -, hr', rfl⟩
      · exact mem_names_of_lenient hf hf' not_isFault_ok
      · have hrejected : ¬IsFault (.error (.rejected e') : Except Halt FunctionDescriptor) :=
          not_isFault_rejected e'
        have hmem := mem_names_of_lenient hf hr' hrejected
        exact hmem
    rw [(names_of_analyzeFunction hf).2.2]
    exact List.cons_subset.2 ⟨hmem, hgrows⟩
  · rw [Progress.names_note, names_of_rejected_function hr]
    exact hgrows

theorem names_methods {members : List Symbol} (hp : p.names ⊆ p'.names)
    (h : (c.analyzeMethods service definition members).Ends p (.ok results) q)
    (h' : (c.lenient.analyzeMethods service definition members).Ends p' (.ok results') q') :
    q.names ⊆ q'.names := by
  induction members generalizing p p' results results' with
  | nil =>
    obtain ⟨-, rfl⟩ := analyzeMethods_nil.1 h
    obtain ⟨-, rfl⟩ := analyzeMethods_nil.1 h'
    exact hp
  | cons symbol rest ih =>
    rcases analyzeMethods_cons.1 h with ⟨hnone, hx⟩ | ⟨m, function?, r, more, hsome, hf, hm, -⟩
    · rcases analyzeMethods_cons.1 h' with ⟨-, hx'⟩ | ⟨m', _, r', _, hsome', -, -, -⟩
      · exact ih hp hx hx'
      · cases hnone.symm.trans hsome'
    · rcases analyzeMethods_cons.1 h' with ⟨hnone', -⟩ | ⟨m', _, r', _, hsome', hf', hm', -⟩
      · cases hsome.symm.trans hnone'
      · cases hsome.symm.trans hsome'
        exact ih (names_attempt_function hp hf hf') hm hm'

theorem names_attempt_service (hp : p.names ⊆ p'.names)
    (h : (attempt (c.analyzeService s)).Ends p (.ok emitted?) q)
    (h' : (attempt (c.lenient.analyzeService s)).Ends p' (.ok other?) q') :
    q.names ⊆ q'.names := by
  rcases attempt_ok h with ⟨functions, -, hf⟩ | ⟨e, r, -, hr, rfl⟩
  · obtain ⟨service, r, results, t, hs, hm, -, rfl⟩ := analyzeService_ok.1 hf
    have hservice : ∀ r q', (c.lenient.service s).Ends p' r q' → ¬IsFault r → r = .ok service :=
      fun r q' hs' hr => (loosens_service c s).finds hs hs' hr
    rcases attempt_ok h' with ⟨functions', -, hf'⟩ | ⟨e', r', -, hr', rfl⟩
    · obtain ⟨service', r', results', t', hs', hm', -, rfl⟩ := analyzeService_ok.1 hf'
      cases hservice _ _ hs' not_isFault_ok
      have hnames := (steady_service c s).names hs
      have hnames' := (steady_service c.lenient s).names hs'
      rw [← hnames, ← hnames'] at hp
      have hq := names_methods hp hm hm'
      exact hq
    · have hs' := analyzeService_rejected.1 hr'
      cases hservice _ _ hs' (not_isFault_rejected e')
  · rw [Progress.names_note, names_of_rejected_service hr]
    exact List.Subset.trans hp (names_grow_service h')

theorem host_supplied_congr (h : p.host = p'.host) :
    (c.supplied a setting p given).host = (c.lenient.supplied a setting p' given).host := by
  cases hkept : setting.get p.host with
  | none =>
    cases given with
    | none => exact h
    | some n => rw [host_supplied_of_none hkept, host_supplied_of_none (h ▸ hkept), h]
  | some kept => rw [host_supplied_of_some hkept, host_supplied_of_some (h ▸ hkept), h]

theorem Supplies.of_lenient (h : c.lenient.Supplies s setting n) : c.Supplies s setting n where
  single := h.single
  kind := h.kind
  asks := ⟨h.asks.queueName, h.asks.connection, h.asks.earlier⟩
  value := h.value

theorem Supplies.lenient (h : c.Supplies s setting n) : c.lenient.Supplies s setting n where
  single := h.single
  kind := h.kind
  asks := ⟨h.asks.queueName, h.asks.connection, h.asks.earlier⟩
  value := h.value

/-- What a service supplies does not hang on how paths are read. -/
theorem host_attempt_service (hp : p.host = p'.host)
    (h : (attempt (c.analyzeService s)).Ends p (.ok emitted?) q)
    (h' : (attempt (c.lenient.analyzeService s)).Ends p' (.ok other?) q') : q.host = q'.host := by
  obtain ⟨given, hgiven, notes, -, -, -, hq, -⟩ := host_of_attempt h
  obtain ⟨given', hgiven', notes', -, -, -, hq', -⟩ := host_of_attempt h'
  have hsame : given = given' := by
    funext setting
    have hoffers : c.Offers s setting (given' setting) := fun n =>
      (hgiven' setting n).trans ⟨Supplies.of_lenient, Supplies.lenient⟩
    exact (hgiven setting).unique hoffers
  subst hsame
  rw [hq, hq', suppliedAll, suppliedAll]
  apply host_supplied_congr
  apply host_supplied_congr
  exact hp

/-- Of two runs over the same statements, the second one supplies the same host settings and has
given all names of the first one. -/
theorem coupled_statements {statements : List Node} (hhost : p.host = p'.host)
    (hnames : p.names ⊆ p'.names)
    (h : (c.analyzeStatements statements).Ends p (.ok functions) q)
    (h' : (c.lenient.analyzeStatements statements).Ends p' (.ok functions') q') :
    q.host = q'.host ∧ q.names ⊆ q'.names := by
  induction statements generalizing p p' functions functions' with
  | nil =>
    obtain ⟨-, rfl⟩ := analyzeStatements_nil.1 h
    obtain ⟨-, rfl⟩ := analyzeStatements_nil.1 h'
    exact ⟨hhost, hnames⟩
  | cons statement rest ih =>
    rcases analyzeStatements_cons.1 h with ⟨hnone, hx⟩ | ⟨s, _, r, _, hsome, hs, hm, -⟩
    · rcases analyzeStatements_cons.1 h' with ⟨-, hx'⟩ | ⟨s', _, r', _, hsome', -, -, -⟩
      · exact ih hhost hnames hx hx'
      · cases hnone.symm.trans hsome'
    · rcases analyzeStatements_cons.1 h' with ⟨hnone', -⟩ | ⟨s', _, r', _, hsome', hs', hm', -⟩
      · cases hsome.symm.trans hnone'
      · cases hsome.symm.trans hsome'
        have hhost' := host_attempt_service hhost hs hs'
        have hnames' := names_attempt_service hnames hs hs'
        exact ih hhost' hnames' hm hm'

end Scope

/-- Leaving out unsupported path segments changes a run only where the strict one reports such a
segment. Where both runs return an app, they have the same host settings, and the lenient one has
all function names of the strict one. -/
theorem Document.strict_paths (d : Document) (settings : Settings) :
    (∀ log app, d.analyze { settings with strictPaths := true } = ⟨log, .ok app⟩ →
      (∀ x ∈ log, x.code ≠ .unsupportedPathSegment) →
      d.analyze { settings with strictPaths := false } = ⟨log, .ok app⟩) ∧
    ∀ log app log' app', d.analyze { settings with strictPaths := true } = ⟨log, .ok app⟩ →
      d.analyze { settings with strictPaths := false } = ⟨log', .ok app'⟩ →
      app.host = app'.host ∧ ∀ f ∈ app.functions, ∃ f' ∈ app'.functions, f'.name = f.name := by
  constructor
  · intro log app h hlog
    obtain ⟨symbols, functions, p, ht, hrun, rfl, rfl⟩ := analyzeInto_ok.1 h
    let c : Scope := ⟨d, { settings with strictPaths := true }, symbols⟩
    have hrelaxes := Scope.relaxes_analyzeStatements c d.root.children
    have hrun' := hrelaxes.firm hrun (isFirm_ok functions) (Log.about_of_other hlog)
    exact analyzeInto_ok.2 ⟨symbols, functions, p, ht, hrun', rfl, rfl⟩
  · intro log app log' app' h h'
    obtain ⟨symbols, functions, p, ht, hrun, -, rfl⟩ := analyzeInto_ok.1 h
    obtain ⟨symbols', functions', p', ht', hrun', -, rfl⟩ := analyzeInto_ok.1 h'
    cases ht.symm.trans ht'
    let c : Scope := ⟨d, { settings with strictPaths := true }, symbols⟩
    have hcoupled := Scope.coupled_statements (c := c) rfl (List.Subset.refl _) hrun hrun'
    refine ⟨hcoupled.1, ?_⟩
    intro f hf
    have hreg := Scope.registered_analyzeStatements (Scope.registered_start _ []) hrun
    have hreg' := Scope.registered_analyzeStatements (Scope.registered_start _ []) hrun'
    have hname := (hreg.names f.name).2 ⟨f, hf, rfl⟩
    exact (hreg'.names f.name).1 (hcoupled.2 hname)

/-- Two methods of one default name, the first one with a path that is a number. -/
def Document.contestedName : Document where
  path := "names.py"
  source := ("@http_service\nclass H:\n @resource(method='get',path=0)\n def f(): 0\n" ++
    " @resource(method='get')\n def g(): 0\n").toUTF8
  tree :=
    .node "module" 0 104 "" [
      .node "decorated_definition" 0 103 "" [
        .node "decorator" 0 13 "" [
          .node "@" 0 1 "" [],
          .node "identifier" 1 13 "" []],
        .node "class_definition" 14 103 "definition" [
          .node "class" 14 19 "" [],
          .node "identifier" 20 21 "name" [],
          .node ":" 21 22 "" [],
          .node "block" 24 103 "body" [
            .node "decorated_definition" 24 66 "" [
              .node "decorator" 24 54 "" [
                .node "@" 24 25 "" [],
                .node "call" 25 54 "" [
                  .node "identifier" 25 33 "function" [],
                  .node "argument_list" 33 54 "arguments" [
                    .node "(" 33 34 "" [],
                    .node "keyword_argument" 34 46 "" [
                      .node "identifier" 34 40 "name" [],
                      .node "=" 40 41 "" [],
                      .node "string" 41 46 "value" []],
                    .node "," 46 47 "" [],
                    .node "keyword_argument" 47 53 "" [
                      .node "identifier" 47 51 "name" [],
                      .node "=" 51 52 "" [],
                      .node "integer" 52 53 "value" []],
                    .node ")" 53 54 "" []]]],
              .node "function_definition" 56 66 "definition" [
                .node "def" 56 59 "" [],
                .node "identifier" 60 61 "name" [],
                .node "parameters" 61 63 "parameters" [
                  .node "(" 61 62 "" [],
                  .node ")" 62 63 "" []],
                .node ":" 63 64 "" [],
                .node "block" 65 66 "body" [
                  .node "expression_statement" 65 66 "" [
                    .node "integer" 65 66 "" []]]]],
            .node "decorated_definition" 68 103 "" [
              .node "decorator" 68 91 "" [
                .node "@" 68 69 "" [],
                .node "call" 69 91 "" [
                  .node "identifier" 69 77 "function" [],
                  .node "argument_list" 77 91 "arguments" [
                    .node "(" 77 78 "" [],
                    .node "keyword_argument" 78 90 "" [
                      .node "identifier" 78 84 "name" [],
                      .node "=" 84 85 "" [],
                      .node "string" 85 90 "value" []],
                    .node ")" 90 91 "" []]]],
              .node "function_definition" 93 103 "definition" [
                .node "def" 93 96 "" [],
                .node "identifier" 97 98 "name" [],
                .node "parameters" 98 100 "parameters" [
                  .node "(" 98 99 "" [],
                  .node ")" 99 100 "" []],
                .node ":" 100 101 "" [],
                .node "block" 102 103 "body" [
                  .node "expression_statement" 102 103 "" [
                    .node "integer" 102 103 "" []]]]]]]]]

/-- The name goes to the second method in the strict run, and to the first one in the other. -/
theorem Document.analyze_contestedName : ∃ log app log' app',
    contestedName.analyze { strictPaths := true } = ⟨log, .ok app⟩ ∧
      contestedName.analyze { strictPaths := false } = ⟨log', .ok app'⟩ ∧
      app.functions.map FunctionDescriptor.handler = ["H.g"] ∧
      app'.functions.map FunctionDescriptor.handler = ["H.f"] := by
  let observe (_ : Log) (app : FunctionApp) := app.functions.map FunctionDescriptor.handler
  have h : (contestedName.analyze { strictPaths := true }).result.toOption.map
      (observe (contestedName.analyze { strictPaths := true }).log) = some ["H.g"] := by
    decide +kernel
  have h' : (contestedName.analyze { strictPaths := false }).result.toOption.map
      (observe (contestedName.analyze { strictPaths := false }).log) = some ["H.f"] := by
    decide +kernel
  obtain ⟨log, app, hrun, hseen⟩ := Outcome.ok_of_observed h
  obtain ⟨log', app', hrun', hseen'⟩ := Outcome.ok_of_observed h'
  exact ⟨log, app, log', app', hrun, hrun', hseen, hseen'⟩

theorem Document.analyze_openService_strict : ∃ log app,
    openService.analyze { strictPaths := true } = ⟨log, .ok app⟩ ∧
      log.map Diagnostic.code = [.acceptsAllMethods] := by
  let observe (log : Log) (_ : FunctionApp) := log.map Diagnostic.code
  have h : (openService.analyze { strictPaths := true }).result.toOption.map
      (observe (openService.analyze { strictPaths := true }).log) = some [.acceptsAllMethods] := by
    decide +kernel
  exact Outcome.ok_of_observed h

/-- The open service is analyzed alike in both ways; of the two methods, either way makes one a
function, under the same name. -/
theorem Document.strict_paths_contestedName :
    (∃ log app, openService.analyze { strictPaths := true } = ⟨log, .ok app⟩ ∧
      openService.analyze { strictPaths := false } = ⟨log, .ok app⟩) ∧
    ∃ log app log' app', contestedName.analyze { strictPaths := true } = ⟨log, .ok app⟩ ∧
      contestedName.analyze { strictPaths := false } = ⟨log', .ok app'⟩ ∧
      app.functions.map FunctionDescriptor.handler = ["H.g"] ∧
      app'.functions.map FunctionDescriptor.handler = ["H.f"] ∧ app.host = app'.host ∧
      ∀ f ∈ app.functions, ∃ f' ∈ app'.functions, f'.name = f.name := by
  constructor
  · obtain ⟨log, app, h, hlog⟩ := analyze_openService_strict
    refine ⟨log, app, h, (strict_paths openService {}).1 log app h ?_⟩
    intro x hx
    have hcode : x.code ∈ log.map Diagnostic.code := List.mem_map_of_mem hx
    rw [hlog] at hcode
    rw [List.mem_singleton.1 hcode]
    exact nofun
  · obtain ⟨log, app, log', app', h, h', hg, hf⟩ := analyze_contestedName
    have hnames := (strict_paths contestedName {}).2 log app log' app' h h'
    exact ⟨log, app, log', app', h, h', hg, hf, hnames⟩

end AppManifest
