import AppManifest.Proofs.Analysis.Confinement
import AppManifest.Proofs.Analysis.Replay

namespace AppManifest
set_option autoImplicit true

/-! Where diagnostics point: into the declaration that they are about. -/

/-- The bytes of a diagnostic are bytes of a node. -/
def Diagnostic.LiesIn (e : Diagnostic) (n : Node) : Prop :=
  n.tree.Covers e.location.startByte e.location.endByte

/-- A diagnostic names its document and a stretch of bytes to which its lines lead back. -/
structure Diagnostic.IsLocated (d : Document) (e : Diagnostic) : Prop where
  path : e.location.path = d.path
  start : d.offset? e.location.lines.start = some e.location.startByte
  stop : d.offset? e.location.lines.stop = some e.location.endByte
  forward : e.location.startByte ≤ e.location.endByte

/-- A node is a child of another one, and shares no byte with any other child. -/
inductive Node.StandsApart (n body : Node) : Prop
  | intro (h : body.children = before ++ n :: after) (hbefore : ∀ m ∈ before, m.stop ≤ n.start)
      (hafter : ∀ m ∈ after, n.stop ≤ m.start) : StandsApart n body

namespace Document

/-- A decorator stands beside a definition in the decorated definition around both. -/
def Decorates (d : Document) (decorator n : Node) : Prop :=
  ∃ m, n.parent? = some m ∧ d.kind m = .ok .decoratedDefinition ∧ decorator ∈ m.children ∧
    d.kind decorator = .ok .decorator

variable {d : Document} {n statement : Node}

/-- In a well-formed document with forward ranges the place of a node leads back to its bytes. -/
theorem WellFormed.isLocated (hd : d.WellFormed) (hforward : ∀ n, d.Has n → n.start ≤ n.stop)
    (hn : d.Has n) (f : Finding) : (f.diagnostic (d.location n)).IsLocated d := by
  have hstart := hd.start_nonneg n hn
  have hstop := hd.stop_le_size n hn
  have hle := hforward n hn
  exact {
    path := rfl
    start := offset?_position hstart (by omega)
    stop := offset?_position (by omega) hstop
    forward := hle }

/-- The name of the second method stands on the sixth line, behind a blank and the keyword. -/
example : (twoTicks.location ⟨.node "identifier" 85 86 "name" [], []⟩).text = "ticks.py:6:6" := by
  decide +kernel

theorem WellFormed.standsApart (hd : d.WellFormed) (hbody : d.Has body) (hn : n ∈ body.children) :
    n.StandsApart body := by
  obtain ⟨before, after, h⟩ := List.append_of_mem hn
  have hordered := hd.children_ordered hbody
  rw [h, List.pairwise_append, List.pairwise_cons] at hordered
  obtain ⟨-, ⟨hafter, -⟩, hbefore⟩ := hordered
  exact .intro h (fun m hm => hbefore m hm n List.mem_cons_self) hafter

theorem mem_markers {markers : List Marker} (h : d.markers n = .ok markers) (ha : a ∈ markers) :
    ∃ decorator, d.Decorates decorator n ∧ d.marker decorator = .ok a := by
  unfold Document.markers at h
  split at h
  next =>
    cases pure_eq_ok.1 h
    cases ha
  next m hm =>
    obtain ⟨k, hk, h⟩ := bind_eq_ok.1 h
    split at h
    next he =>
      subst he
      obtain ⟨decorator, hmem, hmarker⟩ := (mem_of_filterMapM_eq_ok h).1 ha
      obtain ⟨k, hkd, hmarker⟩ := bind_eq_ok.1 hmarker
      split at hmarker
      next he =>
        subst he
        obtain ⟨b, hb, hmarker⟩ := bind_eq_ok.1 hmarker
        cases pure_eq_ok.1 hmarker
        exact ⟨decorator, ⟨m, hm, hk, hmem, hkd⟩, hb⟩
      next => cases pure_eq_ok.1 hmarker
    next =>
      cases pure_eq_ok.1 h
      cases ha

/-- Markers are read from their decorators. -/
theorem in_of_markers {S : Node → Prop} (hchild : ∀ m, S m → ∀ c ∈ m.children, S c)
    (hS : ∀ decorator, d.Decorates decorator n → S decorator) {markers : List Marker}
    (h : d.markers n = .ok markers) : ∀ a ∈ markers, a.In S fun _ => True := by
  intro a ha
  obtain ⟨decorator, hdecorates, hmarker⟩ := mem_markers h ha
  have ⟨_, _, _, _, hk⟩ := hdecorates
  exact ((MarkerPart.of_child hchild).marker (hS _ hdecorates) hk).ok hmarker

/-- The markers of a service are among those of its class. -/
theorem markers_of_service (h : d.serviceDeclaration? statement = .ok (some s)) :
    ∃ markers, d.markers s.definition = .ok markers ∧ s.service ∈ markers ∧
      ∀ a ∈ s.moreServices, a ∈ markers := by
  obtain ⟨-, -, -, markers, more, hm, hs, hmore⟩ := serviceDeclaration?_some h
  have hmem : ∀ x ∈ serviceMarkers markers, x.2 ∈ markers := by
    intro x hx
    obtain ⟨a, ha, hx⟩ := List.mem_filterMap.1 hx
    obtain ⟨kind, -, rfl⟩ := Option.map_eq_some_iff.1 hx
    exact ha
  rw [hs] at hmem
  refine ⟨markers, hm, hmem _ List.mem_cons_self, fun a ha => ?_⟩
  rw [hmore] at ha
  obtain ⟨x, hx, rfl⟩ := List.mem_map.1 ha
  exact hmem x (List.mem_cons_of_mem _ hx)

/-- A method with a trigger is decorated. -/
theorem decorated_of_trigger (h : d.triggerMethod? n = .ok (some m)) :
    m.node = n ∧ ∃ p, n.parent? = some p ∧ d.kind p = .ok .decoratedDefinition := by
  obtain ⟨hnode, markers, hm, hfilter, -⟩ := triggerMethod?_some h
  have htrigger : m.trigger ∈ markers := by
    apply List.mem_of_mem_filter
    rw [hfilter]
    exact List.mem_cons_self
  obtain ⟨_, ⟨p, hp, hk, -⟩, -⟩ := mem_markers hm htrigger
  exact ⟨hnode, p, hp, hk⟩

end Document

/-- The decorated definition of a method ends before that of another one begins. -/
def TriggerMethod.Before (m m' : TriggerMethod) : Prop :=
  ∀ n n', m.node.parent? = some n → m'.node.parent? = some n' → n.stop ≤ n'.start

namespace Scope

/-- All that is reported about a method lies in its decorated definition, which lies in the class.
Unless the body of the class is itself decorated, that definition is one of its statements, and
apart from every other one, so from every other method. -/
inductive MethodPlaced (c : Scope) (service : Service) (definition : Node) (m : TriggerMethod)
    (p q : Progress) : Prop
  | intro (h : (Analysis.attempt (c.analyzeFunction service m)).Ends p (.ok function?) q)
      (hp : m.node.parent? = some decorated)
      (hk : c.document.kind decorated = .ok .decoratedDefinition)
      (hclass : definition.Encloses decorated)
      (hbody : ∀ body ∈ definition.field? "body",
        c.document.kind body ≠ .ok .decoratedDefinition →
          c.document.StandsFor decorated m.node ∧ decorated.StandsApart body)
      (hl : q.log = p.log ++ notes)
      (hn : ∀ e ∈ notes, e.LiesIn decorated) : MethodPlaced c service definition m p q

/-- All that is reported about a service lies in decorators of its class, but for what is reported
about its methods, and the warning that it has none, which is at its name. -/
inductive ServicePlaced (c : Scope) (s : ServiceDeclaration) : Progress → Progress → Prop
  | rejected (h : (c.service s).Ends p (.error (.rejected e)) q)
      (hl : (q.note e).log = p.log ++ notes)
      (hn : ∀ x ∈ notes, ∃ k, c.document.Decorates k s.definition ∧ x.LiesIn k) :
      ServicePlaced c s p (q.note e)
  | accepted {service : Service} {methods : List TriggerMethod}
      (h : (c.service s).Ends p (.ok service) q) (hl : q.log = p.log ++ notes)
      (hn : ∀ x ∈ notes, ∃ k, c.document.Decorates k s.definition ∧ x.LiesIn k)
      (hm : (c.methodSymbols s.definition).filterMapM (c.triggerMethod? s.definition) =
        .ok methods)
      (ht : Through (c.MethodPlaced service s.definition) methods q r)
      (ho : (∀ body ∈ s.definition.field? "body",
          c.document.kind body ≠ .ok .decoratedDefinition) → methods.Pairwise TriggerMethod.Before)
      (hl' : t.log = r.log ++ last)
      (hn' : ∀ x ∈ last, methods = [] ∧ x.code = .noTriggerFunctions ∧
        x.location = c.document.location ((s.definition.field? "name").getD s.definition)) :
      ServicePlaced c s p t

variable {c : Scope} {definition body statement : Node} {service : Service} {p q : Progress}

theorem Finds.liesIn (h : c.Finds (·.Below n) e) (hd : c.document.WellFormed)
    (hn : c.document.Has n) : e.LiesIn n := by
  obtain ⟨m, f, hm, rfl⟩ := h
  exact hd.encloses hn hm

/-- A service is looked at in its decorators only. -/
theorem stays_service_decorators (hs : c.document.serviceDeclaration? statement = .ok (some s)) :
    c.Stays (fun n => ∃ k, c.document.Decorates k s.definition ∧ n.Below k) (fun _ => True)
      (fun _ => True) (c.service s) := by
  have hchild (n : Node) (hn : ∃ k, c.document.Decorates k s.definition ∧ n.Below k) :
      ∀ m ∈ n.children, ∃ k, c.document.Decorates k s.definition ∧ m.Below k := by
    obtain ⟨k, hk, hn⟩ := hn
    exact fun m hm => ⟨k, hk, .tail hn hm⟩
  obtain ⟨markers, hmarkers, hservice, hmore⟩ := Document.markers_of_service hs
  have hin := Document.in_of_markers hchild (fun k hk => ⟨k, hk, .refl⟩) hmarkers
  exact stays_service (.of_child hchild) (yields_nameOf_of_text fun _ _ => .all) (hin _ hservice)
    (fun a ha => hin a (hmore a ha)) fun _ _ => trivial

theorem liesIn_decorator (hd : c.document.WellFormed) (hn : c.document.Has n)
    (h : c.Finds (fun m => ∃ k, c.document.Decorates k n ∧ m.Below k) e) :
    ∃ k, c.document.Decorates k n ∧ e.LiesIn k := by
  obtain ⟨m, f, ⟨k, hk, hm⟩, rfl⟩ := h
  have ⟨l, hl, _, hmem, _⟩ := hk
  exact ⟨k, hk, hd.encloses ((hn.parent hl).child hmem) hm⟩

/-- A method is looked at in its decorated definition only. -/
theorem stays_decorated (hn : c.document.Has n) (hm : c.document.triggerMethod? n = .ok (some m))
    (hp : n.parent? = some decorated) (service : Service) :
    c.Stays (·.Below decorated) (fun _ => True) (fun _ => True)
      (Analysis.attempt (c.analyzeFunction service m)) := by
  have hpart : c.Part (·.Below decorated) fun _ => True :=
    .of_child fun _ hn _ hc => .tail hn hc
  have hn : n.Below decorated := .single (hn.above hp).2
  have hparent l (hl : n.parent? = some l) : l.Below decorated := by
    cases hp.symm.trans hl
    exact .refl
  have hin := (hpart.triggerMethod? hn hparent).ok hm
  exact (stays_analyzeFunction hpart (hin m rfl) service).attempt

/-- A statement of the body of a class defines a trigger method. -/
structure DefinesMethod (c : Scope) (definition statement : Node) (m : TriggerMethod) : Prop where
  body : ∃ body, definition.field? "body" = some body ∧ statement ∈ body.children
  node : c.document.StandsFor statement m.node
  trigger : c.document.triggerMethod? m.node = .ok (some m)

theorem DefinesMethod.has (h : c.DefinesMethod definition statement m)
    (hdef : c.document.Has definition) : c.document.Has m.node := by
  obtain ⟨body, hb, hst⟩ := h.body
  exact ((hdef.field hb).child hst).definition h.node

/-- Unless the body of a class is itself decorated, its methods are decorated where its statements
stand. -/
theorem DefinesMethod.parent_eq (hm : c.DefinesMethod definition statement m)
    (hp : m.node.parent? = some decorated) (hb : definition.field? "body" = some body)
    (hbare : c.document.kind body ≠ .ok .decoratedDefinition) : decorated = statement := by
  obtain ⟨_, hb', hst⟩ := hm.body
  cases hb.symm.trans hb'
  obtain ⟨-, decorated, hp', hk⟩ := Document.decorated_of_trigger hm.trigger
  cases hp.symm.trans hp'
  rcases hm.node.parent hst hp with rfl | rfl
  · rfl
  · exact absurd hk hbare

theorem DefinesMethod.standsApart (hm : c.DefinesMethod definition statement m)
    (hd : c.document.WellFormed) (hdef : c.document.Has definition)
    (hp : m.node.parent? = some decorated) : ∀ body ∈ definition.field? "body",
      c.document.kind body ≠ .ok .decoratedDefinition →
        c.document.StandsFor decorated m.node ∧ decorated.StandsApart body := by
  intro body hb hbare
  obtain rfl := hm.parent_eq hp hb hbare
  obtain ⟨_, hb', hst⟩ := hm.body
  cases hb.symm.trans hb'
  exact ⟨hm.node, hd.standsApart (hdef.field hb) hst⟩

/-- What is reported about a method lies in place. -/
theorem DefinesMethod.placed (hm : c.DefinesMethod definition statement m)
    (hd : c.document.WellFormed) (hdef : c.document.Has definition)
    (h : (Analysis.attempt (c.analyzeFunction service m)).Ends p (.ok function?) q) :
    c.MethodPlaced service definition m p q := by
  obtain ⟨body, hb, hst⟩ := hm.body
  obtain ⟨-, decorated, hp, hk⟩ := Document.decorated_of_trigger hm.trigger
  have hbody := Node.mem_children_of_field? hb
  have hbelow : decorated.Below definition := by
    rcases hm.node.parent hst hp with rfl | rfl
    · exact .tail (.single hbody) hst
    · exact .single hbody
  obtain ⟨notes, hl, hnotes⟩ :=
    (stays_decorated (hm.has hdef) hm.trigger hp service).log _ _ _ h
  exact .intro h hp hk (hd.encloses hdef hbelow) (hm.standsApart hd hdef hp) hl fun e he =>
    (hnotes e he).liesIn hd (hdef.below hbelow)

theorem DefinesMethod.before (hm : c.DefinesMethod definition statement m)
    (hm' : c.DefinesMethod definition statement' m') (hle : statement.stop ≤ statement'.start)
    (hbare : ∀ body ∈ definition.field? "body",
      c.document.kind body ≠ .ok .decoratedDefinition) : m.Before m' := by
  intro n n' hn hn'
  obtain ⟨body, hb, -⟩ := hm.body
  rw [hm.parent_eq hn hb (hbare body hb), hm'.parent_eq hn' hb (hbare body hb)]
  exact hle

section

variable (hd : c.document.WellFormed) (htokens : c.document.DeclaresByTokens)
  (ht : SymbolTable.ofDocument c.document = .ok c.symbols)
include hd htokens

/-- The method behind a symbol is the one whose statement has brought the symbol. -/
theorem definesMethod_of_symbol (hclass : c.document.Declares definition token own)
    (hk : c.document.kind definition = .ok .classDefinition)
    (hb : definition.field? "body" = some body) (hst : statement ∈ body.children)
    (hs : c.document.method? statement = .ok (some symbol))
    (hm : c.triggerMethod? definition symbol = .ok (some m)) :
    c.DefinesMethod definition statement m := by
  have htok n token (hn : c.document.StandsFor statement n)
      (hk' : c.document.kind n = .ok .functionDefinition)
      (hf : n.field? "name" = some token) : token.IsToken := by
    obtain ⟨n', token', hn', -, hf', hsymbol⟩ := Document.method?_eq_ok_some.1 hs
    cases hn.unique hn'
    cases hf.symm.trans hf'
    exact htokens n token symbol (.method hclass hk hb hst hn hk' hf hsymbol)
  rw [triggerMethod?_member hd hclass.has hb hst htok hs] at hm
  obtain ⟨hnode, -, htrigger⟩ := Document.bodyMethod?_some hm
  exact ⟨⟨body, hb, hst⟩, hnode, htrigger⟩

include ht

/-- The methods of a class are defined by statements of its body, in their order. -/
theorem definesMethod_of_symbols (hst : statement ∈ c.document.root.children)
    (hn : c.document.StandsFor statement definition)
    (hk : c.document.kind definition = .ok .classDefinition) {methods : List TriggerMethod}
    (hm : (c.methodSymbols definition).filterMapM (c.triggerMethod? definition) = .ok methods) :
    (∀ m ∈ methods, ∃ member, c.DefinesMethod definition member m) ∧
      methods.Pairwise fun m m' => ∃ member member', c.DefinesMethod definition member m ∧
        c.DefinesMethod definition member' m' ∧ member.stop ≤ member'.start := by
  cases hf : definition.field? "name" with
  | none =>
    rw [methodSymbols, hf] at hm
    cases pure_eq_ok.1 hm
    exact ⟨List.forall_mem_nil _, .nil⟩
  | some token =>
    obtain ⟨own, _, hown, -⟩ := Document.entry_of_class ht hst hn hk hf
    have hclass : c.document.Declares definition token own := .classType hst hn hk hf hown
    have hmethods :=
      methodSymbols_of_name hd (fun n token s h _ => htokens n token s h) ht hst hn hk hf
    rw [Document.methods] at hmethods
    cases hb : definition.field? "body" with
    | none =>
      rw [hb] at hmethods
      rw [← pure_eq_ok.1 hmethods] at hm
      cases pure_eq_ok.1 hm
      exact ⟨List.forall_mem_nil _, .nil⟩
    | some body =>
      rw [hb] at hmethods
      have hordered := hd.children_ordered (hclass.has.field hb)
      have hdefines {symbol m} (member : Node) (hmember : member ∈ body.children)
          (hs : c.document.method? member = .ok (some symbol))
          (hm : c.triggerMethod? definition symbol = .ok (some m)) :=
        definesMethod_of_symbol hd htokens hclass hk hb hmember hs hm
      constructor
      · intro m hmem
        obtain ⟨symbol, hsymbol, hm⟩ := (mem_of_filterMapM_eq_ok hm).1 hmem
        obtain ⟨member, hmember, hs⟩ := (mem_of_filterMapM_eq_ok hmethods).1 hsymbol
        exact ⟨member, hdefines member hmember hs hm⟩
      · have hsymbols : (c.methodSymbols definition).Pairwise fun s s' =>
            ∃ member ∈ body.children, ∃ member' ∈ body.children,
              c.document.method? member = .ok (some s) ∧
              c.document.method? member' = .ok (some s') ∧ member.stop ≤ member'.start :=
          pairwise_of_filterMapM_eq_ok hmethods hordered fun x hx x' hx' hle s s' hs hs' =>
            ⟨x, hx, x', hx', hs, hs', hle⟩
        apply pairwise_of_filterMapM_eq_ok hm hsymbols
        rintro s - s' - ⟨x, hx, x', hx', hs, hs', hle⟩ m m' hm hm'
        exact ⟨x, x', hdefines x hx hs hm, hdefines x' hx' hs' hm', hle⟩

/-- What is reported about a service lies in place. -/
theorem servicePlaced (hst : statement ∈ c.document.root.children)
    (hs : c.document.serviceDeclaration? statement = .ok (some s))
    (h : (Analysis.attempt (c.analyzeService s)).Ends p (.ok emitted?) q) :
    c.ServicePlaced s p q := by
  obtain ⟨hdec, hf, hk, -⟩ := Document.serviceDeclaration?_some hs
  have hn : c.document.StandsFor statement s.definition := .decorated hdec hf
  have hdef : c.document.Has s.definition := (c.document.has_root.child hst).definition hn
  have hstays := stays_service_decorators hs
  rcases Analysis.attempt_ok h with ⟨fs, rfl, hfs⟩ | ⟨e, r, rfl, hr, rfl⟩
  · obtain ⟨service, r, results, r', hv, hm, rfl, rfl⟩ := analyzeService_ok.1 hfs
    obtain ⟨methods, hms, htr, hthrough⟩ := through_symbols [] hm
    obtain ⟨hdefines, hordered⟩ := definesMethod_of_symbols hd htokens ht hst hn hk hms
    obtain ⟨notes, hl, hnotes⟩ := hstays.log _ _ _ hv
    refine .accepted hv hl (fun e he => liesIn_decorator hd hdef (hnotes e he)) hms ?_ ?_ rfl ?_
    · apply (hthrough.simulate (I := fun _ => True) (g := Standing.progress) trivial ?_).2
      intro m hmem u v _ hstep
      obtain ⟨member, hm⟩ := hdefines m hmem
      obtain ⟨function?, hstep⟩ := hstep.attempt
      exact ⟨trivial, hm.placed hd hdef hstep⟩
    · intro hbare
      apply hordered.imp
      rintro m m' ⟨member, member', hm, hm', hle⟩
      exact hm.before hm' hle hbare
    · intro e he
      unfold serviceNotes at he
      split at he
      next => cases he
      next hnone =>
        cases List.mem_singleton.1 he
        rw [htr, Bool.not_eq_true', Bool.not_eq_false, List.isEmpty_iff] at hnone
        exact ⟨hnone, rfl, rfl⟩
  · have hr := analyzeService_rejected.1 hr
    have hcaught := (Analysis.ends_attempt_of_rejected hr).2 ⟨rfl, rfl⟩
    obtain ⟨notes, hl, hnotes⟩ := hstays.attempt.log _ _ _ hcaught
    exact .rejected hr hl fun e he => liesIn_decorator hd hdef (hnotes e he)

end

end Scope

namespace Document

variable {d : Document}

/-- All diagnostics of a run point to nodes of the document. -/
theorem finds_has {c : Scope} (h : (c.analyzeStatements c.document.root.children).Ends p r q) :
    ∃ notes, q.log = p.log ++ notes ∧ ∀ e ∈ notes, c.Finds c.document.Has e := by
  have hpart : c.Part c.document.Has fun _ => True := .of_child fun _ hn _ hc => hn.child hc
  refine (Scope.stays_analyzeStatements hpart (fun _ hst => c.document.has_root.child hst) ?_
    ?_).log _ _ _ h
  · intros
    trivial
  · intro definition _ symbol _ n hn _
    exact ⟨has_of_locate? hn, fun l hl => (has_of_locate? hn).parent hl⟩

/-- In a run that returns an app, every diagnostic names a stretch of the document, and lies in
place: in a decorator of the class of a service, at the name of a class without trigger methods, or
in the decorated definition of a method. The classes of services share no byte. Nor does the
decorated definition of a method share one with any other statement of its class, so with any other
method, triggered or not, unless the body of that class is itself a decorated definition. -/
theorem diagnostics_placed (hd : d.WellFormed) (hforward : ∀ n, d.Has n → n.start ≤ n.stop)
    (htokens : d.DeclaresByTokens) (h : d.analyzeInto log settings = ⟨log', .ok app⟩) :
    ∃ symbols services notes p, SymbolTable.ofDocument d = .ok symbols ∧
      d.serviceDeclarations d.root = .ok services ∧ log' = log ++ notes ∧
      (∀ e ∈ notes, e.IsLocated d) ∧
      Through (Scope.ServicePlaced ⟨d, settings, symbols⟩) services
        (Scope.start ⟨d, settings, symbols⟩ log) p ∧ p.log = log' ∧
      services.Pairwise fun s s' => s.definition.stop ≤ s'.definition.start := by
  obtain ⟨symbols, functions, p, ht, hrun, rfl, rfl⟩ := analyzeInto_ok.1 h
  obtain ⟨notes, hl, hnotes⟩ := finds_has hrun
  obtain ⟨services, hss, hthrough⟩ := Scope.through_services [] hrun
  refine ⟨symbols, services, notes, p, ht, hss, hl, ?_, ?_, rfl, ?_⟩
  · intro e he
    obtain ⟨n, f, hn, rfl⟩ := hnotes e he
    exact hd.isLocated hforward hn f
  · apply (hthrough.simulate (I := fun _ => True) (g := Standing.progress) trivial ?_).2
    intro s hmem u v _ hattempt
    obtain ⟨statement, hst, hs⟩ := (mem_of_filterMapM_eq_ok hss).1 hmem
    cases hattempt with
    | intro h =>
      exact ⟨trivial, Scope.servicePlaced (c := ⟨d, settings, symbols⟩) hd htokens ht hst hs h⟩
  · apply pairwise_of_filterMapM_eq_ok hss (hd.children_ordered d.has_root)
    intro x hx x' hx' hle s s' hs hs'
    have hwithin {x s} (hx : x ∈ d.root.children)
        (hs : d.serviceDeclaration? x = .ok (some s)) : x.Encloses s.definition := by
      obtain ⟨-, hf, -⟩ := serviceDeclaration?_some hs
      exact hd.nested _ (d.has_root.child hx) _ (Node.mem_children_of_field? hf)
    have hstop := (hwithin hx hs).2
    have hstart := (hwithin hx' hs').1
    exact Int.le_trans hstop (Int.le_trans hle hstart)

set_option maxRecDepth 100000 in
/-- The error about the second of two methods of one name lies in its decorated definition. -/
theorem diagnostics_placed_twoTicks : twoTicks.WellFormed ∧
    (∀ n, twoTicks.Has n → n.start ≤ n.stop) ∧ twoTicks.DeclaresByTokens ∧
    ∃ e app symbols services p, twoTicks.analyzeInto [] {} = ⟨[e], .ok app⟩ ∧
      e.IsLocated twoTicks ∧ SymbolTable.ofDocument twoTicks = .ok symbols ∧
      twoTicks.serviceDeclarations twoTicks.root = .ok services ∧
      Through (Scope.ServicePlaced ⟨twoTicks, {}, symbols⟩) services
        (Scope.start ⟨twoTicks, {}, symbols⟩ []) p ∧ p.log = [e] := by
  have hforward : ∀ n, twoTicks.Has n → n.start ≤ n.stop := by decide +kernel
  have htokens := declaresByTokens_of_fields name_twoTicks
  obtain ⟨log, app, h, hlog, -⟩ := analyze_twoTicks
  obtain ⟨e, rfl, -⟩ := List.map_eq_singleton_iff.1 hlog
  obtain ⟨symbols, services, notes, p, ht, hs, hnotes, hlocated, hthrough, hp, -⟩ :=
    diagnostics_placed wellFormed_twoTicks hforward htokens h
  cases hnotes
  exact ⟨wellFormed_twoTicks, hforward, htokens, e, app, symbols, services, p, h,
    hlocated e List.mem_cons_self, ht, hs, hthrough, hp⟩

/-- A service whose body is one decorated definition around two methods. -/
def sharedDecorator : Document where
  path := "things.py"
  source := "@http_service\nclass T:\n @resource\n def a(): 0\n def b(): 0\n".toUTF8
  tree :=
    .node "module" 0 58 "" [
      .node "decorated_definition" 0 57 "" [
        .node "decorator" 0 13 "" [
          .node "@" 0 1 "" [],
          .node "identifier" 1 13 "" []],
        .node "class_definition" 14 57 "definition" [
          .node "class" 14 19 "" [],
          .node "identifier" 20 21 "name" [],
          .node ":" 21 22 "" [],
          .node "decorated_definition" 24 57 "body" [
            .node "decorator" 24 33 "" [
              .node "@" 24 25 "" [],
              .node "identifier" 25 33 "" []],
            .node "function_definition" 35 45 "" [
              .node "def" 35 38 "" [],
              .node "identifier" 39 40 "name" [],
              .node "parameters" 40 42 "parameters" [
                .node "(" 40 41 "" [],
                .node ")" 41 42 "" []],
              .node ":" 42 43 "" [],
              .node "block" 44 45 "body" [
                .node "expression_statement" 44 45 "" [
                  .node "integer" 44 45 "" []]]],
            .node "function_definition" 47 57 "" [
              .node "def" 47 50 "" [],
              .node "identifier" 51 52 "name" [],
              .node "parameters" 52 54 "parameters" [
                .node "(" 52 53 "" [],
                .node ")" 53 54 "" []],
              .node ":" 54 55 "" [],
              .node "block" 56 57 "body" [
                .node "expression_statement" 56 57 "" [
                  .node "integer" 56 57 "" []]]]]]]]

/-- Where the trigger methods of the one service of a document start, and what bytes the nodes
around them span. -/
def methodPlaces (d : Document) : Option (List (Int × Option (Int × Int))) := do
  let symbols ← (SymbolTable.ofDocument d).toOption
  let services ← (d.serviceDeclarations d.root).toOption
  match services with
  | [s] =>
    ((Scope.methodSymbols ⟨d, {}, symbols⟩ s.definition).filterMapM
        (Scope.triggerMethod? ⟨d, {}, symbols⟩ s.definition)).toOption.map fun methods =>
      methods.map fun m => (m.node.start, m.node.parent?.map fun n => (n.start, n.stop))
  | _ => none

set_option maxRecDepth 100000 in
/-- What is reported at that decorator lies in the decorated definitions of both methods. -/
theorem diagnostics_in_sharedDecorator : sharedDecorator.WellFormed ∧
    (∀ n, sharedDecorator.Has n → n.start ≤ n.stop) ∧ sharedDecorator.DeclaresByTokens ∧
    ∃ log app symbols s methods, sharedDecorator.analyze {} = ⟨log, .ok app⟩ ∧
      SymbolTable.ofDocument sharedDecorator = .ok symbols ∧
      sharedDecorator.serviceDeclarations sharedDecorator.root = .ok [s] ∧
      (Scope.methodSymbols ⟨sharedDecorator, {}, symbols⟩ s.definition).filterMapM
        (Scope.triggerMethod? ⟨sharedDecorator, {}, symbols⟩ s.definition) = .ok methods ∧
      ∃ m ∈ methods, ∃ m' ∈ methods, m.node.start ≠ m'.node.start ∧
        ∃ n n', m.node.parent? = some n ∧ m'.node.parent? = some n' ∧
          ∃ e ∈ log, e.location.startByte < e.location.endByte ∧ e.LiesIn n ∧ e.LiesIn n' := by
  have hwellFormed : sharedDecorator.WellFormed := by decide +kernel
  have hforward : ∀ n, sharedDecorator.Has n → n.start ≤ n.stop := by decide +kernel
  have hfields : ∀ n, sharedDecorator.Has n → (∀ token ∈ n.field? "name", token.IsToken) ∧
      ∀ token ∈ n.field? "left", token.IsToken := by decide +kernel
  have hrun : (fun o : Outcome => (o.result.toOption.isSome,
      o.log.map fun e => (e.location.startByte, e.location.endByte)))
      (sharedDecorator.analyze {}) = (true, [(24, 33), (24, 33)]) := by decide +kernel
  have hmethod {m : TriggerMethod} {start : Int}
      (h : (m.node.start, m.node.parent?.map fun n => (n.start, n.stop)) = (start, some (24, 57))) :
      m.node.start = start ∧ ∃ n, m.node.parent? = some n ∧ ∀ e : Diagnostic,
        e.location.startByte = 24 ∧ e.location.endByte = 33 → e.LiesIn n := by
    obtain ⟨hstart, hparent⟩ := Prod.mk.inj h
    obtain ⟨n, hn, hrange⟩ := Option.map_eq_some_iff.1 hparent
    obtain ⟨hfirst, hlast⟩ := Prod.mk.inj hrange
    refine ⟨hstart, n, hn, fun e ⟨he, he'⟩ => ⟨?_, ?_⟩⟩
    · change n.start ≤ _
      omega
    · change _ ≤ n.stop
      omega
  have hmethods : sharedDecorator.methodPlaces =
      some [(35, some (24, 57)), (47, some (24, 57))] := by decide +kernel
  unfold methodPlaces at hmethods
  obtain ⟨happ, hlog⟩ := Prod.mk.inj hrun
  obtain ⟨app, happ⟩ := Option.isSome_iff_exists.1 happ
  obtain ⟨e, es, hes, he, -⟩ := List.map_eq_cons_iff.1 hlog
  have hbytes := Prod.mk.inj he
  have hrun : sharedDecorator.analyze {} = ⟨e :: es, .ok app⟩ := by
    rw [← hes, ← eq_ok_of_toOption happ]
  obtain ⟨symbols, hsymbols, hmethods⟩ := Option.bind_eq_some_iff.1 hmethods
  obtain ⟨services, hservices, hmethods⟩ := Option.bind_eq_some_iff.1 hmethods
  split at hmethods
  next s =>
    obtain ⟨methods, hms, hmethods⟩ := Option.map_eq_some_iff.1 hmethods
    obtain ⟨m, rest, rfl, hm, hrest⟩ := List.map_eq_cons_iff.1 hmethods
    obtain ⟨m', rfl, hm'⟩ := List.map_eq_singleton_iff.1 hrest
    obtain ⟨hstart, n, hn, hin⟩ := hmethod hm
    obtain ⟨hstart', n', hn', hin'⟩ := hmethod hm'
    refine ⟨hwellFormed, hforward, declaresByTokens_of_fields hfields, _, app, symbols, s, _, hrun,
      eq_ok_of_toOption hsymbols, eq_ok_of_toOption hservices, eq_ok_of_toOption hms,
      m, List.mem_cons_self, m', List.mem_cons_of_mem _ List.mem_cons_self, ?_,
      n, n', hn, hn', e, List.mem_cons_self, ?_, ?_, ?_⟩
    · rw [hstart, hstart']
      decide
    · rw [hbytes.1, hbytes.2]
      decide
    · exact hin e hbytes
    · exact hin' e hbytes
  next => cases hmethods

end Document

end AppManifest
