import AppManifest.Analysis.Service
import AppManifest.Proofs.Except
import AppManifest.Proofs.Syntax.Nesting

namespace AppManifest
set_option autoImplicit true

/-! What reading the nodes of a part of a document comes to: nodes of that part, or faults that it
may have. -/

/-- Some nodes of a document, with a node all that lies below it, and the faults that may be met in
reading their texts. -/
structure Document.Part (d : Document) (S : Node → Prop) (F : Fault → Prop) : Prop where
  child : ∀ n, S n → ∀ c ∈ n.children, S c
  text : ∀ n, S n → Yields F (fun _ => True) (d.text n)

/-- A part with the faults that may be met in reading its decorators, too. -/
structure Document.MarkerPart (d : Document) (S : Node → Prop) (F : Fault → Prop) : Prop
    extends d.Part S F where
  value : ∀ n, S n → d.kind n = .ok .keywordArgument → n.field? "value" = none →
    ∀ name, F (.missingValue name)
  expression : ∀ n, S n → d.kind n = .ok .decorator →
    d.decoratorExpression n.children = .error .emptyDecorator → F .emptyDecorator
  services : F .emptyDecorator → F .emptyServiceDecorator

/-- A field whose nodes are some of those; where its value lacks, that is one of the faults. -/
structure MarkerField.In (S : Node → Prop) (F : Fault → Prop) (f : MarkerField) : Prop where
  node : S f.node
  value : ∀ n, f.value = some n → S n
  missing : f.value = none → F (.missingValue f.name)

structure Marker.In (S : Node → Prop) (F : Fault → Prop) (a : Marker) : Prop where
  node : S a.node
  fields : ∀ f ∈ a.fields, f.In S F
  positional : ∀ n ∈ a.positional, S n

structure ServiceDeclaration.In (S : Node → Prop) (F : Fault → Prop) (s : ServiceDeclaration) :
    Prop where
  definition : S s.definition
  service : s.service.In S F
  moreServices : ∀ a ∈ s.moreServices, a.In S F

structure TriggerMethod.In (S : Node → Prop) (F : Fault → Prop) (m : TriggerMethod) : Prop where
  node : S m.node
  trigger : m.trigger.In S F
  moreTriggers : ∀ a ∈ m.moreTriggers, a.In S F
  outputs : ∀ o ∈ m.outputs, o.2.In S F

def Argument.In (S : Node → Prop) (F : Fault → Prop) : Argument → Prop
  | keyword f => f.In S F
  | positional n => S n
  | punctuation => True

theorem Argument.in_marker {as : List Argument} (hn : S n) (has : ∀ a ∈ as, a.In S F)
    (name : String) :
    Marker.In S F ⟨name, n, as.filterMap field?, as.filterMap positional?⟩ where
  node := hn
  fields f hf := by
    obtain ⟨a, ha, hf⟩ := List.mem_filterMap.1 hf
    have ha := has a ha
    cases a with
    | keyword g =>
      cases hf
      exact ha
    | positional m => cases hf
    | punctuation => cases hf
  positional m hm := by
    obtain ⟨a, ha, hm⟩ := List.mem_filterMap.1 hm
    have ha := has a ha
    cases a with
    | keyword g => cases hm
    | positional l =>
      cases hm
      exact ha
    | punctuation => cases hm

/-- Where all faults count, nodes are a part if they have all that lies below them. -/
theorem Document.MarkerPart.of_child {d : Document} (h : ∀ n, S n → ∀ c ∈ n.children, S c) :
    d.MarkerPart S fun _ => True where
  child := h
  text _ _ := .all
  value _ _ _ _ _ := trivial
  expression _ _ _ _ := trivial
  services _ := trivial

theorem MarkerField.In.all {f : MarkerField} : f.In (fun _ => True) fun _ => True where
  node := trivial
  value _ _ := trivial
  missing _ := trivial

theorem Marker.In.all {a : Marker} : a.In (fun _ => True) fun _ => True where
  node := trivial
  fields _ _ := MarkerField.In.all
  positional _ _ := trivial

theorem TriggerMethod.In.all {m : TriggerMethod} : m.In (fun _ => True) fun _ => True where
  node := trivial
  trigger := Marker.In.all
  moreTriggers _ _ := Marker.In.all
  outputs _ _ := Marker.In.all

theorem Marker.In.field {a : Marker} {field : String} (h : a.In S F)
    (hf : a.field? field = some f) : f.In S F :=
  h.fields f (List.mem_of_find?_eq_some hf)

namespace Document.Part

variable {d : Document} {S : Node → Prop} {F : Fault → Prop}

theorem field (h : d.Part S F) (hn : S n) (hc : n.field? name = some c) : S c :=
  h.child n hn c (Node.mem_children_of_field? hc)

theorem field_getD (h : d.Part S F) (hn : S n) (name : String) : S ((n.field? name).getD n) := by
  cases hc : n.field? name with
  | none => exact hn
  | some c => exact h.field hn hc

theorem kind (h : d.Part S F) (hn : S n) : Yields F (fun _ => True) (d.kind n) :=
  (h.text n hn).bind fun _ _ _ => .pure trivial

theorem valueExpression (hf : MarkerField.In S F f) :
    Yields F S (Document.valueExpression f) := by
  unfold Document.valueExpression
  split
  next n hv => exact .pure (hf.value n hv)
  next hv => exact .throw (hf.missing hv)

theorem literal? (h : d.Part S F) (hf : MarkerField.In S F f) :
    Yields F (fun _ => True) (d.literal? f) := by
  unfold Document.literal?
  refine (valueExpression hf).bind fun n _ hn => (h.kind hn).bind fun k _ _ => ?_
  split
  · exact (h.text n hn).bind fun _ _ _ => .pure trivial
  · exact (h.text n hn).bind fun _ _ _ => .pure trivial
  · exact .pure trivial

theorem markerName (h : d.Part S F) (hn : S n) : Yields F (fun _ => True) (d.markerName n) := by
  unfold Document.markerName
  refine (h.kind hn).bind fun k _ _ => ?_
  split
  · split
    next last hl => exact h.text last (h.field hn hl)
    next => exact h.text n hn
  · exact h.text n hn

theorem decoratorExpression (h : d.Part S F) {cs : List Node} (hcs : ∀ c ∈ cs, S c) :
    Yields (fun f => F f ∨ f = .emptyDecorator) S (d.decoratorExpression cs) := by
  induction cs with
  | nil => exact .throw (.inr rfl)
  | cons c cs ih =>
    have hc := hcs c List.mem_cons_self
    rw [Document.decoratorExpression]
    refine ((h.kind hc).mono (fun _ => .inl) fun _ => id).bind fun k _ _ => ?_
    refine ((h.text c hc).mono (fun _ => .inl) fun _ => id).bind fun t _ _ => ?_
    split
    · exact ih fun c hc => hcs c (List.mem_cons_of_mem _ hc)
    · exact .pure hc

/-- The name of a call comes from its function, or else is the text of the whole call. -/
theorem callName {g : String → α} (h : d.Part S F) (he : S e) (hP : ∀ name : String, P (g name)) :
    Yields F P do
      match e.field? "function" with
      | some callee => return g (← d.markerName callee)
      | none => return g (← d.text e) := by
  cases hc : e.field? "function" with
  | some callee => exact (h.markerName (h.field he hc)).bind fun name _ _ => .pure (hP name)
  | none => exact (h.text e he).bind fun name _ _ => .pure (hP name)

theorem definition (h : d.Part S F) (hn : S n) : Yields F S (d.definition n) := by
  unfold Document.definition
  refine (h.kind hn).bind fun k _ _ => ?_
  split
  · exact .pure (h.field_getD hn _)
  · exact .pure hn

theorem symbol (h : d.Part S F) (hn : S n) (kind : SymbolKind) :
    Yields F (fun _ => True) (d.symbol kind n) :=
  (h.text n hn).bind fun _ _ _ => .pure trivial

theorem method? (h : d.Part S F) (hn : S n) : Yields F (fun _ => True) (d.method? n) := by
  unfold Document.method?
  refine (h.definition hn).bind fun c _ hc => (h.kind hc).bind fun k _ _ => ?_
  split
  next token ht _ => exact (h.symbol (h.field hc ht) _).bind fun _ _ _ => .pure trivial
  next => exact .pure trivial

theorem methods (h : d.Part S F) (hn : S n) : Yields F (fun _ => True) (d.methods n) := by
  unfold Document.methods
  split
  next => exact .pure trivial
  next body hb =>
    have hmethod : ∀ c ∈ body.children, Yields F (fun o => ∀ s ∈ o, True) (d.method? c) :=
      fun c hc => (h.method? (h.child body (h.field hn hb) c hc)).value fun _ _ _ _ => trivial
    exact (Yields.filterMapM hmethod).value fun _ _ => trivial

theorem assigned? (h : d.Part S F) (hn : S n) : Yields F (fun _ => True) (d.assigned? n) := by
  unfold Document.assigned?
  refine (h.kind hn).bind fun k _ _ => ?_
  split
  · split
    next => exact .pure trivial
    next target ht =>
      have ht := h.field hn ht
      refine (h.kind ht).bind fun k' _ _ => ?_
      split
      · exact (h.symbol ht _).bind fun _ _ _ => .pure trivial
      · exact .pure trivial
  · exact .pure trivial

theorem declaration (h : d.Part S F) (hn : S n) :
    Yields F (fun _ => True) (d.declaration n) := by
  unfold Document.declaration
  refine (h.definition hn).bind fun c _ hc => (h.kind hc).bind fun k _ _ => ?_
  split
  next token ht _ =>
    exact (h.symbol (h.field hc ht) _).bind fun _ _ _ =>
      (h.methods hc).bind fun _ _ _ => .pure trivial
  next token ht _ => exact (h.symbol (h.field hc ht) _).bind fun _ _ _ => .pure trivial
  next =>
    have hassigned : ∀ x ∈ c.children, Yields F (fun o => ∀ s ∈ o, True) (d.assigned? x) :=
      fun x hx => (h.assigned? (h.child c hc x hx)).value fun _ _ _ _ => trivial
    exact (Yields.filterMapM hassigned).bind fun _ _ _ => .pure trivial
  next => exact .pure trivial

theorem ofDocument (h : d.Part S F) (hroot : ∀ c ∈ d.root.children, S c) :
    Yields F (fun _ => True) (SymbolTable.ofDocument d) := by
  have hdeclaration : ∀ c ∈ d.root.children, Yields F (fun _ => True) (d.declaration c) :=
    fun c hc => h.declaration (hroot c hc)
  exact (Yields.mapM hdeclaration).bind fun _ _ _ => .pure trivial

theorem slash? (h : d.Part S F) (hn : S n) :
    Yields F (fun o => ∀ operator ∈ o, S operator) (d.slash? n) := by
  unfold Document.slash?
  refine (h.kind hn).bind fun k _ _ => ?_
  split
  · split
    next => exact .pure_none
    next operator ho =>
      have ho := h.field hn ho
      refine (h.kind ho).bind fun k' _ _ => ?_
      split
      · exact .pure_some ho
      · exact .pure_none
  · exact .pure_none

mutual

theorem segmentsFrom (h : d.Part S F) (above : List Tree) (t : Tree) (ht : S ⟨t, above⟩) :
    Yields F (fun ns => ∀ n ∈ ns, S n) (d.segmentsFrom above t) := by
  cases t with
  | node type first last field children =>
    rw [Document.segmentsFrom]
    have hchildren : ∀ u ∈ children, S ⟨u, .node type first last field children :: above⟩ :=
      fun u hu => h.child _ ht _ (List.mem_map_of_mem hu)
    refine (h.slash? ht).bind fun o _ ho => ?_
    split
    next => exact .pure (List.forall_mem_singleton.2 ht)
    next operator =>
      refine (h.segmentsOfField _ "left" children hchildren).bind fun left _ hl => ?_
      refine (h.segmentsOfField _ "right" children hchildren).bind fun right _ hr => ?_
      refine .pure fun n hn => ?_
      rcases List.mem_append.1 hn with hn | hn
      · exact hl n hn
      · rcases List.mem_cons.1 hn with rfl | hn
        · exact ho _ rfl
        · exact hr n hn

theorem segmentsOfField (h : d.Part S F) (above : List Tree) (name : String) (trees : List Tree)
    (ht : ∀ t ∈ trees, S ⟨t, above⟩) :
    Yields F (fun ns => ∀ n ∈ ns, S n) (d.segmentsOfField above name trees) := by
  cases trees with
  | nil => exact .pure nofun
  | cons t trees =>
    rw [Document.segmentsOfField]
    split
    · exact h.segmentsFrom above t (ht t List.mem_cons_self)
    · exact h.segmentsOfField above name trees fun u hu => ht u (List.mem_cons_of_mem _ hu)

end

theorem segments (h : d.Part S F) (hn : S n) :
    Yields F (fun ns => ∀ n ∈ ns, S n) (d.segments n) :=
  h.segmentsFrom n.above n.tree hn

theorem contribution? (h : d.Part S F) (hn : S n) :
    Yields F (fun _ => True) (d.contribution? n) := by
  unfold Document.contribution?
  refine (h.kind hn).bind fun k _ _ => ?_
  split
  · exact (h.text n hn).bind fun _ _ _ => .pure trivial
  · exact (h.text n hn).bind fun _ _ _ => .pure trivial
  · exact (h.text n hn).bind fun _ _ _ => .pure trivial
  · exact .pure trivial

mutual

theorem identifierFrom (h : d.Part S F) (above : List Tree) (t : Tree) (ht : S ⟨t, above⟩) :
    Yields F (fun o => ∀ n ∈ o, S n) (identifierFrom d above t) := by
  cases t with
  | node type first last field children =>
    rw [AppManifest.identifierFrom]
    refine (h.kind ht).bind fun k _ _ => ?_
    split
    · exact .pure_some ht
    · exact h.identifierAmong _ children fun u hu => h.child _ ht _ (List.mem_map_of_mem hu)

theorem identifierAmong (h : d.Part S F) (above : List Tree) (trees : List Tree)
    (ht : ∀ t ∈ trees, S ⟨t, above⟩) :
    Yields F (fun o => ∀ n ∈ o, S n) (identifierAmong d above trees) := by
  cases trees with
  | nil => exact .pure_none
  | cons t trees =>
    rw [AppManifest.identifierAmong]
    refine (h.identifierFrom above t (ht t List.mem_cons_self)).bind fun o _ ho => ?_
    split
    next n _ => exact .pure_some (ho n rfl)
    next => exact h.identifierAmong above trees fun u hu => ht u (List.mem_cons_of_mem _ hu)

end

theorem firstIdentifier? (h : d.Part S F) (hn : S n) :
    Yields F (fun o => ∀ n ∈ o, S n) (d.firstIdentifier? n) :=
  h.identifierFrom n.above n.tree hn

end Document.Part

namespace Document.MarkerPart

variable {d : Document} {S : Node → Prop} {F : Fault → Prop}

theorem argument (h : d.MarkerPart S F) (hc : S c) : Yields F (Argument.In S F) (d.argument c) := by
  unfold Document.argument
  refine (h.kind hc).bind fun k hk _ => ?_
  split
  · have hin : ∀ name, MarkerField.In S F ⟨name, c, c.field? "value"⟩ := fun name =>
      ⟨hc, fun n (hn : c.field? "value" = some n) => h.field hc hn,
        fun hv => h.value c hc hk hv name⟩
    split
    next token ht => exact (h.text token (h.field hc ht)).bind fun name _ _ => .pure (hin name)
    next => exact .pure (hin "")
  · exact .pure trivial
  · refine (h.text c hc).bind fun t _ _ => ?_
    split
    · exact .pure trivial
    · exact .pure hc

theorem expressionOf (h : d.MarkerPart S F) (hn : S n) (hk : d.kind n = .ok .decorator) :
    Yields F S (d.decoratorExpression n.children) := by
  have hread := h.decoratorExpression (h.child n hn)
  refine ⟨hread.ok, fun hf => ?_⟩
  rcases hread.error hf with hF | rfl
  · exact hF
  · exact h.expression n hn hk hf

theorem marker (h : d.MarkerPart S F) (hn : S n) (hk : d.kind n = .ok .decorator) :
    Yields F (Marker.In S F) (d.marker n) := by
  unfold Document.marker
  refine (h.expressionOf hn hk).bind fun e _ he => (h.kind he).bind fun k _ _ => ?_
  split
  · cases hl : e.field? "arguments" with
    | some list =>
      have hargument : ∀ c ∈ list.children, Yields F (Argument.In S F) (d.argument c) :=
        fun c hc => h.argument (h.child list (h.field he hl) c hc)
      exact (Yields.mapM hargument).bind fun as _ has => h.callName he (Argument.in_marker hn has)
    | none =>
      have hnone : ∀ a ∈ ([] : List Argument), a.In S F := List.forall_mem_nil _
      exact h.callName he (Argument.in_marker hn hnone)
  · exact (h.markerName he).bind fun _ _ _ => .pure ⟨hn, nofun, nofun⟩

theorem marker? (h : d.MarkerPart S F) (hn : S n) :
    Yields F (fun o => ∀ a ∈ o, Marker.In S F a) (d.marker? n) := by
  unfold Document.marker?
  refine (h.kind hn).bind fun k hk _ => ?_
  split
  next hd =>
    subst hd
    exact (h.marker hn hk).bind fun a _ ha => .pure_some ha
  next => exact .pure_none

theorem amongServices (h : d.MarkerPart S F) (hf : F f) : F f.amongServices := by
  cases f with
  | emptyDecorator => exact h.services hf
  | undecodable => exact hf
  | missingValue field => exact hf
  | emptyServiceDecorator => exact hf
  | oversizedNumeral => exact hf

theorem markers (h : d.MarkerPart S F) (hp : ∀ m, n.parent? = some m → S m) :
    Yields F (fun as => ∀ a ∈ as, Marker.In S F a) (d.markers n) := by
  unfold Document.markers
  split
  next => exact .pure (List.forall_mem_nil _)
  next m hm =>
    have hm := hp m hm
    refine (h.kind hm).bind fun k _ _ => ?_
    split
    · exact .filterMapM fun c hc => h.marker? (h.child m hm c hc)
    · exact .pure (List.forall_mem_nil _)

theorem serviceDeclaration? (h : d.MarkerPart S F) (hn : S n) :
    Yields F (fun o => ∀ s ∈ o, ServiceDeclaration.In S F s) (d.serviceDeclaration? n) := by
  unfold Document.serviceDeclaration?
  refine (h.kind hn).bind fun k _ _ => ?_
  split
  · split
    next => exact .pure_none
    next c hc =>
      have hS := h.field hn hc
      have hp : ∀ m, c.parent? = some m → S m := by
        intro m hm
        cases hm.symm.trans (Node.parent?_of_mem_children (Node.mem_children_of_field? hc))
        exact hn
      have hmarkers := (h.markers hp).mapError fun f hf => h.amongServices hf
      refine (h.kind hS).bind fun k' _ _ => ?_
      split
      · refine hmarkers.bind fun as _ has => ?_
        split
        next => exact .pure_none
        next kind a more hs =>
          have hin : ∀ x ∈ serviceMarkers as, x.2.In S F := by
            intro x hx
            obtain ⟨b, hb, hx⟩ := List.mem_filterMap.1 hx
            obtain ⟨k, -, rfl⟩ := Option.map_eq_some_iff.1 hx
            exact has b hb
          rw [hs] at hin
          refine .pure_some ⟨hS, hin _ List.mem_cons_self, fun b hb => ?_⟩
          obtain ⟨x, hx, rfl⟩ := List.mem_map.1 hb
          exact hin x (List.mem_cons_of_mem _ hx)
      · exact .pure_none
  · exact .pure_none

theorem triggerMethod? (h : d.MarkerPart S F) (hn : S n) (hp : ∀ m, n.parent? = some m → S m) :
    Yields F (fun o => ∀ m ∈ o, TriggerMethod.In S F m) (d.triggerMethod? n) := by
  unfold Document.triggerMethod?
  refine (h.markers hp).bind fun as _ has => ?_
  split
  next => exact .pure_none
  next a more ht =>
    have hin : ∀ b ∈ as.filter fun b => isTrigger b.name, b.In S F :=
      fun b hb => has b (List.mem_of_mem_filter hb)
    rw [ht] at hin
    refine .pure_some
      ⟨hn, hin a List.mem_cons_self, fun b hb => hin b (List.mem_cons_of_mem _ hb), ?_⟩
    intro x hx
    obtain ⟨b, hb, hx⟩ := List.mem_filterMap.1 hx
    obtain ⟨k, -, rfl⟩ := Option.map_eq_some_iff.1 hx
    exact has b hb

end Document.MarkerPart

end AppManifest
