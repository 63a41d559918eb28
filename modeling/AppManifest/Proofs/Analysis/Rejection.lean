import AppManifest.Proofs.Syntax.Members
import AppManifest.Proofs.Syntax.Part

namespace AppManifest
set_option autoImplicit true

/-! What the checks of declarations come to: they reject over errors at nodes of the part that they
look at, or end in a fault of it. -/

/-- A declaration is rejected over an error, and one that does not hang on the names given before.
-/
def Halt.IsProper : Halt → Prop
  | .fault _ => True
  | .rejected d => d.isError = true ∧ d.code ≠ .duplicateFunctionName

/-- A check rejects in no other way. -/
def HaltsProperly (x : Except Halt α) : Prop :=
  ∀ h, x = .error h → h.IsProper

theorem halts_pure (a : α) : HaltsProperly (pure a) := by
  intro h he
  cases he

def Finding.IsProper (f : Finding) : Prop :=
  f.code.severity = .error ∧ f.code ≠ .duplicateFunctionName

/-- A check halts over a fault of a part of the document, or over a proper finding at one of its
nodes. -/
inductive Scope.Halts (c : Scope) (S : Node → Prop) (F : Fault → Prop) : Halt → Prop
  | fault (h : F f) : Halts c S F (.fault f)
  | rejected (hn : S n) (hf : f.IsProper) : Halts c S F (.rejected (c.diagnostic n f))

def PathError.In (S : Node → Prop) (F : Fault → Prop) : PathError → Prop
  | fault f => F f
  | unsupported n => S n

theorem Scope.Halts.proper {c : Scope} (hh : c.Halts S F h) : h.IsProper := by
  cases hh with
  | fault => trivial
  | rejected _ hf => exact ⟨decide_eq_true hf.1, hf.2⟩

theorem Yields.proper {c : Scope} (h : Yields (c.Halts S F) P x) : HaltsProperly x :=
  fun _ he => (h.error he).proper

theorem lift_eq_ok {x : Except Fault α} : (liftM x : Except Halt α) = .ok a ↔ x = .ok a := by
  cases x with
  | ok b =>
    constructor
    · intro h
      cases h
      rfl
    · intro h
      cases h
      rfl
  | error f =>
    constructor
    · intro h
      cases h
    · intro h
      cases h

theorem lift_eq_error {x : Except Fault α} :
    (liftM x : Except Halt α) = .error h ↔ ∃ f, x = .error f ∧ h = .fault f := by
  cases x with
  | ok b =>
    constructor
    · intro h
      cases h
    · intro h
      obtain ⟨f, h, -⟩ := h
      cases h
  | error f =>
    constructor
    · intro h
      cases h
      exact ⟨f, rfl, rfl⟩
    · intro h
      obtain ⟨f', h, rfl⟩ := h
      cases h
      rfl

theorem Marker.In.anchor {a : Marker} (h : a.In S F) (name : String) :
    S (Scope.anchor a name) := by
  unfold Scope.anchor
  split
  next f hf => exact (h.field hf).node
  next => exact h.node

/-- A part of the document of a scope, with the faults that may be met in looking at what its
symbols lead to. -/
structure Scope.SymbolPart (c : Scope) (S : Node → Prop) (F : Fault → Prop) : Prop
    extends c.document.Part S F where
  located : ∀ s ∈ c.symbols.collected, ∀ n, c.document.locate? s = some n →
    Yields F (fun _ => True) (c.document.kind n)

/-- A part with the faults that may be met in its decorators and over its symbols. -/
structure Scope.Part (c : Scope) (S : Node → Prop) (F : Fault → Prop) : Prop
    extends c.document.MarkerPart S F, c.SymbolPart S F

namespace Scope

theorem Part.of_child {c : Scope} (h : ∀ n, S n → ∀ k ∈ n.children, S k) :
    c.Part S fun _ => True where
  toMarkerPart := .of_child h
  located _ _ _ _ := .all

theorem Part.all {c : Scope} : c.Part (fun _ => True) fun _ => True :=
  .of_child fun _ _ _ _ => trivial

variable {c : Scope} {S : Node → Prop} {F : Fault → Prop} {a : Marker}

theorem yields_lift {x : Except Fault α} (h : Yields F P x) :
    Yields (c.Halts S F) P (liftM x : Except Halt α) :=
  h.mapError fun _ => .fault

theorem yields_reject (hn : S n) {f : Finding} (hf : f.IsProper) :
    Yields (c.Halts S F) P (c.reject n f) :=
  .throw (.rejected hn hf)

/-- Asking for the name of a definition rejects nothing. -/
theorem yields_nameOf_of_text (hn : ∀ token, n.field? "name" = some token →
      Yields F (fun _ => True) (c.document.text token)) :
    Yields (c.Halts S F) (fun _ => True) (c.nameOf n) := by
  rw [nameOf]
  split
  next token ht => exact yields_lift (hn token ht)
  next => exact .pure trivial

section

variable (h : c.Part S F)
include h

theorem yields_nameOf (hn : S n) : Yields (c.Halts S F) (fun _ => True) (c.nameOf n) :=
  yields_nameOf_of_text fun token ht => h.text token (h.field hn ht)

theorem yields_literal (hf : f.In S F) : Yields (c.Halts S F) (fun _ => True) (c.literal f) := by
  refine (yields_lift (h.literal? hf)).bind fun value _ _ => ?_
  split
  · exact .pure trivial
  · exact yields_reject hf.node ⟨rfl, nofun⟩

theorem yields_required (ha : a.In S F) (name : String) :
    Yields (c.Halts S F) (fun _ => True) (c.required a name) := by
  rw [required]
  split
  next f hf => exact yields_literal h (ha.field hf)
  next => exact yields_reject ha.node ⟨rfl, nofun⟩

theorem yields_optional (ha : a.In S F) (name : String) :
    Yields (c.Halts S F) (fun _ => True) (c.optional a name) := by
  rw [optional]
  split
  next f hf => exact (yields_literal h (ha.field hf)).map fun _ _ => trivial
  next => exact .pure trivial

theorem yields_positive? (ha : a.In S F) {name : String}
    (hbig : ∀ value, c.optional a name = .ok (some value) → Text.isNumeral value.toList = true →
      Text.maxDigits < value.toList.length → F .oversizedNumeral) :
    Yields (c.Halts S F) (fun _ => True) (c.positive? a name) := by
  refine (yields_optional h ha name).bind fun given hg _ => ?_
  split
  · exact .pure trivial
  next value =>
    split
    next hd =>
      split
      next hl => exact .throw (.fault (hbig value hg hd hl))
      next =>
        split
        · exact yields_reject (ha.anchor name) ⟨rfl, nofun⟩
        · exact .pure trivial
    next => exact yields_reject (ha.anchor name) ⟨rfl, nofun⟩

theorem yields_contributions (strict : Bool) {segments : List Node}
    (hs : ∀ n ∈ segments, S n) :
    Yields (PathError.In S F) (fun _ => True) (c.document.contributions strict segments) := by
  induction segments with
  | nil => exact .pure trivial
  | cons segment rest ih =>
    have ih := ih fun n hn => hs n (List.mem_cons_of_mem _ hn)
    have hsegment := hs segment List.mem_cons_self
    rw [Document.contributions]
    have hcontribution : Yields (PathError.In S F) (fun _ => True)
        ((c.document.contribution? segment).mapError PathError.fault) :=
      (h.contribution? hsegment).mapError fun _ hf => hf
    refine hcontribution.bind fun o _ _ => ?_
    split
    · exact ih.bind fun _ _ _ => .pure trivial
    · split
      · exact .throw hsegment
      · exact ih

theorem yields_pathValue (ha : a.In S F) (name : String) :
    Yields (c.Halts S F) (fun _ => True) (c.pathValue a name) := by
  rw [pathValue]
  split
  next => exact .pure trivial
  next f hf =>
    refine (yields_lift (Document.Part.valueExpression (ha.field hf))).bind fun n _ hn => ?_
    refine (yields_lift (h.segments hn)).bind fun segments _ hs => ?_
    have hpath := (yields_contributions h c.settings.strictPaths hs).map
      (f := fun parts => withoutLeadingSlash (String.join parts)) (Q := fun _ => True)
      fun _ _ => trivial
    split
    · exact .pure trivial
    next e he => exact .throw (.fault (hpath.error he))
    next m hm =>
      have hm : S m := hpath.error hm
      exact (yields_lift (h.text m hm)).bind fun _ _ _ => yields_reject hm ⟨rfl, nofun⟩

omit h in
theorem yields_single (role : String) {more : List Marker} (hmore : ∀ b ∈ more, b.In S F) :
    Yields (c.Halts S F) (fun _ => True) (c.single role more) := by
  cases more with
  | nil => exact .pure trivial
  | cons second more => exact yields_reject (hmore second List.mem_cons_self).node ⟨rfl, nofun⟩

end

section

variable (h : c.SymbolPart S F)
include h

theorem yields_typeSymbol? (ht : S type) :
    Yields F (fun o => ∀ s ∈ o, s ∈ c.symbols.collected ∨ s.location = none)
      (c.typeSymbol? type) := by
  refine (h.firstIdentifier? ht).bind fun o _ ho => ?_
  cases o with
  | none => exact .pure_none
  | some token =>
    exact (h.text token (ho token rfl)).bind fun _ _ _ => .pure fun _ => SymbolTable.lookup?_mem

theorem yields_isParameterType (hs : s ∈ c.symbols.collected ∨ s.location = none) :
    Yields F (fun _ => True) (c.isParameterType s) := by
  unfold isParameterType
  split
  · exact .pure trivial
  next hl =>
    split
    next n hn =>
      exact (h.located s (hs.resolve_right hl) n hn).bind fun _ _ _ => .pure trivial
    next => exact .pure trivial

theorem yields_supportsType (ht : S type) : Yields F (fun _ => True) (c.supportsType type) := by
  refine (yields_typeSymbol? h ht).bind fun o _ hs => ?_
  cases o with
  | none => exact .pure trivial
  | some s => exact yields_isParameterType h (hs s rfl)

theorem yields_checkType (ht : S type) :
    Yields (c.Halts S F) (fun _ => True) (c.checkType type) := by
  refine (yields_lift (yields_supportsType h ht)).bind fun supported _ _ => ?_
  split
  · exact .pure trivial
  · exact (yields_lift (h.text type ht)).bind fun _ _ _ => yields_reject ht ⟨rfl, nofun⟩

theorem yields_checkParameter (hp : S p.node) :
    Yields (c.Halts S F) (fun _ => True) (c.checkParameter p) := by
  rw [checkParameter]
  split
  · exact (yields_lift (h.text p.node hp)).bind fun _ _ _ => yields_reject hp ⟨rfl, nofun⟩
  · have hname := h.text _ (h.field_getD hp "name")
    exact (yields_lift hname).bind fun _ _ _ => yields_reject hp ⟨rfl, nofun⟩
  · split
    next type ht => exact yields_checkType h (h.field hp ht)
    next => exact .pure trivial

theorem yields_typedParameters {ps : List Parameter} (hps : ∀ p ∈ ps, S p.node) :
    Yields F (fun ps => ∀ p ∈ ps, S p.node) (c.typedParameters ps) := by
  cases ps with
  | nil => exact .pure nofun
  | cons first rest =>
    refine (h.text first.node (hps first List.mem_cons_self)).bind fun text _ _ => ?_
    split
    · exact .pure fun p hp => hps p (List.mem_cons_of_mem _ hp)
    · exact .pure hps

theorem yields_parametersOf (hl : S list) :
    Yields F (fun ps => ∀ p ∈ ps, S p.node) (c.parametersOf list) := by
  have hparameter : ∀ child ∈ list.children,
      Yields F (fun o => ∀ p ∈ o, S p.node) (c.parameter? child) := by
    intro child hc
    have hc := h.child list hl child hc
    refine (h.kind hc).bind fun k _ _ => .pure fun p hp => ?_
    obtain ⟨form, -, rfl⟩ := Option.map_eq_some_iff.1 hp
    exact hc
  exact (Yields.filterMapM hparameter).bind fun ps _ hps => yields_typedParameters h hps

theorem yields_checkParameters (hn : S n) :
    Yields (c.Halts S F) (fun _ => True) (c.checkParameters n) := by
  rw [checkParameters]
  split
  next => exact .pure trivial
  next list hl =>
    refine (yields_lift (yields_parametersOf h (h.field hn hl))).bind fun ps _ hps => ?_
    exact .forM fun p hp => yields_checkParameter h (hps p hp)

end

section

variable (h : c.Part S F)
include h

theorem yields_httpDraft (ha : a.In S F) (routeStart authLevel : String) :
    Yields (c.Halts S F) (fun _ => True) (c.httpDraft routeStart authLevel a) := by
  refine (yields_required h ha "method").bind fun _ _ _ => ?_
  dsimp only
  split
  · exact (yields_pathValue h ha "path").bind fun _ _ _ => .pure trivial
  · exact yields_reject (ha.anchor "method") ⟨rfl, nofun⟩

theorem yields_draft (hm : m.In S F) (service : Service) (name : String) :
    Yields (c.Halts S F) (fun _ => True) (c.draft service m name) := by
  rw [draft]
  split
  · exact (yields_httpDraft h hm.trigger _ _).bind fun _ _ _ =>
      (yields_checkParameters h.toSymbolPart hm.node).bind fun _ _ _ => .pure trivial
  · exact .pure trivial
  · exact .pure trivial

theorem yields_outputBinding (ha : a.In S F) (kind : OutputKind) :
    Yields (c.Halts S F) (fun _ => True) (c.outputBinding kind a) := by
  cases kind with
  | queue =>
    exact (yields_required h ha "queue_name").bind fun _ _ _ =>
      (yields_required h ha "connection").bind fun _ _ _ => .pure trivial
  | blob =>
    exact (yields_required h ha "path").bind fun _ _ _ =>
      (yields_required h ha "connection").bind fun _ _ _ => .pure trivial

end

theorem halts_reject (c : Scope) (n : Node) {f : Finding} (hf : f.code.severity = .error)
    (hc : f.code ≠ .duplicateFunctionName) : HaltsProperly (c.reject n f : Except Halt α) :=
  (yields_reject (S := fun _ => True) (F := fun _ => True) (P := fun _ => True) trivial
    ⟨hf, hc⟩).proper

theorem halts_nameOf (c : Scope) (n : Node) : HaltsProperly (c.nameOf n) :=
  (yields_nameOf .all trivial).proper

theorem halts_required (c : Scope) (a : Marker) (name : String) :
    HaltsProperly (c.required a name) :=
  (yields_required .all .all name).proper

theorem halts_optional (c : Scope) (a : Marker) (name : String) :
    HaltsProperly (c.optional a name) :=
  (yields_optional .all .all name).proper

theorem halts_positive? (c : Scope) (a : Marker) (name : String) :
    HaltsProperly (c.positive? a name) :=
  (yields_positive? .all .all fun _ _ _ _ => trivial).proper

theorem halts_pathValue (c : Scope) (a : Marker) (name : String) :
    HaltsProperly (c.pathValue a name) :=
  (yields_pathValue .all .all name).proper

theorem halts_single (c : Scope) (role : String) (more : List Marker) :
    HaltsProperly (c.single role more) :=
  (yields_single role fun _ _ => Marker.In.all).proper

theorem halts_draft (c : Scope) (service : Service) (m : TriggerMethod) (name : String) :
    HaltsProperly (c.draft service m name) :=
  (yields_draft .all .all service name).proper

theorem halts_outputBinding (c : Scope) (kind : OutputKind) (output : Marker) :
    HaltsProperly (c.outputBinding kind output) :=
  (yields_outputBinding .all .all kind).proper

end Scope

end AppManifest
