import AppManifest.Proofs.Analysis.Supply

namespace AppManifest
set_option autoImplicit true

/-! How far the analysis of a declaration reaches: it reports findings at nodes of a part of the
document, and ends early over such a finding or over a fault of that part. -/

namespace Scope

/-- A diagnostic is a finding at one of some nodes. -/
def Finds (c : Scope) (S : Node → Prop) (d : Diagnostic) : Prop :=
  ∃ n f, S n ∧ c.diagnostic n f = d

/-- A step of the analysis stays inside a part of the document, and its values are of one kind. -/
structure Stays (c : Scope) (S : Node → Prop) (F : Fault → Prop) (P : α → Prop)
    (x : Analysis α) : Prop where
  log : x.Adds (c.Finds S)
  ok : ∀ {p a q}, x.Ends p (.ok a) q → P a
  fault : ∀ {p f q}, x.Ends p (.error (.fault f)) q → F f
  rejected : ∀ {p e q}, x.Ends p (.error (.rejected e)) q → c.Finds S e

open Analysis

variable {c : Scope} {S : Node → Prop} {F : Fault → Prop}

theorem Halts.finds (h : c.Halts S F (.rejected e)) : c.Finds S e := by
  cases h with
  | rejected hn _ => exact ⟨_, _, hn, rfl⟩

/-- A step that ends in one way, with findings only. -/
theorem stays_of_ends {x : Analysis α} {f : Progress → Progress}
    (hx : ∀ p, x.Ends p (.ok a) (f p)) (hlog : ∀ p, (f p).log = p.log ++ notes) (ha : P a)
    (hnotes : ∀ d ∈ notes, c.Finds S d) : c.Stays S F P x where
  log _ _ _ h := by
    obtain ⟨-, rfl⟩ := h.unique (hx _)
    exact ⟨notes, hlog _, hnotes⟩
  ok h := by
    cases (h.unique (hx _)).1
    exact ha
  fault h := by cases (h.unique (hx _)).1
  rejected h := by cases (h.unique (hx _)).1

theorem stays_noteAll {ds : List Diagnostic} (hds : ∀ d ∈ ds, c.Finds S d) :
    c.Stays S F (fun _ => True) (noteAll ds) :=
  stays_of_ends (fun _ => ends_noteAll.2 ⟨rfl, rfl⟩) (fun _ => rfl) trivial hds

theorem stays_note (hd : c.Finds S d) : c.Stays S F (fun _ => True) (note d) :=
  stays_of_ends (fun _ => ends_note.2 ⟨rfl, rfl⟩) (fun _ => rfl) trivial
    (List.forall_mem_singleton.2 hd)

/-- A step that leaves the log as it was only has to end in a value. -/
theorem stays_modify {f : Progress → Progress} (hf : ∀ p, (f p).log = p.log) :
    c.Stays S F (fun _ => True) (modify f : Analysis PUnit) := by
  have hlog : ∀ p, (f p).log = p.log ++ [] := by
    intro p
    rw [hf, List.append_nil]
  exact stays_of_ends (fun _ => ends_modify.2 ⟨rfl, rfl⟩) hlog trivial (List.forall_mem_nil _)

theorem stays_lift {x : Except Halt α} (h : Yields (c.Halts S F) P x) :
    c.Stays S F P (liftM x : Analysis α) where
  log _ _ _ hx := by
    obtain ⟨-, rfl⟩ := ends_lift.1 hx
    exact ⟨[], (List.append_nil _).symm, List.forall_mem_nil _⟩
  ok hx := h.ok (ends_lift.1 hx).1
  fault hx := by
    cases h.error (ends_lift.1 hx).1 with
    | fault hf => exact hf
  rejected hx := (h.error (ends_lift.1 hx).1).finds

theorem stays_pure {P : α → Prop} (ha : P a) : c.Stays S F P (pure a : Analysis α) :=
  stays_lift (.pure ha)

theorem Stays.bind {x : Analysis α} {f : α → Analysis β} (hx : c.Stays S F P x)
    (hf : ∀ a, P a → c.Stays S F Q (f a)) : c.Stays S F Q (x >>= f) where
  log := hx.log.bind fun a _ _ hm => (hf a (hx.ok hm)).log
  ok h := by
    obtain ⟨a, m, hm, h⟩ := ends_bind_ok.1 h
    exact (hf a (hx.ok hm)).ok h
  fault h := by
    rcases ends_bind_error.1 h with h | ⟨a, m, hm, h⟩
    · exact hx.fault h
    · exact (hf a (hx.ok hm)).fault h
  rejected h := by
    rcases ends_bind_error.1 h with h | ⟨a, m, hm, h⟩
    · exact hx.rejected h
    · exact (hf a (hx.ok hm)).rejected h

theorem Stays.value {x : Analysis α} (hx : c.Stays S F P x) (hP : ∀ a, P a → Q a) :
    c.Stays S F Q x where
  log := hx.log
  ok h := hP _ (hx.ok h)
  fault := hx.fault
  rejected := hx.rejected

/-- A step that goes by what has been gathered stays inside if it does for each state of that. -/
theorem stays_get {f : Progress → Analysis α} (hf : ∀ p, c.Stays S F P (f p)) :
    c.Stays S F P (get >>= f) where
  log _ _ _ h := (hf _).log _ _ _ ((ends_bind_of_ok (ends_get.2 ⟨rfl, rfl⟩)).1 h)
  ok h := (hf _).ok ((ends_bind_of_ok (ends_get.2 ⟨rfl, rfl⟩)).1 h)
  fault h := (hf _).fault ((ends_bind_of_ok (ends_get.2 ⟨rfl, rfl⟩)).1 h)
  rejected h := (hf _).rejected ((ends_bind_of_ok (ends_get.2 ⟨rfl, rfl⟩)).1 h)

/-- A rejection that is caught is reported instead. -/
theorem Stays.attempt {x : Analysis α} (hx : c.Stays S F P x) :
    c.Stays S F (fun _ => True) (attempt x) where
  log _ _ _ hy := by
    rcases attempt_cases hy with ⟨a, -, h⟩ | ⟨e, m, -, h, rfl⟩ | ⟨f, -, h⟩
    · exact hx.log _ _ _ h
    · obtain ⟨notes, hlog, hnotes⟩ := hx.log _ _ _ h
      refine ⟨notes ++ [e], ?_, ?_⟩
      · change m.log ++ [e] = _
        rw [hlog, List.append_assoc]
      · exact List.forall_mem_append.2 ⟨hnotes, List.forall_mem_singleton.2 (hx.rejected h)⟩
    · exact hx.log _ _ _ h
  ok _ := trivial
  fault hy := by
    rcases attempt_cases hy with ⟨a, he, -⟩ | ⟨e, m, he, -⟩ | ⟨f, he, h⟩
    · cases he
    · cases he
    · cases he
      exact hx.fault h
  rejected h := by
    obtain ⟨f, hf⟩ := attempt_error h
    cases hf

variable {a : Marker} {m : TriggerMethod}

theorem finds_argumentWarnings (ha : a.In S F) : ∀ d ∈ c.argumentWarnings a, c.Finds S d := by
  intro d hd
  rcases List.mem_append.1 hd with hd | hd
  · obtain ⟨f, hf, rfl⟩ := List.mem_map.1 hd
    exact ⟨_, _, (ha.fields f (List.mem_of_mem_filter hf)).node, rfl⟩
  · obtain ⟨n, hn, rfl⟩ := List.mem_map.1 hd
    exact ⟨_, _, ha.positional n hn, rfl⟩

theorem finds_methodNotes (hm : m.In S F) (service : Service) (draft : Draft) (name : String) :
    ∀ d ∈ c.methodNotes service m draft name, c.Finds S d := by
  intro d hd
  unfold methodNotes at hd
  split at hd
  · cases List.mem_singleton.1 hd
    exact ⟨_, _, hm.trigger.node, rfl⟩
  · cases hd

theorem stays_keep (ha : a.In S F) (setting : QueueSetting) (value : Int) (host : HostSettings) :
    c.Stays S F (fun _ => True) (c.keep a setting value host) := by
  rw [keep]
  split
  · exact stays_modify fun _ => rfl
  · split
    · exact stays_pure trivial
    · exact stays_note ⟨_, _, ha.anchor _, rfl⟩

section

variable (h : c.Part S F)
include h

theorem stays_supply (ha : a.In S F) {setting : QueueSetting}
    (hbig : ∀ value, c.document.HasValue a setting.field value → IsOversizedNumeral value →
      F .oversizedNumeral) :
    c.Stays S F (fun _ => c.MayBePositive a setting.field) (c.supply a setting) := by
  have hpositive := yields_positive? h ha fun value hv hn hl =>
    hbig value (optional_eq_ok_some.1 hv) ((isOversizedNumeral_iff value).2 ⟨hn, hl⟩)
  refine (stays_lift hpositive.exact).bind fun given hg => ?_
  have hmay := ((decides_positive? c a setting.field).ok hg.1 ()).2 rfl
  cases given with
  | none => exact stays_pure hmay
  | some value =>
    exact stays_get fun p => (stays_keep ha setting value p.host).value fun _ _ => hmay

/-- What a service marker says is all in the marker; of its numbers only those may be too long that
are asked for. -/
theorem stays_serviceSettings (ha : a.In S F) {kind : ServiceKind}
    (hbig : kind = .queue → ∀ setting, c.Asks a setting → ∀ value,
      c.document.HasValue a setting.field value → IsOversizedNumeral value → F .oversizedNumeral) :
    c.Stays S F (fun _ => True) (c.serviceSettings kind a) := by
  cases kind with
  | http =>
    refine (stays_lift (yields_optional h ha "auth_level")).bind fun given _ => ?_
    dsimp only
    split
    · exact (stays_lift (yields_pathValue h ha "base_path")).bind fun _ _ => stays_pure trivial
    · exact stays_lift (yields_reject (ha.anchor _) ⟨rfl, nofun⟩)
  | queue =>
    refine (stays_lift (yields_required h ha "queue_name").exact).bind fun queueName hq => ?_
    refine (stays_lift (yields_required h ha "connection").exact).bind fun connection hc => ?_
    have hasks {setting : QueueSetting}
        (he : setting = .maxDequeueCount → c.MayBePositive a "batch_size") : c.Asks a setting :=
      ⟨⟨queueName, required_eq_ok.1 hq.1⟩, ⟨connection, required_eq_ok.1 hc.1⟩, he⟩
    refine (stays_supply h ha (hbig rfl .batchSize (hasks nofun))).bind fun _ hb => ?_
    refine (stays_supply h ha (hbig rfl .maxDequeueCount (hasks fun _ => hb))).bind fun _ _ => ?_
    exact stays_pure trivial
  | timer =>
    refine (stays_lift (yields_required h ha "schedule")).bind fun schedule _ => ?_
    split
    · exact stays_pure trivial
    · exact stays_lift (yields_reject (ha.anchor _) ⟨rfl, nofun⟩)

theorem stays_service (hname : Yields (c.Halts S F) (fun _ => True) (c.nameOf s.definition))
    (hservice : s.service.In S F) (hmore : ∀ a ∈ s.moreServices, a.In S F)
    (hbig : ∀ setting, c.Oversizes s setting → F .oversizedNumeral) :
    c.Stays S F (fun _ => True) (c.service s) := by
  refine (stays_lift hname).bind fun className _ => ?_
  refine (stays_lift (yields_single "service" hmore).exact).bind fun _ hsingle => ?_
  have hsingle := ((decides_single c _ _).ok hsingle.1 ()).2 rfl
  refine (stays_noteAll (finds_argumentWarnings hservice)).bind fun _ _ => ?_
  refine (stays_serviceSettings h hservice fun hk setting ha value hv ho => ?_).bind
    fun _ _ => stays_pure trivial
  exact hbig setting ⟨hsingle, hk, ha, value, hv, ho⟩

theorem stays_outputBindings (hm : m.In S F) :
    c.Stays S F (fun _ => True) (c.outputBindings m) := by
  rw [outputBindings]
  split
  next => exact stays_pure trivial
  next kind output more ho =>
    have hin : ∀ o ∈ m.outputs, o.2.In S F := hm.outputs
    rw [ho] at hin
    have hmore : ∀ b ∈ more.map Prod.snd, b.In S F := by
      intro b hb
      obtain ⟨o, ho, rfl⟩ := List.mem_map.1 hb
      exact hin o (List.mem_cons_of_mem _ ho)
    have houtput := hin _ List.mem_cons_self
    exact (stays_lift (yields_single "output" hmore)).bind fun _ _ =>
      (stays_noteAll (finds_argumentWarnings houtput)).bind fun _ _ =>
      (stays_lift (yields_outputBinding h houtput kind)).bind fun _ _ => stays_pure trivial

theorem nameAnchor_in (hm : m.In S F) (explicit : Option String) : S (nameAnchor m explicit) := by
  cases explicit with
  | some name => exact hm.trigger.anchor "name"
  | none => exact h.field_getD hm.node "name"

theorem stays_assignName (hm : m.In S F) (fallback : String) :
    c.Stays S F (fun _ => True) (c.assignName m fallback) where
  log p r q hx := by
    cases r with
    | ok name =>
      obtain ⟨-, -, -, rfl⟩ := assignName_ok hx
      exact ⟨[], (List.append_nil _).symm, List.forall_mem_nil _⟩
    | error e =>
      obtain ⟨rfl, -⟩ := assignName_error hx
      exact ⟨[], (List.append_nil _).symm, List.forall_mem_nil _⟩
  ok _ := trivial
  fault hx := by
    obtain ⟨-, he | ⟨explicit, -, ⟨-, he⟩ | ⟨-, -, he⟩⟩⟩ := assignName_error hx
    · cases (yields_optional h hm.trigger "name").error he with
      | fault hf => exact hf
    · cases he
    · cases he
  rejected hx := by
    obtain ⟨-, he | ⟨explicit, -, ⟨-, he⟩ | ⟨-, -, he⟩⟩⟩ := assignName_error hx
    · exact ((yields_optional h hm.trigger "name").error he).finds
    · cases he
      exact ⟨_, _, nameAnchor_in h hm explicit, rfl⟩
    · cases he
      exact ⟨_, _, nameAnchor_in h hm explicit, rfl⟩

theorem stays_propose (hm : m.In S F) (service : Service) :
    c.Stays S F (fun _ => True) (c.propose service m) := by
  refine (stays_lift (yields_single "trigger" hm.moreTriggers)).bind fun _ _ => ?_
  split
  · exact (stays_noteAll (finds_argumentWarnings hm.trigger)).bind fun _ _ =>
      (stays_lift (yields_nameOf h hm.node)).bind fun name _ =>
      (stays_lift (yields_draft h hm service name)).bind fun _ _ =>
      (stays_outputBindings h hm).bind fun _ _ => stays_pure trivial
  · exact stays_lift (yields_reject hm.trigger.node ⟨rfl, nofun⟩)

theorem stays_analyzeFunction (hm : m.In S F) (service : Service) :
    c.Stays S F (fun _ => True) (c.analyzeFunction service m) :=
  (stays_propose h hm service).bind fun proposal _ =>
    (stays_assignName h hm proposal.draft.defaultName).bind fun name _ =>
    (stays_noteAll (finds_methodNotes hm service proposal.draft name)).bind fun _ _ =>
    stays_pure trivial

theorem stays_analyzeMethods {members : List Symbol} (service : Service)
    (hmembers : ∀ symbol ∈ members, Yields (c.Halts S F) (fun o => ∀ m ∈ o, TriggerMethod.In S F m)
      (c.triggerMethod? definition symbol)) :
    c.Stays S F (fun _ => True) (c.analyzeMethods service definition members) := by
  induction members with
  | nil => exact stays_pure trivial
  | cons symbol rest ih =>
    have ih := ih fun s hs => hmembers s (List.mem_cons_of_mem _ hs)
    refine (stays_lift (hmembers symbol List.mem_cons_self)).bind fun o ho => ?_
    cases o with
    | none => exact ih
    | some m =>
      exact (stays_analyzeFunction h (ho m rfl) service).attempt.bind fun _ _ =>
        ih.bind fun _ _ => stays_pure trivial

theorem finds_serviceNotes (hn : S definition) (results : MethodResults) :
    ∀ d ∈ c.serviceNotes definition results, c.Finds S d := by
  intro d hd
  unfold serviceNotes at hd
  split at hd
  · cases hd
  · cases List.mem_singleton.1 hd
    exact ⟨_, _, h.field_getD hn "name", rfl⟩

theorem stays_analyzeService (hs : s.In S F)
    (hbig : ∀ setting, c.Oversizes s setting → F .oversizedNumeral)
    (hmembers : ∀ symbol ∈ c.methodSymbols s.definition,
      Yields (c.Halts S F) (fun o => ∀ m ∈ o, TriggerMethod.In S F m)
        (c.triggerMethod? s.definition symbol)) :
    c.Stays S F (fun _ => True) (c.analyzeService s) :=
  (stays_service h (yields_nameOf h hs.definition) hs.service hs.moreServices hbig).bind
      fun service _ =>
    (stays_analyzeMethods h service hmembers).bind fun results _ =>
    (stays_noteAll (finds_serviceNotes h hs.definition results)).bind fun _ _ => stays_pure trivial

omit h in
theorem mem_methodSymbols (hs : symbol ∈ c.methodSymbols definition) : ∃ range own,
    c.symbols.classAt? range = some own ∧ symbol ∈ c.symbols.members own := by
  unfold methodSymbols at hs
  split at hs
  next => cases hs
  next =>
    split at hs
    next => cases hs
    next own hclass => exact ⟨_, own, hclass, hs⟩

/-- The method behind a symbol is one of those, if it lies in the class. -/
theorem yields_triggerMethod? (hsymbol : symbol ∈ c.methodSymbols definition)
    (hlocated : ∀ n, c.document.locate? symbol = some n →
      definition.Encloses n → S n ∧ ∀ l, n.parent? = some l → S l) :
    Yields (c.Halts S F) (fun o => ∀ m ∈ o, TriggerMethod.In S F m)
      (c.triggerMethod? definition symbol) := by
  unfold triggerMethod?
  split
  next => exact .pure_none
  next n hn =>
    obtain ⟨range, own, hclass, hmember⟩ := mem_methodSymbols hsymbol
    have hkind := h.located symbol (SymbolTable.members_subset hclass hmember) n hn
    refine (yields_lift hkind).bind fun k _ _ => ?_
    split
    next hk =>
      obtain ⟨hS, hparent⟩ := hlocated n hn hk.2
      exact yields_lift (h.triggerMethod? hS hparent)
    next => exact .pure_none

theorem stays_analyzeStatements {statements : List Node}
    (hstatements : ∀ statement ∈ statements, S statement)
    (hbig : ∀ statement ∈ statements, ∀ s,
      c.document.serviceDeclaration? statement = .ok (some s) →
        ∀ setting, c.Oversizes s setting → F .oversizedNumeral)
    (hlocated : ∀ definition, S definition → ∀ symbol ∈ c.methodSymbols definition, ∀ n,
      c.document.locate? symbol = some n → definition.Encloses n →
        S n ∧ ∀ l, n.parent? = some l → S l) :
    c.Stays S F (fun _ => True) (c.analyzeStatements statements) := by
  induction statements with
  | nil => exact stays_pure trivial
  | cons statement rest ih =>
    obtain ⟨hstatement, hrest⟩ := List.forall_mem_cons.1 hstatements
    obtain ⟨hbig, hbigs⟩ := List.forall_mem_cons.1 hbig
    have hdeclaration := yields_lift (c := c) (S := S) (h.serviceDeclaration? hstatement)
    refine (stays_lift hdeclaration.exact).bind fun o ho => ?_
    obtain ⟨ho, hin⟩ := ho
    cases o with
    | none => exact ih hrest hbigs
    | some s =>
      have hs := hin s rfl
      have hmembers : ∀ symbol ∈ c.methodSymbols s.definition, _ := fun symbol hsymbol =>
        yields_triggerMethod? h hsymbol (hlocated s.definition hs.definition symbol hsymbol)
      exact (stays_analyzeService h hs (hbig s (lift_eq_ok.1 ho)) hmembers).attempt.bind
        fun _ _ => (ih hrest hbigs).bind fun _ _ => stays_pure trivial

end

end Scope

end AppManifest
