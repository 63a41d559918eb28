import AppManifest.Proofs.Analysis.Checking

namespace AppManifest
set_option autoImplicit true

/-! Which markers a run checks does not depend on what it has gathered: a service is accepted or
not, and a method meets a fault or not, from wherever the run stands. -/

namespace Analysis

/-- A step comes to the same from everywhere. -/
def IsUniform (x : Analysis α) : Prop :=
  ∀ p r q p' r' q', x.Ends p r q → x.Ends p' r' q' → r = r'

theorem uniform_pure (a : α) : (pure a : Analysis α).IsUniform := by
  intro _ _ _ _ _ _ h h'
  exact (ends_pure.1 h).1.symm.trans (ends_pure.1 h').1

theorem uniform_lift (x : Except Halt α) : (liftM x : Analysis α).IsUniform := by
  intro _ _ _ _ _ _ h h'
  exact (ends_lift.1 h).1.symm.trans (ends_lift.1 h').1

theorem uniform_noteAll (ds : List Diagnostic) : (noteAll ds).IsUniform := by
  intro _ _ _ _ _ _ h h'
  exact (ends_noteAll.1 h).1.symm.trans (ends_noteAll.1 h').1

theorem IsUniform.eq {x : Analysis α} (hx : x.IsUniform) (h : x.Ends p r q)
    (h' : x.Ends p' r' q') : r = r' :=
  hx _ _ _ _ _ _ h h'

theorem IsUniform.bind {x : Analysis α} {f : α → Analysis β} (hx : x.IsUniform)
    (hf : ∀ a, (f a).IsUniform) : (x >>= f).IsUniform := by
  intro p r q p' r' q' h h'
  obtain ⟨s, m, hm⟩ := x.exists_ends p
  obtain ⟨s', m', hm'⟩ := x.exists_ends p'
  cases hx.eq hm hm'
  cases s with
  | ok a => exact (hf a).eq ((ends_bind_of_ok hm).1 h) ((ends_bind_of_ok hm').1 h')
  | error e =>
    exact ((ends_bind_of_error hm).1 h).1.symm.trans ((ends_bind_of_error hm').1 h').1

theorem IsUniform.ends {x : Analysis α} (hx : x.IsUniform) (h : x.Ends p r q) (p' : Progress) :
    ∃ q', x.Ends p' r q' := by
  obtain ⟨r', q', h'⟩ := x.exists_ends p'
  cases hx.eq h h'
  exact ⟨q', h'⟩

end Analysis

/-- A list of declarations comes to one end if each of them does. -/
theorem Collects.unique {find : α → Except ε (Option β)} {step : β → Bool → List γ → Prop}
    (hstep : ∀ b done cs done' cs', step b done cs → step b done' cs' → done = done' ∧ cs = cs')
    (h : Collects find step as done cs) (h' : Collects find step as done' cs') :
    done = done' ∧ cs = cs' := by
  induction h generalizing done' cs' with
  | nil =>
    cases h'
    exact ⟨rfl, rfl⟩
  | skipped ha _ ih =>
    cases h' with
    | skipped _ hs => exact ih hs
    | step ha' => cases ha.symm.trans ha'
    | stopped ha' => cases ha.symm.trans ha'
    | unread ha' => cases ha.symm.trans ha'
  | step ha hb _ ih =>
    cases h' with
    | skipped ha' => cases ha.symm.trans ha'
    | step ha' hb' hs =>
      cases ha.symm.trans ha'
      obtain ⟨-, rfl⟩ := hstep _ _ _ _ _ hb hb'
      obtain ⟨hdone, rfl⟩ := ih hs
      exact ⟨hdone, rfl⟩
    | stopped ha' hb' =>
      cases ha.symm.trans ha'
      cases (hstep _ _ _ _ _ hb hb').1
    | unread ha' => cases ha.symm.trans ha'
  | stopped ha hb =>
    cases h' with
    | skipped ha' => cases ha.symm.trans ha'
    | step ha' hb' =>
      cases ha.symm.trans ha'
      cases (hstep _ _ _ _ _ hb hb').1
    | stopped ha' hb' =>
      cases ha.symm.trans ha'
      exact hstep _ _ _ _ _ hb hb'
    | unread ha' => cases ha.symm.trans ha'
  | unread ha =>
    cases h' with
    | skipped ha' => cases ha.symm.trans ha'
    | step ha' => cases ha.symm.trans ha'
    | stopped ha' => cases ha.symm.trans ha'
    | unread => exact ⟨rfl, rfl⟩

namespace Scope

open Analysis

variable {c : Scope} {service : Service} {m : TriggerMethod} {s : ServiceDeclaration}
  {p q : Progress}

theorem uniform_supply (c : Scope) (a : Marker) (setting : QueueSetting) :
    (c.supply a setting).IsUniform := by
  intro _ _ _ _ _ _ h h'
  cases hg : c.positive? a setting.field with
  | ok given => exact ((supply_of_ok hg).1 h).1.symm.trans ((supply_of_ok hg).1 h').1
  | error e => exact ((supply_of_error hg).1 h).1.symm.trans ((supply_of_error hg).1 h').1

theorem uniform_serviceSettings (c : Scope) (kind : ServiceKind) (a : Marker) :
    (c.serviceSettings kind a).IsUniform := by
  cases kind with
  | http =>
    apply (uniform_lift _).bind
    intro given
    dsimp only
    split
    · exact (uniform_lift _).bind fun _ => uniform_pure _
    · exact uniform_lift _
  | queue =>
    exact (uniform_lift _).bind fun _ => (uniform_lift _).bind fun _ =>
      (uniform_supply c a _).bind fun _ => (uniform_supply c a _).bind fun _ => uniform_pure _
  | timer =>
    apply (uniform_lift _).bind
    intro schedule
    split
    · exact uniform_pure _
    · exact uniform_lift _

theorem uniform_service (c : Scope) (s : ServiceDeclaration) : (c.service s).IsUniform :=
  (uniform_lift _).bind fun _ => (uniform_lift _).bind fun _ => (uniform_noteAll _).bind fun _ =>
    (uniform_serviceSettings c _ _).bind fun _ => uniform_pure _

theorem uniform_outputBindings (c : Scope) (m : TriggerMethod) :
    (c.outputBindings m).IsUniform := by
  rw [outputBindings]
  split
  · exact uniform_pure _
  · exact (uniform_lift _).bind fun _ => (uniform_noteAll _).bind fun _ =>
      (uniform_lift _).bind fun _ => uniform_pure _

theorem uniform_propose (c : Scope) (service : Service) (m : TriggerMethod) :
    (c.propose service m).IsUniform := by
  apply (uniform_lift _).bind
  intro _
  split
  · exact (uniform_noteAll _).bind fun _ => (uniform_lift _).bind fun _ =>
      (uniform_lift _).bind fun _ => (uniform_outputBindings c m).bind fun _ => uniform_pure _
  · exact uniform_lift _

/-- Giving a name depends on the names that are taken, but it never meets a fault over them. -/
theorem fault_of_assignName (h : (c.assignName m fallback).Ends p (.error (.fault f)) q)
    (p' : Progress) : (c.assignName m fallback).Ends p' (.error (.fault f)) p' := by
  obtain ⟨-, hname | ⟨_, -, ⟨-, hr⟩ | ⟨-, -, hr⟩⟩⟩ := assignName_error h
  · exact (ends_bind_of_error (ends_lift.2 ⟨hname, rfl⟩)).2 ⟨rfl, rfl⟩
  · cases hr
  · cases hr

/-- A method that meets a fault meets it from everywhere. -/
theorem fault_of_analyzeFunction (h : (c.analyzeFunction service m).Ends p (.error (.fault f)) q)
    (p' : Progress) : ∃ q', (c.analyzeFunction service m).Ends p' (.error (.fault f)) q' := by
  rcases analyzeFunction_error.1 h with h | ⟨proposal, r, h, hn⟩
  · obtain ⟨q', h'⟩ := (uniform_propose c service m).ends h p'
    exact ⟨q', analyzeFunction_error.2 (.inl h')⟩
  · obtain ⟨q', h'⟩ := (uniform_propose c service m).ends h p'
    exact ⟨q', analyzeFunction_error.2 (.inr ⟨proposal, q', h', fault_of_assignName hn q'⟩)⟩

theorem fault_of_method (h : (attempt (c.analyzeFunction service m)).Ends p (.error e) q)
    (p' : Progress) : ∃ q', (attempt (c.analyzeFunction service m)).Ends p' (.error e) q' := by
  rcases attempt_cases h with ⟨_, hr, -⟩ | ⟨_, _, hr, -⟩ | ⟨f, hr, hx⟩
  · cases hr
  · cases hr
  · cases hr
    obtain ⟨q', hx'⟩ := fault_of_analyzeFunction hx p'
    exact ⟨q', (ends_attempt_of_fault hx').2 ⟨rfl, rfl⟩⟩

theorem ChecksMarkers.unique (h : c.ChecksMarkers service m markers)
    (h' : c.ChecksMarkers service m markers') : markers = markers' := by
  have hnone (h : m.moreTriggers ≠ [] ∨ m.trigger.name ≠ service.settings.kind.trigger)
      (hs : m.moreTriggers = []) (ht : m.trigger.name = service.settings.kind.trigger) : False :=
    h.elim (fun h => h hs) fun h => h ht
  have houtput {name d kind output} (h : m.outputs.length ≠ 1 ∨ ¬∃ name d,
      c.nameOf m.node = .ok name ∧ c.draft service m name = .ok d)
      (hn : c.nameOf m.node = .ok name) (hd : c.draft service m name = .ok d)
      (ho : m.outputs = [(kind, output)]) : False :=
    h.elim (fun h => h (congrArg List.length ho)) fun h => h ⟨name, d, hn, hd⟩
  cases h with
  | none h =>
    cases h' with
    | none => rfl
    | trigger hs ht => exact (hnone h hs ht).elim
    | output hs ht => exact (hnone h hs ht).elim
  | trigger hs ht h =>
    cases h' with
    | none h' => exact (hnone h' hs ht).elim
    | trigger => rfl
    | output _ _ hn hd ho => exact (houtput h hn hd ho).elim
  | output hs ht hn hd ho =>
    cases h' with
    | none h' => exact (hnone h' hs ht).elim
    | trigger _ _ h' => exact (houtput h' hn hd ho).elim
    | output _ _ _ _ ho' =>
      cases ho.symm.trans ho'
      rfl

theorem ChecksMethod.unique (h : c.ChecksMethod service m done markers)
    (h' : c.ChecksMethod service m done' markers') : done = done' ∧ markers = markers' := by
  obtain ⟨hmarkers, p, r, q, hend, rfl⟩ := h
  obtain ⟨hmarkers', p', r', q', hend', rfl⟩ := h'
  refine ⟨?_, hmarkers.unique hmarkers'⟩
  cases r with
  | error e =>
    obtain ⟨_, h⟩ := fault_of_method hend p'
    cases (h.unique hend').1
    rfl
  | ok o =>
    cases r' with
    | ok o' => rfl
    | error e =>
      obtain ⟨_, h⟩ := fault_of_method hend' p
      cases (h.unique hend).1

theorem ChecksMethods.unique (h : c.ChecksMethods definition r done markers)
    (h' : c.ChecksMethods definition r done' markers') : done = done' ∧ markers = markers' := by
  cases h with
  | broken =>
    cases h'
    exact ⟨rfl, rfl⟩
  | refused =>
    cases h'
    exact ⟨rfl, rfl⟩
  | accepted h =>
    cases h' with
    | accepted h' =>
      refine h.unique ?_ h'
      intro m _ _ _ _ hm hm'
      exact hm.unique hm'

theorem ChecksService.unique (h : c.ChecksService s done markers)
    (h' : c.ChecksService s done' markers') : done = done' ∧ markers = markers' := by
  cases h with
  | unread hn =>
    cases h' with
    | unread => exact ⟨rfl, rfl⟩
    | several hn' => cases hn.symm.trans hn'
    | alone hn' => cases hn.symm.trans hn'
  | several hn hs =>
    cases h' with
    | unread hn' => cases hn.symm.trans hn'
    | several => exact ⟨rfl, rfl⟩
    | alone _ hs' => exact absurd hs' hs
  | alone hn hs hend hm =>
    cases h' with
    | unread hn' => cases hn.symm.trans hn'
    | several _ hs' => exact absurd hs hs'
    | alone _ _ hend' hm' =>
      cases (uniform_service c s).eq hend hend'
      obtain ⟨rfl, rfl⟩ := hm.unique hm'
      exact ⟨rfl, rfl⟩

/-- The markers that a run checks are determined by the module, and so is whether it comes to an
end. -/
theorem checks_unique
    (h : Collects c.document.serviceDeclaration? c.ChecksService statements done markers)
    (h' : Collects c.document.serviceDeclaration? c.ChecksService statements done' markers') :
    done = done' ∧ markers = markers' := by
  refine h.unique ?_ h'
  intro s _ _ _ _ hs hs'
  exact hs.unique hs'

end Scope

end AppManifest
