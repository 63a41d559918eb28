import AppManifest.Proofs.Analysis.Ending
import AppManifest.Proofs.Analysis.Rejection

namespace AppManifest
set_option autoImplicit true

/-- A diagnostic that costs no declaration and is not about a service without triggers. -/
def Diagnostic.IsRemark (d : Diagnostic) : Prop :=
  d.isError = false ∧ d.code ≠ .noTriggerFunctions

/-- A step that only remarks: it adds remarks to the log, neither reads nor changes the names given
so far, and rejects over errors only. -/
structure Analysis.IsSteady (x : Analysis α) : Prop where
  log : ∀ {p r q}, x.Ends p r q → ∃ notes, q.log = p.log ++ notes ∧ ∀ d ∈ notes, d.IsRemark
  halt : ∀ {p h q}, x.Ends p (.error h) q → h.IsProper
  names : ∀ {p r q}, x.Ends p r q → q.names = p.names
  blind : ∀ {p r q} names, x.Ends p r q →
    x.Ends { p with names := names } r { q with names := names }

namespace Analysis

/-- A step that ends in one way, whatever the names, with remarks only. -/
theorem steady_of_ends {x : Analysis α} {f : HostSettings → HostSettings}
    (hx : ∀ p, x.Ends p r { p with host := f p.host, log := p.log ++ notes })
    (hr : ∀ h, r = .error h → h.IsProper) (hnotes : ∀ d ∈ notes, d.IsRemark) : x.IsSteady where
  log h := by
    obtain ⟨-, rfl⟩ := h.unique (hx _)
    exact ⟨notes, rfl, hnotes⟩
  halt h := by
    obtain ⟨he, -⟩ := h.unique (hx _)
    exact hr _ he.symm
  names h := by
    obtain ⟨-, rfl⟩ := h.unique (hx _)
    rfl
  blind names h := by
    obtain ⟨rfl, rfl⟩ := h.unique (hx _)
    exact hx _

theorem steady_noteAll {ds : List Diagnostic} (hds : ∀ d ∈ ds, d.IsRemark) :
    (noteAll ds).IsSteady := by
  apply steady_of_ends (f := id)
  · intro p
    exact ends_noteAll.2 ⟨rfl, rfl⟩
  · intro h he
    cases he
  · exact hds

theorem steady_note {d : Diagnostic} (hd : d.IsRemark) : (note d).IsSteady := by
  apply steady_of_ends (f := id)
  · intro p
    exact ends_note.2 ⟨rfl, rfl⟩
  · intro h he
    cases he
  · intro d' hd'
    rwa [List.mem_singleton.1 hd']

/-- A step that leaves the log as it was is steady, unless it halts improperly. -/
theorem steady_of_silent {x : Analysis α} {f : HostSettings → HostSettings}
    (hx : ∀ p, x.Ends p r { p with host := f p.host }) (hr : ∀ h, r = .error h → h.IsProper) :
    x.IsSteady := by
  have hx' : ∀ p, x.Ends p r { p with host := f p.host, log := p.log ++ [] } := by
    intro p
    rw [List.append_nil]
    exact hx p
  apply steady_of_ends hx' hr
  intro d hd
  cases hd

theorem steady_lift {x : Except Halt α} (hx : HaltsProperly x) :
    (liftM x : Analysis α).IsSteady := by
  apply steady_of_silent (f := id) _ hx
  intro p
  exact ends_lift.2 ⟨rfl, rfl⟩

theorem steady_pure (a : α) : (pure a : Analysis α).IsSteady :=
  steady_lift (halts_pure a)

theorem steady_setHost (f : HostSettings → HostSettings) :
    (modify fun p : Progress => { p with host := f p.host } : Analysis PUnit).IsSteady := by
  apply steady_of_silent
  · intro p
    exact ends_modify.2 ⟨rfl, rfl⟩
  · intro h he
    cases he

/-- A step that goes by the host settings alone is steady if it is for each of them. -/
theorem steady_host {f : HostSettings → Analysis α} (hf : ∀ host, (f host).IsSteady) :
    (get >>= fun p : Progress => f p.host).IsSteady where
  log h := (hf _).log ((ends_bind_of_ok (ends_get.2 ⟨rfl, rfl⟩)).1 h)
  halt h := (hf _).halt ((ends_bind_of_ok (ends_get.2 ⟨rfl, rfl⟩)).1 h)
  names h := (hf _).names ((ends_bind_of_ok (ends_get.2 ⟨rfl, rfl⟩)).1 h)
  blind names h := (ends_bind_of_ok (ends_get.2 ⟨rfl, rfl⟩)).2
    ((hf _).blind names ((ends_bind_of_ok (ends_get.2 ⟨rfl, rfl⟩)).1 h))

theorem IsSteady.bind {x : Analysis α} {f : α → Analysis β} (hx : x.IsSteady)
    (hf : ∀ a, (f a).IsSteady) : (x >>= f).IsSteady where
  log := Adds.bind (fun _ _ _ => hx.log) (fun a _ _ _ _ _ _ => (hf a).log) _ _ _
  halt h := by
    rcases ends_bind_error.1 h with h | ⟨a, m, -, h⟩
    · exact hx.halt h
    · exact (hf a).halt h
  names {p r q} h := by
    obtain ⟨r', m, hm⟩ := x.exists_ends p
    cases r' with
    | ok a => exact ((hf a).names ((ends_bind_of_ok hm).1 h)).trans (hx.names hm)
    | error e =>
      obtain ⟨-, rfl⟩ := (ends_bind_of_error hm).1 h
      exact hx.names hm
  blind {p r q} names h := by
    obtain ⟨r', m, hm⟩ := x.exists_ends p
    cases r' with
    | ok a =>
      exact (ends_bind_of_ok (hx.blind names hm)).2
        ((hf a).blind names ((ends_bind_of_ok hm).1 h))
    | error e =>
      obtain ⟨rfl, rfl⟩ := (ends_bind_of_error hm).1 h
      exact (ends_bind_of_error (hx.blind names hm)).2 ⟨rfl, rfl⟩

end Analysis

namespace Scope

theorem remark_argumentWarnings (c : Scope) (a : Marker) :
    ∀ d ∈ c.argumentWarnings a, d.IsRemark := by
  intro d hd
  rcases List.mem_append.1 hd with hd | hd
  · obtain ⟨f, -, rfl⟩ := List.mem_map.1 hd
    exact ⟨rfl, nofun⟩
  · obtain ⟨n, -, rfl⟩ := List.mem_map.1 hd
    exact ⟨rfl, nofun⟩

theorem remark_methodNotes (c : Scope) (service : Service) (m : TriggerMethod) (draft : Draft)
    (name : String) : ∀ d ∈ c.methodNotes service m draft name, d.IsRemark := by
  intro d hd
  unfold methodNotes at hd
  split at hd
  · cases List.mem_singleton.1 hd
    exact ⟨rfl, nofun⟩
  · simp at hd

open Analysis

theorem steady_keep (c : Scope) (service : Marker) (setting : QueueSetting) (value : Int)
    (host : HostSettings) : (c.keep service setting value host).IsSteady := by
  rw [keep]
  split
  · exact steady_setHost _
  · split
    · exact steady_pure _
    · exact steady_note ⟨rfl, nofun⟩

theorem steady_supply (c : Scope) (service : Marker) (setting : QueueSetting) :
    (c.supply service setting).IsSteady := by
  apply IsSteady.bind (steady_lift (halts_positive? c _ _))
  intro value
  cases value with
  | none => exact steady_pure _
  | some value => exact steady_host fun host => steady_keep c service setting value host

theorem steady_serviceSettings (c : Scope) (kind : ServiceKind) (service : Marker) :
    (c.serviceSettings kind service).IsSteady := by
  cases kind with
  | http =>
    apply IsSteady.bind (steady_lift (halts_optional c _ _))
    intro given
    dsimp only
    split
    · exact .bind (steady_lift (halts_pathValue c _ _)) fun _ => steady_pure _
    · exact steady_lift (halts_reject c _ rfl nofun)
  | queue =>
    exact .bind (steady_lift (halts_required c _ _)) fun _ =>
      .bind (steady_lift (halts_required c _ _)) fun _ =>
      .bind (steady_supply c _ _) fun _ => .bind (steady_supply c _ _) fun _ => steady_pure _
  | timer =>
    apply IsSteady.bind (steady_lift (halts_required c _ _))
    intro schedule
    split
    · exact steady_pure _
    · exact steady_lift (halts_reject c _ rfl nofun)

theorem steady_service (c : Scope) (s : ServiceDeclaration) : (c.service s).IsSteady :=
  .bind (steady_lift (halts_nameOf c _)) fun _ =>
    .bind (steady_lift (halts_single c _ _)) fun _ =>
    .bind (steady_noteAll (remark_argumentWarnings c _)) fun _ =>
    .bind (steady_serviceSettings c _ _) fun _ => steady_pure _

theorem steady_outputBindings (c : Scope) (m : TriggerMethod) :
    (c.outputBindings m).IsSteady := by
  rw [outputBindings]
  split
  · exact steady_pure _
  · exact .bind (steady_lift (halts_single c _ _)) fun _ =>
      .bind (steady_noteAll (remark_argumentWarnings c _)) fun _ =>
      .bind (steady_lift (halts_outputBinding c _ _)) fun _ => steady_pure _

theorem steady_propose (c : Scope) (service : Service) (m : TriggerMethod) :
    (c.propose service m).IsSteady := by
  apply IsSteady.bind (steady_lift (halts_single c _ _))
  intro _
  split
  · exact .bind (steady_noteAll (remark_argumentWarnings c _)) fun _ =>
      .bind (steady_lift (halts_nameOf c _)) fun _ =>
      .bind (steady_lift (halts_draft c _ _ _)) fun _ =>
      .bind (steady_outputBindings c _) fun _ => steady_pure _
  · exact steady_lift (halts_reject c _ rfl nofun)

end Scope

end AppManifest
