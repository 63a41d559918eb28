import AppManifest.Analysis.Progress
import AppManifest.Proofs.Except

namespace AppManifest
set_option autoImplicit true

namespace Analysis

/-- From one state of progress, a step ends in a result at another. -/
def Ends (x : Analysis α) (p : Progress) (r : Except Halt α) (q : Progress) : Prop :=
  (x.run.run p : Except Halt α × Progress) = (r, q)

theorem exists_ends (x : Analysis α) (p : Progress) : ∃ r q, x.Ends p r q :=
  ⟨_, _, rfl⟩

theorem Ends.unique {x : Analysis α} (h : x.Ends p r q) (h' : x.Ends p r' q') :
    r = r' ∧ q = q' :=
  Prod.mk.inj (h.symm.trans h')

theorem ends_pure : (pure a : Analysis α).Ends p r q ↔ .ok a = r ∧ p = q := by
  change (Except.ok a, p) = (r, q) ↔ _
  rw [Prod.mk.injEq]

theorem ends_lift {x : Except Halt α} : (liftM x : Analysis α).Ends p r q ↔ x = r ∧ p = q := by
  change (x, p) = (r, q) ↔ _
  rw [Prod.mk.injEq]

theorem ends_note : (note d).Ends p r q ↔ .ok () = r ∧ p.note d = q := by
  change (Except.ok (), p.note d) = (r, q) ↔ _
  rw [Prod.mk.injEq]

theorem ends_noteAll :
    (noteAll ds).Ends p r q ↔ .ok () = r ∧ { p with log := p.log ++ ds } = q := by
  change (Except.ok (), { p with log := p.log ++ ds }) = (r, q) ↔ _
  rw [Prod.mk.injEq]

theorem ends_get : (get : Analysis Progress).Ends p r q ↔ .ok p = r ∧ p = q := by
  change (Except.ok p, p) = (r, q) ↔ _
  rw [Prod.mk.injEq]

theorem ends_modify {f : Progress → Progress} :
    (modify f : Analysis PUnit).Ends p r q ↔ .ok ⟨⟩ = r ∧ f p = q := by
  change (Except.ok PUnit.unit, f p) = (r, q) ↔ _
  rw [Prod.mk.injEq]

/-- A sequence takes its second step from where the first one ends. -/
theorem ends_bind_of_ok {x : Analysis α} {f : α → Analysis β} (h : x.Ends p (.ok a) m) :
    (x >>= f).Ends p r q ↔ (f a).Ends m r q := by
  unfold Ends at *
  rw [run_bind_of_ok h]

theorem ends_bind_of_error {x : Analysis α} {f : α → Analysis β} (h : x.Ends p (.error e) m) :
    (x >>= f).Ends p r q ↔ .error e = r ∧ m = q := by
  unfold Ends at *
  rw [run_bind_of_error h, Prod.mk.injEq]

theorem ends_bind_ok {x : Analysis α} {f : α → Analysis β} :
    (x >>= f).Ends p (.ok b) q ↔ ∃ a m, x.Ends p (.ok a) m ∧ (f a).Ends m (.ok b) q := by
  constructor
  · intro h
    obtain ⟨r, m, hx⟩ := x.exists_ends p
    cases r with
    | ok a => exact ⟨a, m, hx, (ends_bind_of_ok hx).1 h⟩
    | error e => cases ((ends_bind_of_error hx).1 h).1
  · intro h
    obtain ⟨a, m, hx, h⟩ := h
    exact (ends_bind_of_ok hx).2 h

theorem ends_bind_error {x : Analysis α} {f : α → Analysis β} :
    (x >>= f).Ends p (.error e) q ↔
      x.Ends p (.error e) q ∨ ∃ a m, x.Ends p (.ok a) m ∧ (f a).Ends m (.error e) q := by
  constructor
  · intro h
    obtain ⟨r, m, hx⟩ := x.exists_ends p
    cases r with
    | ok a => exact .inr ⟨a, m, hx, (ends_bind_of_ok hx).1 h⟩
    | error e' =>
      obtain ⟨he, rfl⟩ := (ends_bind_of_error hx).1 h
      cases he
      exact .inl hx
  · intro h
    rcases h with hx | ⟨a, m, hx, h⟩
    · exact (ends_bind_of_error hx).2 ⟨rfl, rfl⟩
    · exact (ends_bind_of_ok hx).2 h

/-- A step appends diagnostics of one kind to the log. -/
def Adds (N : Diagnostic → Prop) (x : Analysis α) : Prop :=
  ∀ p r q, x.Ends p r q → ∃ notes, q.log = p.log ++ notes ∧ ∀ d ∈ notes, N d

theorem Adds.bind {x : Analysis α} {f : α → Analysis β} (hx : x.Adds N)
    (hf : ∀ a p m, x.Ends p (.ok a) m → (f a).Adds N) : (x >>= f).Adds N := by
  intro p r q h
  obtain ⟨r', m, hm⟩ := x.exists_ends p
  obtain ⟨notes, hlog, hnotes⟩ := hx _ _ _ hm
  cases r' with
  | ok a =>
    obtain ⟨more, hlog', hmore⟩ := hf a _ _ hm _ _ _ ((ends_bind_of_ok hm).1 h)
    refine ⟨notes ++ more, ?_, List.forall_mem_append.2 ⟨hnotes, hmore⟩⟩
    rw [hlog', hlog, List.append_assoc]
  | error e =>
    obtain ⟨-, rfl⟩ := (ends_bind_of_error hm).1 h
    exact ⟨notes, hlog, hnotes⟩

theorem ends_attempt_of_ok {x : Analysis α} (h : x.Ends p (.ok a) m) :
    (attempt x).Ends p r q ↔ .ok (some a) = r ∧ m = q := by
  unfold Ends at *
  simp only [attempt, ExceptT.run_mk, StateT.run_bind, h]
  exact Prod.mk.injEq .. ▸ Iff.rfl

theorem ends_attempt_of_rejected {x : Analysis α} (h : x.Ends p (.error (.rejected e)) m) :
    (attempt x).Ends p r q ↔ .ok none = r ∧ m.note e = q := by
  unfold Ends at *
  simp only [attempt, ExceptT.run_mk, StateT.run_bind, h]
  exact Prod.mk.injEq .. ▸ Iff.rfl

theorem ends_attempt_of_fault {x : Analysis α} (h : x.Ends p (.error (.fault f)) m) :
    (attempt x).Ends p r q ↔ .error (.fault f) = r ∧ m = q := by
  unfold Ends at *
  simp only [attempt, ExceptT.run_mk, StateT.run_bind, h]
  exact Prod.mk.injEq .. ▸ Iff.rfl

/-- Attempting a declaration, the run goes on unless it meets a fault. -/
theorem attempt_cases {x : Analysis α} (h : (attempt x).Ends p r q) :
    (∃ a, r = .ok (some a) ∧ x.Ends p (.ok a) q) ∨
      (∃ e m, r = .ok none ∧ x.Ends p (.error (.rejected e)) m ∧ m.note e = q) ∨
      ∃ f, r = .error (.fault f) ∧ x.Ends p (.error (.fault f)) q := by
  obtain ⟨r', m, hx⟩ := x.exists_ends p
  rcases r' with (f | e) | a
  · obtain ⟨rfl, rfl⟩ := (ends_attempt_of_fault hx).1 h
    exact .inr (.inr ⟨f, rfl, hx⟩)
  · obtain ⟨rfl, rfl⟩ := (ends_attempt_of_rejected hx).1 h
    exact .inr (.inl ⟨e, m, rfl, hx, rfl⟩)
  · obtain ⟨rfl, rfl⟩ := (ends_attempt_of_ok hx).1 h
    exact .inl ⟨a, rfl, hx⟩

theorem attempt_ok {x : Analysis α} (h : (attempt x).Ends p (.ok o) q) :
    (∃ a, o = some a ∧ x.Ends p (.ok a) q) ∨
      ∃ e m, o = none ∧ x.Ends p (.error (.rejected e)) m ∧ m.note e = q := by
  rcases attempt_cases h with ⟨a, ho, hx⟩ | ⟨e, m, ho, hx, hq⟩ | ⟨f, ho, -⟩
  · exact .inl ⟨a, Except.ok.inj ho, hx⟩
  · exact .inr ⟨e, m, Except.ok.inj ho, hx, hq⟩
  · cases ho

theorem attempt_error {x : Analysis α} (h : (attempt x).Ends p (.error e) q) :
    ∃ f, e = .fault f := by
  rcases attempt_cases h with ⟨a, he, -⟩ | ⟨d, m, he, -⟩ | ⟨f, he, -⟩
  · cases he
  · cases he
  · exact ⟨f, Except.error.inj he⟩

end Analysis

end AppManifest
