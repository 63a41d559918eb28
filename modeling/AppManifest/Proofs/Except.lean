import Mathlib.Data.List.Forall2
import Mathlib.Data.List.ReduceOption

namespace AppManifest
set_option autoImplicit true

/-! How readings end: the outcome of a sequence from the outcomes of its parts. -/

@[simp] theorem ok_bind (a : α) (f : α → Except ε β) : (Except.ok a >>= f) = f a := rfl

@[simp] theorem error_bind (e : ε) (f : α → Except ε β) : (Except.error e >>= f) = .error e := rfl

theorem bind_eq_ok {x : Except ε α} {f : α → Except ε β} :
    (x >>= f) = .ok b ↔ ∃ a, x = .ok a ∧ f a = .ok b := by
  cases x with
  | ok a => simp
  | error e => simp

theorem bind_eq_error {x : Except ε α} {f : α → Except ε β} :
    (x >>= f) = .error e ↔ x = .error e ∨ ∃ a, x = .ok a ∧ f a = .error e := by
  cases x with
  | ok a => simp
  | error e' => simp

theorem pure_eq_ok {a b : α} : (pure a : Except ε α) = .ok b ↔ a = b :=
  ⟨fun h => Except.ok.inj h, fun h => h ▸ rfl⟩

theorem eq_ok_of_toOption {x : Except ε α} (h : x.toOption = some a) : x = .ok a := by
  cases x with
  | ok b => exact congrArg _ (Option.some.inj h)
  | error e => cases h

theorem mapError_eq_ok {x : Except ε α} {f : ε → ε'} : x.mapError f = .ok a ↔ x = .ok a := by
  cases x with
  | ok b => simp [Except.mapError]
  | error e => simp [Except.mapError]

theorem run_bind_of_ok {x : ExceptT ε (StateM σ) α} {f : α → ExceptT ε (StateM σ) β}
    (h : x.run.run p = (.ok a, q)) : (x >>= f).run.run p = (f a).run.run q := by
  simp only [ExceptT.run_bind, StateT.run_bind, h]
  rfl

theorem run_bind_of_error {x : ExceptT ε (StateM σ) α} {f : α → ExceptT ε (StateM σ) β}
    (h : x.run.run p = (.error e, q)) : (x >>= f).run.run p = (.error e, q) := by
  simp only [ExceptT.run_bind, StateT.run_bind, h]
  rfl

theorem mapM_eq_ok {f : α → Except ε β} {xs : List α} :
    xs.mapM f = .ok ys ↔ List.Forall₂ (fun x y => f x = .ok y) xs ys := by
  induction xs generalizing ys with
  | nil =>
    rw [List.mapM_nil, pure_eq_ok, List.forall₂_nil_left_iff]
    exact eq_comm
  | cons x xs ih =>
    simp only [List.mapM_cons, bind_eq_ok, pure_eq_ok, ih, List.forall₂_cons_left_iff]
    constructor
    · intro h
      obtain ⟨y, hy, ys, hys, rfl⟩ := h
      exact ⟨y, ys, hy, hys, rfl⟩
    · intro h
      obtain ⟨y, ys, hy, hys, rfl⟩ := h
      exact ⟨y, hy, ys, hys, rfl⟩

theorem filterMapM_cons_eq_ok {f : α → Except ε (Option β)} {xs : List α} :
    (x :: xs).filterMapM f = .ok ys ↔
      ∃ o zs, f x = .ok o ∧ xs.filterMapM f = .ok zs ∧ ys = o.toList ++ zs := by
  rw [List.filterMapM_cons, bind_eq_ok]
  refine exists_congr fun o => ?_
  cases o with
  | none =>
    simp only [Option.toList_none, List.nil_append, exists_and_left, exists_eq_right']
  | some y =>
    simp only [bind_eq_ok, pure_eq_ok, Option.toList_some, List.singleton_append, exists_and_left,
      eq_comm (a := ys)]

theorem filterMapM_eq_ok {f : α → Except ε (Option β)} {xs : List α} :
    xs.filterMapM f = .ok ys ↔
      ∃ os, List.Forall₂ (fun x o => f x = .ok o) xs os ∧ ys = os.reduceOption := by
  induction xs generalizing ys with
  | nil =>
    simp only [List.filterMapM_nil, pure_eq_ok, List.forall₂_nil_left_iff]
    constructor
    · intro h
      subst h
      exact ⟨[], rfl, rfl⟩
    · intro h
      obtain ⟨os, rfl, rfl⟩ := h
      rfl
  | cons x xs ih =>
    rw [filterMapM_cons_eq_ok]
    constructor
    · intro h
      obtain ⟨o, zs, ho, hzs, rfl⟩ := h
      obtain ⟨os, hos, rfl⟩ := ih.1 hzs
      refine ⟨o :: os, .cons ho hos, ?_⟩
      cases o with
      | none => rfl
      | some y => rfl
    · intro h
      obtain ⟨os, hos, rfl⟩ := h
      cases hos with
      | @cons _ o _ os ho hos =>
        refine ⟨o, _, ho, ih.2 ⟨os, hos, rfl⟩, ?_⟩
        cases o with
        | none => rfl
        | some y => rfl

theorem mem_of_mapM_eq_ok {f : α → Except ε β} {xs : List α} (h : xs.mapM f = .ok ys) :
    y ∈ ys ↔ ∃ x ∈ xs, f x = .ok y := by
  rw [mapM_eq_ok] at h
  induction h with
  | nil => simp
  | cons hxy _ ih => simp [hxy, ih, eq_comm]

theorem exists_of_mapM_eq_ok {f : α → Except ε β} {xs : List α} (h : xs.mapM f = .ok ys)
    (hx : x ∈ xs) : ∃ y ∈ ys, f x = .ok y := by
  rw [mapM_eq_ok] at h
  induction h with
  | nil => simp at hx
  | cons hxy _ ih =>
    rcases List.mem_cons.1 hx with rfl | hx
    · exact ⟨_, List.mem_cons_self, hxy⟩
    · obtain ⟨y, hy, hxy⟩ := ih hx
      exact ⟨y, List.mem_cons_of_mem _ hy, hxy⟩

theorem mem_of_filterMapM_eq_ok {f : α → Except ε (Option β)} {xs : List α}
    (h : xs.filterMapM f = .ok ys) : y ∈ ys ↔ ∃ x ∈ xs, f x = .ok (some y) := by
  obtain ⟨os, hos, rfl⟩ := filterMapM_eq_ok.1 h
  rw [List.reduceOption_mem_iff]
  exact mem_of_mapM_eq_ok (mapM_eq_ok.2 hos)

/-- What is read from ordered elements is ordered, too. -/
theorem pairwise_of_filterMapM_eq_ok {f : α → Except ε (Option β)} {xs : List α}
    {R : α → α → Prop} {Q : β → β → Prop} (h : xs.filterMapM f = .ok ys) (hR : xs.Pairwise R)
    (hQ : ∀ x ∈ xs, ∀ x' ∈ xs, R x x' → ∀ y y', f x = .ok (some y) → f x' = .ok (some y') →
      Q y y') : ys.Pairwise Q := by
  induction xs generalizing ys with
  | nil =>
    cases pure_eq_ok.1 h
    exact .nil
  | cons x xs ih =>
    obtain ⟨o, zs, ho, hzs, rfl⟩ := filterMapM_cons_eq_ok.1 h
    obtain ⟨hx, hxs⟩ := List.pairwise_cons.1 hR
    have hrest : zs.Pairwise Q := ih hzs hxs fun x₁ h₁ x₂ h₂ =>
      hQ x₁ (List.mem_cons_of_mem _ h₁) x₂ (List.mem_cons_of_mem _ h₂)
    cases o with
    | none => exact hrest
    | some y =>
      refine .cons (fun y' hy' => ?_) hrest
      obtain ⟨x', hx', hy'⟩ := (mem_of_filterMapM_eq_ok hzs).1 hy'
      exact hQ x List.mem_cons_self x' (List.mem_cons_of_mem _ hx') (hx x' hx') y y' ho hy'

/-- Two readings in a row are one, where each element is read in one go as it is in two. -/
theorem filterMapM_eq_ok_of_filterMapM {f : α → Except ε (Option β)}
    {g : β → Except ε' (Option γ)} {k : α → Except ε (Option γ)} {xs : List α}
    (h : xs.filterMapM f = .ok ys) (h' : ys.filterMapM g = .ok zs)
    (hnone : ∀ x ∈ xs, f x = .ok none → k x = .ok none)
    (hsome : ∀ x ∈ xs, ∀ y o, f x = .ok (some y) → g y = .ok o → k x = .ok o) :
    xs.filterMapM k = .ok zs := by
  induction xs generalizing ys zs with
  | nil =>
    cases pure_eq_ok.1 h
    cases pure_eq_ok.1 h'
    rfl
  | cons x xs ih =>
    obtain ⟨o, rest, ho, hrest, rfl⟩ := filterMapM_cons_eq_ok.1 h
    have hx := List.mem_cons_self (a := x) (l := xs)
    have ih {zs} (h' : rest.filterMapM g = .ok zs) := ih hrest h'
      (fun x hx => hnone x (List.mem_cons_of_mem _ hx))
      (fun x hx => hsome x (List.mem_cons_of_mem _ hx))
    cases o with
    | none => exact filterMapM_cons_eq_ok.2 ⟨none, zs, hnone x hx ho, ih h', rfl⟩
    | some y =>
      obtain ⟨o', zs', ho', hzs', rfl⟩ := filterMapM_cons_eq_ok.1 h'
      exact filterMapM_cons_eq_ok.2 ⟨o', zs', hsome x hx y o' ho ho', ih hzs', rfl⟩

theorem forM_eq_ok {f : α → Except ε PUnit} {xs : List α} :
    xs.forM f = .ok u ↔ ∀ x ∈ xs, f x = .ok ⟨⟩ := by
  induction xs with
  | nil => exact iff_of_true rfl nofun
  | cons x xs ih =>
    have hcons : (x :: xs).forM f = (f x >>= fun _ => xs.forM f) := rfl
    rw [hcons, bind_eq_ok, List.forall_mem_cons]
    constructor
    · rintro ⟨⟨⟩, hx, hxs⟩
      exact ⟨hx, ih.1 hxs⟩
    · rintro ⟨hx, hxs⟩
      exact ⟨_, hx, ih.2 hxs⟩

/-- A check of one element after the other fails at the first that fails. -/
theorem forM_eq_error {f : α → Except ε PUnit} {xs : List α} (h : xs.forM f = .error e) :
    ∃ before x after, xs = before ++ x :: after ∧ (∀ y ∈ before, f y = .ok ⟨⟩) ∧
      f x = .error e := by
  induction xs with
  | nil => cases h
  | cons x xs ih =>
    rcases bind_eq_error.1 h with hx | ⟨_, hx, h⟩
    · exact ⟨[], x, xs, rfl, nofun, hx⟩
    · obtain ⟨before, y, after, rfl, hbefore, hy⟩ := ih h
      exact ⟨x :: before, y, after, rfl, List.forall_mem_cons.2 ⟨hx, hbefore⟩, hy⟩

theorem findM?_append (p : α → Except ε Bool) (xs ys : List α) :
    (xs ++ ys).findM? p = (do
      match ← xs.findM? p with
      | some a => return some a
      | none => ys.findM? p) := by
  induction xs with
  | nil => rfl
  | cons x xs ih =>
    rw [List.cons_append, List.findM?, List.findM?, bind_assoc]
    refine bind_congr fun b => ?_
    cases b with
    | true => rfl
    | false => exact ih

/-- A search stops at the first element that passes the test. -/
theorem findM?_eq_some {p : α → Except ε Bool} {xs : List α} :
    xs.findM? p = .ok (some a) ↔
      ∃ before after, xs = before ++ a :: after ∧ (∀ b ∈ before, p b = .ok false) ∧
        p a = .ok true := by
  constructor
  · intro h
    induction xs with
    | nil => cases pure_eq_ok.1 h
    | cons x xs ih =>
      rw [List.findM?] at h
      obtain ⟨b, hb, h⟩ := bind_eq_ok.1 h
      cases b with
      | true =>
        cases pure_eq_ok.1 h
        exact ⟨[], xs, rfl, nofun, hb⟩
      | false =>
        obtain ⟨before, after, rfl, hbefore, ha⟩ := ih h
        exact ⟨x :: before, after, rfl, List.forall_mem_cons.2 ⟨hb, hbefore⟩, ha⟩
  · rintro ⟨before, after, rfl, hbefore, ha⟩
    induction before with
    | nil =>
      rw [List.nil_append, List.findM?, ha]
      rfl
    | cons x before ih =>
      obtain ⟨hx, hbefore⟩ := List.forall_mem_cons.1 hbefore
      rw [List.cons_append, List.findM?, hx]
      exact ih hbefore

/-- How a reading may end: in a value of one kind, or in an error of another. -/
structure Yields (F : ε → Prop) (P : α → Prop) (x : Except ε α) : Prop where
  ok : ∀ {a}, x = .ok a → P a
  error : ∀ {e}, x = .error e → F e

namespace Yields

variable {F : ε → Prop} {P : α → Prop} {Q : β → Prop} {x : Except ε α}

theorem pure (h : P a) : Yields F P (pure a) where
  ok ha := by
    cases ha
    exact h
  error he := nomatch he

theorem throw (h : F e) : Yields F P (.error e) where
  ok ha := nomatch ha
  error he := by
    cases he
    exact h

theorem pure_none : Yields F (fun o => ∀ a ∈ o, P a) (Pure.pure none) :=
  pure nofun

theorem pure_some (h : P a) : Yields F (fun o => ∀ a ∈ o, P a) (Pure.pure (some a)) := by
  refine pure ?_
  rintro _ ⟨⟩
  exact h

theorem mono (h : Yields F P x) (hF : ∀ e, F e → F' e) (hP : ∀ a, P a → P' a) :
    Yields F' P' x where
  ok ha := hP _ (h.ok ha)
  error he := hF _ (h.error he)

theorem all : Yields (fun _ => True) (fun _ => True) x :=
  ⟨fun _ => trivial, fun _ => trivial⟩

/-- The value may be kept together with the reading that it comes from. -/
theorem exact (h : Yields F P x) : Yields F (fun a => x = .ok a ∧ P a) x where
  ok ha := ⟨ha, h.ok ha⟩
  error := h.error

theorem exists_ok (h : Yields (fun _ => False) P x) : ∃ a, x = .ok a := by
  cases x with
  | ok a => exact ⟨a, rfl⟩
  | error e => exact (h.error rfl).elim

theorem value (h : Yields F P x) (hP : ∀ a, P a → P' a) : Yields F P' x :=
  h.mono (fun _ => id) hP

theorem bind {f : α → Except ε β} (h : Yields F P x)
    (hf : ∀ a, x = .ok a → P a → Yields F Q (f a)) : Yields F Q (x >>= f) := by
  cases x with
  | ok a => exact hf a rfl (h.ok rfl)
  | error e => exact throw (h.error rfl)

theorem map {f : α → β} (h : Yields F P x) (hf : ∀ a, P a → Q (f a)) : Yields F Q (f <$> x) := by
  cases x with
  | ok a => exact pure (hf a (h.ok rfl))
  | error e => exact throw (h.error rfl)

theorem mapError {f : ε → ε'} (h : Yields F P x) (hf : ∀ e, F e → F' (f e)) :
    Yields F' P (x.mapError f) := by
  cases x with
  | ok a => exact pure (h.ok rfl)
  | error e => exact throw (hf e (h.error rfl))

theorem mapM {f : α → Except ε β} {xs : List α} (h : ∀ x ∈ xs, Yields F Q (f x)) :
    Yields F (fun ys => ∀ y ∈ ys, Q y) (xs.mapM f) := by
  induction xs with
  | nil => exact pure nofun
  | cons x xs ih =>
    rw [List.mapM_cons]
    refine (h x List.mem_cons_self).bind fun y _ hy => ?_
    refine (ih fun x hx => h x (List.mem_cons_of_mem _ hx)).bind fun ys _ hys => ?_
    exact pure (List.forall_mem_cons.2 ⟨hy, hys⟩)

theorem filterMapM {f : α → Except ε (Option β)} {xs : List α}
    (h : ∀ x ∈ xs, Yields F (fun o => ∀ y ∈ o, Q y) (f x)) :
    Yields F (fun ys => ∀ y ∈ ys, Q y) (xs.filterMapM f) := by
  induction xs with
  | nil => exact pure nofun
  | cons x xs ih =>
    have ih := ih fun x hx => h x (List.mem_cons_of_mem _ hx)
    rw [List.filterMapM_cons]
    refine (h x List.mem_cons_self).bind fun o _ ho => ?_
    cases o with
    | none => exact ih
    | some y => exact ih.bind fun ys _ hys => pure (List.forall_mem_cons.2 ⟨ho y rfl, hys⟩)

theorem forM {f : α → Except ε PUnit} {xs : List α}
    (h : ∀ x ∈ xs, Yields F (fun _ => True) (f x)) : Yields F (fun _ => True) (xs.forM f) := by
  induction xs with
  | nil => exact pure trivial
  | cons x xs ih =>
    exact (h x List.mem_cons_self).bind fun _ _ _ => ih fun x hx => h x (List.mem_cons_of_mem _ hx)

end Yields

end AppManifest
