import AppManifest.Disk.Basic
import AppManifest.Proofs.Disk.Change
import AppManifest.Proofs.Except

namespace AppManifest
set_option autoImplicit true

namespace FileTree

variable {cwd p : Path} {t : FileTree}

/-- The place that a written path leads to is the one it leads to by its text. -/
theorem placeOf_eq_ok (hcwd : cwd.IsNormal) (hp : p.IsTidy) (h : t.placeOf cwd p = .ok q) :
    q = Path.place cwd p := by
  have hdot : "." ∉ p.parts := fun hd => (hp "." hd).2.1 rfl
  unfold placeOf at h
  split_ifs at h with ha hr
  · rw [walk_eq_ok h hdot, ← Path.place_relative hcwd, ← hr]
  · rw [walk_eq_ok h hdot, ← Path.place_anchored cwd hr]

theorem Changes.placeOf_eq_ok (h : t.Changes D F t') (hp : t.placeOf cwd p = .ok q) :
    t'.placeOf cwd p = .ok q := by
  unfold placeOf at *
  split_ifs at hp ⊢
  · exact h.walk_eq_ok hp
  · exact h.walk_eq_ok hp

/-- A path leads to a file with a content. -/
def Holds (t : FileTree) (cwd p : Path) (content : ByteArray) : Prop :=
  ∃ q, t.placeOf cwd p = .ok q ∧ t.get? q = some (.file content)

/-- Where no file is written at its place, a file keeps its content. -/
theorem Holds.changes (h : t.Holds cwd p content) (hc : t.Changes D F t') (hcwd : cwd.IsNormal)
    (hp : p.IsTidy) (hF : ¬F (Path.place cwd p)) : t'.Holds cwd p content := by
  obtain ⟨q, hq, ht⟩ := h
  obtain rfl := placeOf_eq_ok hcwd hp hq
  exact ⟨_, hc.placeOf_eq_ok hq, hc.get?_file hF ht⟩

theorem makeDirectory_eq_ok (h : t.makeDirectory cwd p = .ok t') :
    ∃ q, t.placeOf cwd p = .ok q ∧ t.get? q = none ∧ t' = t.insert q .directory := by
  obtain ⟨q, hq, h⟩ := bind_eq_ok.1 h
  cases ho : t.get? q with
  | some o =>
    rw [ho] at h
    cases h
  | none =>
    rw [ho] at h
    exact ⟨q, hq, ho, (pure_eq_ok.1 h).symm⟩

end FileTree

namespace Disk

/-- From one tree, a command ends in a result at another. -/
def Ends (x : Disk α) (t : FileTree) (r : Except Failure α) (t' : FileTree) : Prop :=
  (x.run.run t : Except Failure α × FileTree) = (r, t')

theorem exists_ends (x : Disk α) (t : FileTree) : ∃ r t', x.Ends t r t' :=
  ⟨_, _, rfl⟩

theorem ends_of_run {x : Disk α} (h : (x.run.run t).1 = r) : x.Ends t r (x.run.run t).2 :=
  Prod.ext h rfl

theorem Ends.unique {x : Disk α} (h : x.Ends t r t') (h' : x.Ends t s u) : r = s ∧ t' = u :=
  Prod.mk.inj (h.symm.trans h')

theorem ends_pure : (pure a : Disk α).Ends t r t' ↔ .ok a = r ∧ t = t' :=
  Prod.mk.injEq .. ▸ Iff.rfl

theorem ends_throw : (throw f : Disk α).Ends t r t' ↔ .error f = r ∧ t = t' :=
  Prod.mk.injEq .. ▸ Iff.rfl

theorem ends_set : (set u : Disk PUnit).Ends t r t' ↔ .ok ⟨⟩ = r ∧ u = t' :=
  Prod.mk.injEq .. ▸ Iff.rfl

theorem ends_bind_of_ok {x : Disk α} {f : α → Disk β} (h : x.Ends t (.ok a) m) :
    (x >>= f).Ends t r t' ↔ (f a).Ends m r t' := by
  unfold Ends at *
  rw [run_bind_of_ok h]

theorem ends_get {f : FileTree → Disk β} : (get >>= f).Ends t r t' ↔ (f t).Ends t r t' :=
  ends_bind_of_ok rfl

/-- A sequence ends where its first command fails, or else where its second one ends. -/
theorem ends_bind {x : Disk α} {f : α → Disk β} :
    (x >>= f).Ends t r t' ↔ (∃ e, r = .error e ∧ x.Ends t (.error e) t') ∨
      ∃ a m, x.Ends t (.ok a) m ∧ (f a).Ends m r t' := by
  obtain ⟨s, m, hx⟩ := x.exists_ends t
  cases s with
  | error e =>
    have h : (x >>= f).Ends t (.error e) m := run_bind_of_error hx
    constructor
    · intro h'
      obtain ⟨rfl, rfl⟩ := h.unique h'
      exact .inl ⟨e, rfl, hx⟩
    · rintro (⟨e', rfl, hx'⟩ | ⟨a, m', hx', -⟩)
      · obtain ⟨he, rfl⟩ := hx.unique hx'
        cases he
        exact h
      · cases (hx.unique hx').1
  | ok a =>
    rw [ends_bind_of_ok hx]
    constructor
    · intro h
      exact .inr ⟨a, m, hx, h⟩
    · rintro (⟨e', -, hx'⟩ | ⟨a', m', hx', h⟩)
      · cases (hx.unique hx').1
      · obtain ⟨ha, rfl⟩ := hx.unique hx'
        cases ha
        exact h

theorem ends_bind_ok {x : Disk α} {f : α → Disk β} :
    (x >>= f).Ends t (.ok b) t' ↔ ∃ a m, x.Ends t (.ok a) m ∧ (f a).Ends m (.ok b) t' := by
  rw [ends_bind]
  constructor
  · rintro (⟨e, he, -⟩ | h)
    · cases he
    · exact h
  · exact .inr

theorem makeOne_cases (h : (makeOne cwd p).Ends t r t') :
    (∃ q, r = .ok () ∧ t.placeOf cwd p = .ok q ∧ t.get? q = none ∧ t' = t.insert q .directory) ∨
      t' = t ∧ (r = .ok () → t.hasDirectory cwd p) := by
  have h := ends_get.1 h
  split at h
  next m hm =>
    obtain ⟨rfl, rfl⟩ := ends_set.1 h
    obtain ⟨q, hq, hn, hm⟩ := FileTree.makeDirectory_eq_ok hm
    exact .inl ⟨q, rfl, hq, hn, hm⟩
  next =>
    split at h
    next hd =>
      obtain ⟨-, rfl⟩ := ends_pure.1 h
      exact .inr ⟨rfl, fun _ => hd.2⟩
    next =>
      obtain ⟨rfl, rfl⟩ := ends_throw.1 h
      exact .inr ⟨rfl, nofun⟩

theorem writeFile_cases (h : (writeFile cwd p data).Ends t r t') :
    (∃ q, r = .ok () ∧ t.placeOf cwd p = .ok q ∧ t.get? q ≠ some .directory ∧
        t' = t.insert q (.file data)) ∨
      (∃ e, r = .error e) ∧ t' = t := by
  unfold writeFile at h
  split at h
  next =>
    obtain ⟨rfl, rfl⟩ := ends_throw.1 h
    exact .inr ⟨⟨_, rfl⟩, rfl⟩
  next =>
    have h := ends_get.1 h
    split at h
    next =>
      obtain ⟨rfl, rfl⟩ := ends_throw.1 h
      exact .inr ⟨⟨_, rfl⟩, rfl⟩
    next q hq =>
      split at h
      next =>
        obtain ⟨rfl, rfl⟩ := ends_throw.1 h
        exact .inr ⟨⟨_, rfl⟩, rfl⟩
      next hd =>
        obtain ⟨rfl, rfl⟩ := ends_set.1 h
        exact .inl ⟨q, rfl, hq, fun hq => hd (FileTree.isDirectory_iff.2 hq), rfl⟩

/-- A file that has been written holds its bytes, whatever stood there. -/
theorem writeFile_ok (h : (writeFile cwd p data).Ends t (.ok ()) t') :
    t'.Holds cwd p data := by
  rcases writeFile_cases h with ⟨q, -, hq, hn, rfl⟩ | ⟨⟨e, he⟩, -⟩
  · have hroot : q ≠ [] := FileTree.ne_root hn
    have hc : t.Changes (fun _ => False) (fun _ => True) (t.insert q (.file data)) :=
      .file .nothing trivial hn
    exact ⟨q, hc.placeOf_eq_ok hq, FileTree.get?_insert_self hroot⟩
  · cases he

/-- Whatever it ends in, a command makes directories and writes files at such places only. -/
def StaysIn (x : Disk α) (D F : Place → Prop) : Prop :=
  ∀ t r t', x.Ends t r t' → t.Changes D F t'

variable {D F : Place → Prop}

theorem staysIn_pure (a : α) : (pure a : Disk α).StaysIn D F := by
  intro t r t' h
  obtain ⟨-, rfl⟩ := ends_pure.1 h
  exact .nothing

theorem staysIn_throw (f : Failure) : (throw f : Disk α).StaysIn D F := by
  intro t r t' h
  obtain ⟨-, rfl⟩ := ends_throw.1 h
  exact .nothing

theorem StaysIn.bind {x : Disk α} {f : α → Disk β} (hx : x.StaysIn D F)
    (hf : ∀ a, (f a).StaysIn D F) : (x >>= f).StaysIn D F := by
  intro t r t' h
  rcases ends_bind.1 h with ⟨e, rfl, he⟩ | ⟨a, m, hm, h⟩
  · exact hx t _ t' he
  · exact (hx t _ m hm).trans (hf a m r t' h)

theorem StaysIn.mono {x : Disk α} (h : x.StaysIn D F) (hD : ∀ p, D p → D' p)
    (hF : ∀ p, F p → F' p) : x.StaysIn D' F' :=
  fun t r t' hx => (h t r t' hx).mono hD hF

variable {cwd p : Path}

theorem staysIn_makeOne (hcwd : cwd.IsNormal) (hp : p.IsTidy) (hD : D (Path.place cwd p)) :
    (makeOne cwd p).StaysIn D F := by
  intro t r t' h
  rcases makeOne_cases h with ⟨q, -, hq, hn, rfl⟩ | ⟨rfl, -⟩
  · obtain rfl := FileTree.placeOf_eq_ok hcwd hp hq
    exact .directory .nothing hD hn
  · exact .nothing

theorem staysIn_makeUp (hcwd : cwd.IsNormal) (hp : Path.IsTidy ⟨a, cs.reverse⟩) :
    (makeUp cwd a cs).StaysIn (Path.Passes cwd ⟨a, cs.reverse⟩) F := by
  induction cs with
  | nil => exact staysIn_makeOne hcwd hp ⟨_, List.prefix_refl _, rfl⟩
  | cons c cs ih =>
    have hup : cs.reverse <+: (c :: cs).reverse := by
      rw [List.reverse_cons]
      exact List.prefix_append _ _
    have hself : (makeOne cwd ⟨a, (c :: cs).reverse⟩).StaysIn
        (Path.Passes cwd ⟨a, (c :: cs).reverse⟩) F :=
      staysIn_makeOne hcwd hp ⟨_, List.prefix_refl _, rfl⟩
    intro t r t' h
    have h := ends_get.1 h
    dsimp only at h
    split at h
    · refine StaysIn.bind ((ih (hp.of_prefix hup)).mono ?_ fun _ => id) (fun _ => hself) t r t' h
      rintro q ⟨xs, hxs, rfl⟩
      exact ⟨xs, hxs.trans hup, rfl⟩
    · exact hself t r t' h

/-- Making a directory with the ones above it makes directories on the way of the path only. -/
theorem staysIn_makeDirectories (hcwd : cwd.IsNormal) (hp : p.IsTidy) :
    (makeDirectories cwd p).StaysIn (Path.Passes cwd p) F := by
  unfold makeDirectories
  split
  · exact staysIn_throw _
  · have h : Path.IsTidy ⟨p.anchor, p.parts.reverse.reverse⟩ →
        (makeUp cwd p.anchor p.parts.reverse).StaysIn
          (Path.Passes cwd ⟨p.anchor, p.parts.reverse.reverse⟩) F := staysIn_makeUp hcwd
    rw [List.reverse_reverse] at h
    exact h hp

theorem staysIn_writeFile (hcwd : cwd.IsNormal) (hp : p.IsTidy) (hF : F (Path.place cwd p)) :
    (writeFile cwd p data).StaysIn D F := by
  intro t r t' h
  rcases writeFile_cases h with ⟨q, -, hq, hn, rfl⟩ | ⟨-, rfl⟩
  · obtain rfl := FileTree.placeOf_eq_ok hcwd hp hq
    exact .file .nothing hF hn
  · exact .nothing

end Disk

end AppManifest
