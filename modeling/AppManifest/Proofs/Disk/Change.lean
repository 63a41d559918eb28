import AppManifest.Disk.FileTree
import AppManifest.Proofs.Disk.Path

namespace AppManifest
set_option autoImplicit true

/-! What may become of a file tree. -/

namespace FileTree

/-- A tree after changes: directories made at some places where nothing stood, and files written at
some places where no directory stands. -/
inductive Changes (D F : Place → Prop) (t : FileTree) : FileTree → Prop
  | nothing : Changes D F t t
  | directory (h : Changes D F t m) (hp : D p) (hm : m.get? p = none) :
    Changes D F t (m.insert p .directory)
  | file (h : Changes D F t m) (hp : F p) (hm : m.get? p ≠ some .directory) :
    Changes D F t (m.insert p (.file content))

theorem get?_root (t : FileTree) : t.get? [] = some .directory :=
  if_pos rfl

theorem ne_root {t : FileTree} (h : t.get? p ≠ some .directory) : p ≠ [] := by
  rintro rfl
  exact h t.get?_root

theorem lookup_filter {es : List (Place × FileObject)} (h : q ≠ p) :
    (es.filter fun e => e.1 != p).lookup q = es.lookup q := by
  induction es with
  | nil => rfl
  | cons e es ih =>
    obtain ⟨r, o⟩ := e
    by_cases hr : r = p
    · subst hr
      rw [List.filter_cons_of_neg (by simp), ih, List.lookup_cons, beq_false_of_ne h]
    · rw [List.filter_cons_of_pos (by simp [hr]), List.lookup_cons, List.lookup_cons, ih]

theorem get?_insert_self (hp : p ≠ []) : (insert t p o).get? p = some o := by
  rw [get?, if_neg hp, insert, List.lookup_cons_self]

theorem get?_insert_of_ne (h : q ≠ p) : (insert t p o).get? q = get? t q := by
  rw [get?, get?, insert, List.lookup_cons, beq_false_of_ne h, lookup_filter h]

theorem isDirectory_iff : isDirectory t p ↔ t.get? p = some .directory := by
  unfold isDirectory
  split
  next h => exact iff_of_true rfl h
  next h => exact iff_of_false nofun h

namespace Changes

variable {D F D' F' : Place → Prop} {t m t' : FileTree}

theorem mono (h : t.Changes D F t') (hD : ∀ p, D p → D' p) (hF : ∀ p, F p → F' p) :
    t.Changes D' F' t' := by
  induction h with
  | nothing => exact .nothing
  | directory _ hp hm ih => exact ih.directory (hD _ hp) hm
  | file _ hp hm ih => exact ih.file (hF _ hp) hm

theorem trans (h : t.Changes D F m) (h' : m.Changes D F t') : t.Changes D F t' := by
  induction h' with
  | nothing => exact h
  | directory _ hp hm ih => exact ih.directory hp hm
  | file _ hp hm ih => exact ih.file hp hm

/-- Where no file is written, an object stays as it is, or a directory comes to be. -/
theorem get?_cases (h : t.Changes D F t') (hp : ¬F p) :
    t'.get? p = t.get? p ∨ D p ∧ t.get? p = none ∧ t'.get? p = some .directory := by
  induction h with
  | nothing => exact .inl rfl
  | @directory m q _ hq hm ih =>
    by_cases hpq : p = q
    · subst hpq
      have hroot : p ≠ [] := ne_root (by rw [hm]; nofun)
      rcases ih with ih | ⟨-, -, ih⟩
      · exact .inr ⟨hq, ih ▸ hm, get?_insert_self hroot⟩
      · cases hm.symm.trans ih
    · rw [get?_insert_of_ne hpq]
      exact ih
  | @file m q _ _ hq hm ih =>
    have hpq : p ≠ q := fun hpq => hp (hpq ▸ hq)
    rw [get?_insert_of_ne hpq]
    exact ih

theorem get?_file (h : t.Changes D F t') (hp : ¬F p) (ht : t.get? p = some (.file content)) :
    t'.get? p = some (.file content) := by
  rcases h.get?_cases hp with he | ⟨-, hn, -⟩
  · exact he.trans ht
  · cases hn.symm.trans ht

theorem get?_directory (h : t.Changes D F t') (ht : t.get? p = some .directory) :
    t'.get? p = some .directory := by
  induction h with
  | nothing => exact ht
  | @directory m q _ _ hm ih =>
    have hpq : p ≠ q := by
      rintro rfl
      cases hm.symm.trans ih
    rw [get?_insert_of_ne hpq]
    exact ih
  | @file m q _ _ _ hm ih =>
    have hpq : p ≠ q := fun hpq => hm (hpq ▸ ih)
    rw [get?_insert_of_ne hpq]
    exact ih

theorem walk_eq_ok (h : t.Changes D F t') (hw : t.walk p cs = .ok q) : t'.walk p cs = .ok q := by
  induction cs generalizing p with
  | nil => exact hw
  | cons c cs ih =>
    rw [walk] at hw ⊢
    split at hw
    next => cases hw
    next => cases hw
    next hp =>
      rw [h.get?_directory hp]
      dsimp only
      split_ifs at hw ⊢ with h₁ h₂ h₃
      · exact ih hw
      · exact ih hw
      · exact ih hw

end Changes

/-- Components that a walk passes lead where they lead by their text. -/
theorem walk_eq_climb (h : walk t p cs = .ok q) : q = Path.climb p (cs.filter (· != ".")) := by
  induction cs generalizing p with
  | nil => exact (Except.ok.inj h).symm
  | cons c cs ih =>
    rw [walk] at h
    split at h
    next => cases h
    next => cases h
    next =>
      by_cases hc : c = "."
      · rw [if_pos hc] at h
        rw [List.filter_cons_of_neg (by simp [hc])]
        exact ih h
      · rw [if_neg hc] at h
        rw [List.filter_cons_of_pos (by simp [hc]), Path.climb]
        split_ifs at h ⊢
        · exact ih h
        · exact ih h

theorem walk_eq_ok (h : walk t p cs = .ok q) (hcs : "." ∉ cs) : q = Path.climb p cs := by
  have hsame : cs.filter (· != ".") = cs := by
    apply List.filter_eq_self.2
    intro c hc
    exact bne_iff_ne.2 fun he => hcs (he ▸ hc)
  rw [walk_eq_climb h, hsame]

end FileTree

end AppManifest
