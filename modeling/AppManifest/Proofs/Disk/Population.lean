import AppManifest.Proofs.Disk.Unpacking
import AppManifest.Proofs.Disk.Walk

namespace AppManifest
set_option autoImplicit true

/-! What becomes of the target directory itself when an archive is extracted. -/

/-- A place lies properly below another one. -/
def Place.IsInside (p root : Place) : Prop :=
  root <+: p ∧ p ≠ root

theorem Path.Within.eq {p root : Path} (h : p.Within root) (hparts : p.parts = root.parts) :
    p = root := by
  obtain ⟨anchor, parts⟩ := p
  obtain ⟨rfl, -⟩ := h
  cases hparts
  rfl

namespace ArchiveEntry

/-- An entry that is a file by its name stands, by the walk of that name, for the target directory
itself. -/
def NamesRoot (cwd : Path) (target : String) (e : ArchiveEntry) : Prop :=
  e.name.toList.getLast? ≠ some '/' ∧ (cwd.walk target).walk e.name = cwd.walk target

instance (cwd : Path) (target : String) (e : ArchiveEntry) : Decidable (e.NamesRoot cwd target) :=
  inferInstanceAs (Decidable (_ ∧ _))

variable {cwd : Path} {e : ArchiveEntry}

theorem fileAt_root_iff (hcwd : cwd.IsNormal) (target : String) (e : ArchiveEntry) :
    e.FileAt cwd target (Path.place cwd (Path.ofText target)) ↔ e.NamesRoot cwd target := by
  have hroot : Path.place cwd (Path.ofText target) = (cwd.walk target).parts := by
    rw [Path.walk_eq hcwd]
    rfl
  have hplans := plansWithin hcwd target e.name
  rw [hroot]
  constructor
  · intro h
    obtain ⟨plan, hplan, hfile, hparts⟩ := h
    obtain ⟨hin, -, htarget, hslash⟩ := (hplans.accepts plan).1 hplan
    rw [htarget] at hparts
    exact ⟨fun h => Bool.false_ne_true (hfile.symm.trans (hslash.2 h)), hin.eq hparts⟩
  · intro h
    obtain ⟨hslash, hsame⟩ := h
    have hin : ((cwd.walk target).walk e.name).Within (cwd.walk target) := by
      rw [hsame]
      exact ⟨rfl, List.prefix_refl _⟩
    have hplan := (hplans.accepts ⟨e.name, cwd.walk target, false⟩).2
      ⟨hin, rfl, hsame.symm, iff_of_false Bool.false_ne_true hslash⟩
    exact ⟨_, hplan, rfl, rfl⟩

theorem fileAt_of_name (hcwd : cwd.IsNormal) (h : planEntry cwd e.name target = .ok plan)
    (hname : e.name.toList.getLast? ≠ some '/') : e.FileAt cwd target plan.target.parts := by
  obtain ⟨-, -, -, hslash⟩ := ((plansWithin hcwd target e.name).accepts plan).1 h
  exact ⟨plan, h, Bool.eq_false_iff.2 (mt hslash.1 hname), rfl⟩

/-- An accepted entry is the target directory as a file, or asks for it as a directory. -/
theorem fileAt_or_directoryAt (hcwd : cwd.IsNormal) (h : planEntry cwd e.name target = .ok plan) :
    e.FileAt cwd target (Path.place cwd (Path.ofText target)) ∨
      e.DirectoryAt cwd target (Path.place cwd (Path.ofText target)) := by
  obtain ⟨-, rest, hrest⟩ := planEntry_eq_ok hcwd h
  cases rest with
  | nil =>
    rw [List.append_nil] at hrest
    cases hd : plan.isDirectory with
    | false => exact .inl ⟨plan, h, hd, hrest.symm⟩
    | true => exact .inr (.entry h hd hrest.symm)
  | cons c rest => exact .inr (.above h hrest.symm)

end ArchiveEntry

namespace Disk

variable {cwd : Path} {target : String} {es : List ArchiveEntry} {t t' : FileTree}

/-- The target is a directory. Each entry that is a file by its name has been written properly below
it, unless a later entry has been written over it. -/
structure Populated (cwd : Path) (target : String) (es : List ArchiveEntry) (t' : FileTree) :
    Prop where
  directory : t'.get? (Path.place cwd (Path.ofText target)) = some .directory
  written : ∀ e ∈ es, e.name.toList.getLast? ≠ some '/' → ∃ p, e.FileAt cwd target p ∧
    Place.IsInside p (Path.place cwd (Path.ofText target)) ∧
      ∃ before last after, es = before ++ last :: after ∧ last.FileAt cwd target p ∧
        (∀ x ∈ after, ¬x.FileAt cwd target p) ∧ t'.get? p = some (.file last.data)

/-- The target has become a file, where nothing stood: that of the last entry, which like all of
them stands for the target itself. -/
structure Supplanted (cwd : Path) (target : String) (es : List ArchiveEntry) (t t' : FileTree) :
    Prop where
  absent : t.get? (Path.place cwd (Path.ofText target)) = none
  all : ∀ e ∈ es, e.NamesRoot cwd target
  file : ∃ before last, es = before ++ [last] ∧
    t'.get? (Path.place cwd (Path.ofText target)) = some (.file last.data)

theorem Ready.plan (h : Ready cwd target e t) : ∃ plan, planEntry cwd e.name target = .ok plan := by
  cases h with
  | directory h => exact ⟨_, h⟩
  | file h => exact ⟨_, h⟩

/-- No place is left as a file and as a directory. -/
theorem Unpacked.not_directoryAt (h : Unpacked cwd target es t t' p)
    (hfile : ∃ e ∈ es, e.FileAt cwd target p) : ¬∃ e ∈ es, e.DirectoryAt cwd target p := by
  intro hdirectory
  obtain ⟨before, last, after, he, hlast, hafter⟩ := exists_last hfile
  cases (h.directory hdirectory).symm.trans (h.file he hlast hafter)

/-- Where no entry stands for the target directory itself, that is filled. -/
theorem populated_of_extractEntries (hcwd : cwd.IsNormal) (hes : es ≠ [])
    (h : (extractEntries cwd target es).Ends t (.ok ()) t')
    (hnone : ∀ e ∈ es, ¬e.NamesRoot cwd target) : Populated cwd target es t' where
  directory := by
    obtain ⟨e, he⟩ := List.exists_mem_of_ne_nil es hes
    obtain ⟨hready, -⟩ := extractEntries_made hcwd h
    obtain ⟨plan, hplan⟩ := (hready e he).plan
    apply (extractEntries_ok hcwd h _).directory
    rcases ArchiveEntry.fileAt_or_directoryAt hcwd hplan with hfile | hdirectory
    · exact absurd ((e.fileAt_root_iff hcwd target).1 hfile) (hnone e he)
    · exact ⟨e, he, hdirectory⟩
  written e he hname := by
    obtain ⟨hready, -⟩ := extractEntries_made hcwd h
    obtain ⟨plan, hplan⟩ := (hready e he).plan
    have hfile := ArchiveEntry.fileAt_of_name hcwd hplan hname
    have hne : plan.target.parts ≠ Path.place cwd (Path.ofText target) := by
      intro hparts
      exact hnone e he ((e.fileAt_root_iff hcwd target).1 (hparts ▸ hfile))
    obtain ⟨-, hroot⟩ := planEntry_eq_ok hcwd hplan
    have hsome : ∃ x ∈ es, x.FileAt cwd target plan.target.parts := ⟨e, he, hfile⟩
    obtain ⟨before, last, after, hes, hlast, hafter⟩ := exists_last hsome
    exact ⟨_, hfile, ⟨hroot, hne⟩, before, last, after, hes, hlast, hafter,
      (extractEntries_ok hcwd h _).file hes hlast hafter⟩

/-- Where one entry stands for the target directory itself, all do, and there was no directory. -/
theorem supplanted_of_extractEntries (hcwd : cwd.IsNormal)
    (hroot : ∀ content, t.get? (Path.place cwd (Path.ofText target)) ≠ some (.file content))
    (h : (extractEntries cwd target es).Ends t (.ok ()) t')
    (hsome : ∃ e ∈ es, e.NamesRoot cwd target) : Supplanted cwd target es t t' := by
  have hunpacked := extractEntries_ok hcwd h (Path.place cwd (Path.ofText target))
  obtain ⟨e, he, hname⟩ := hsome
  have hfile := (e.fileAt_root_iff hcwd target).2 hname
  have hall : ∀ x ∈ es, x.FileAt cwd target (Path.place cwd (Path.ofText target)) := by
    intro x hx
    obtain ⟨hready, -⟩ := extractEntries_made hcwd h
    obtain ⟨plan, hplan⟩ := (hready x hx).plan
    rcases ArchiveEntry.fileAt_or_directoryAt hcwd hplan with hx' | hx'
    · exact hx'
    · exact absurd ⟨x, hx, hx'⟩ (hunpacked.not_directoryAt ⟨e, he, hfile⟩)
  obtain ⟨before, last, rfl⟩ := (List.eq_nil_or_concat' es).resolve_left (List.ne_nil_of_mem he)
  have hlast := hunpacked.file rfl (hall last List.mem_concat_self) (List.forall_mem_nil _)
  refine ⟨?_, fun x hx => (x.fileAt_root_iff hcwd target).1 (hall x hx), before, last, rfl, hlast⟩
  cases ht : t.get? (Path.place cwd (Path.ofText target)) with
  | none => rfl
  | some o =>
    cases o with
    | directory => cases (hunpacked.keepsDirectory ht).symm.trans hlast
    | file content => exact absurd ht (hroot content)

/-- A successful extraction of an archive with entries fills its target directory, unless one of
them is named as a file by the directory itself. Then it makes a file of the target, which was not
there, and the archive has no other entries. -/
theorem extraction_populates (hcwd : cwd.IsNormal)
    (hroot : ∀ content, t.get? (Path.place cwd (Path.ofText target)) ≠ some (.file content))
    (hopen : (openArchive host cwd archive).Ends t (.ok es) t) (hes : es ≠ [])
    (h : (extractArchive host cwd archive target).Ends t (.ok ()) t') :
    (Populated cwd target es t' ↔ ∀ e ∈ es, ¬e.NamesRoot cwd target) ∧
      (Populated cwd target es t' ∨ Supplanted cwd target es t t') := by
  have hrun := (ends_bind_of_ok hopen).1 h
  by_cases hsome : ∃ e ∈ es, e.NamesRoot cwd target
  · have hsupplanted := supplanted_of_extractEntries hcwd hroot hrun hsome
    have hnot : ¬Populated cwd target es t' := by
      intro hpopulated
      obtain ⟨before, last, -, hlast⟩ := hsupplanted.file
      cases hpopulated.directory.symm.trans hlast
    obtain ⟨e, he, hname⟩ := hsome
    exact ⟨iff_of_false hnot fun hnone => hnone e he hname, .inr hsupplanted⟩
  · have hnone : ∀ e ∈ es, ¬e.NamesRoot cwd target := fun e he hname => hsome ⟨e, he, hname⟩
    have hpopulated := populated_of_extractEntries hcwd hes hrun hnone
    exact ⟨iff_of_true hpopulated hnone, .inl hpopulated⟩

/-- A file that is named by a dot. -/
def dotEntries : List ArchiveEntry :=
  [⟨".", "x".toUTF8, none⟩]

/-- The target of an archive of that file comes to be a file. -/
theorem extraction_supplants_target : ∃ t',
    (openArchive (hostOf dotEntries) ⟨.root, ["w"]⟩ "a.zip").Ends packedTree (.ok dotEntries)
        packedTree ∧
      packedTree.get? (Path.place ⟨.root, ["w"]⟩ (Path.ofText "out")) = none ∧
      (extractArchive (hostOf dotEntries) ⟨.root, ["w"]⟩ "a.zip" "out").Ends packedTree
        (.ok ()) t' ∧
      t'.get? (Path.place ⟨.root, ["w"]⟩ (Path.ofText "out")) ≠ some .directory ∧
      ∃ e ∈ dotEntries, ∃ p, e.FileAt ⟨.root, ["w"]⟩ "out" p ∧
        ¬Place.IsInside p (Path.place ⟨.root, ["w"]⟩ (Path.ofText "out")) := by
  have hplace : Path.place ⟨.root, ["w"]⟩ (Path.ofText "out") = ["w", "out"] := by decide +kernel
  have hrun : ((extractArchive (hostOf dotEntries) ⟨.root, ["w"]⟩ "a.zip" "out").run.run
      packedTree).1 = .ok () := by decide +kernel
  have hfile : ((extractArchive (hostOf dotEntries) ⟨.root, ["w"]⟩ "a.zip" "out").run.run
      packedTree).2.isDirectory ["w", "out"] = false := by decide +kernel
  rw [hplace]
  refine ⟨_, by rfl, by rfl, ends_of_run hrun, fun h => ?_, _, List.mem_cons_self, ["w", "out"],
    by decide +kernel, fun h => h.2 rfl⟩
  exact Bool.false_ne_true (hfile.symm.trans (FileTree.isDirectory_iff.2 h))

/-- The one archive makes a file of its target, and the other one fills it. -/
theorem extraction_populates_dotEntries : ∃ t' t'',
    (extractArchive (hostOf dotEntries) ⟨.root, ["w"]⟩ "a.zip" "out").Ends packedTree (.ok ()) t' ∧
      Supplanted ⟨.root, ["w"]⟩ "out" dotEntries packedTree t' ∧
      (extractArchive (hostOf aliasedEntries) ⟨.root, ["w"]⟩ "a.zip" "out").Ends packedTree
        (.ok ()) t'' ∧
      Populated ⟨.root, ["w"]⟩ "out" aliasedEntries t'' := by
  have hcwd : Path.IsNormal ⟨.root, ["w"]⟩ := ⟨by decide, by decide, by decide⟩
  have hplace : Path.place ⟨.root, ["w"]⟩ (Path.ofText "out") = ["w", "out"] := by decide +kernel
  have habsent (content : ByteArray) :
      packedTree.get? (Path.place ⟨.root, ["w"]⟩ (Path.ofText "out")) ≠ some (.file content) := by
    rw [hplace]
    exact nofun
  have hrun : ((extractArchive (hostOf dotEntries) ⟨.root, ["w"]⟩ "a.zip" "out").run.run
      packedTree).1 = .ok () := by decide +kernel
  have hrun' : ((extractArchive (hostOf aliasedEntries) ⟨.root, ["w"]⟩ "a.zip" "out").run.run
      packedTree).1 = .ok () := by decide +kernel
  obtain ⟨hfilled, hcases⟩ := extraction_populates hcwd habsent (by rfl)
    (List.cons_ne_nil _ _) (ends_of_run hrun)
  obtain ⟨hfilled', -⟩ := extraction_populates hcwd habsent (by rfl)
    (List.cons_ne_nil _ _) (ends_of_run hrun')
  refine ⟨_, _, ends_of_run hrun, ?_, ends_of_run hrun', hfilled'.2 (by decide +kernel)⟩
  apply hcases.resolve_left
  intro hpopulated
  exact hfilled.1 hpopulated _ List.mem_cons_self (by decide +kernel)

end Disk

end AppManifest
