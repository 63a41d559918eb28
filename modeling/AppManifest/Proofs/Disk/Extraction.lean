import AppManifest.Archive
import AppManifest.Proofs.Disk.Ending

namespace AppManifest
set_option autoImplicit true

/-! Where the extraction of an archive changes a file tree. -/

/-- A place is the given one, below it or above it. -/
def Place.Meets (root p : Place) : Prop :=
  p <+: root ∨ root <+: p

/-- The target of an accepted entry is an absolute path at or below the target directory. -/
theorem planEntry_eq_ok {cwd : Path} (hcwd : cwd.IsNormal)
    (h : planEntry cwd name target = .ok plan) :
    plan.target.IsNormal ∧ Path.place cwd (Path.ofText target) <+: plan.target.parts := by
  unfold planEntry at h
  dsimp only at h
  split at h
  next hin =>
    cases h
    have hroot := Path.normal_absolute hcwd (Path.tidy_ofText target)
    exact ⟨Path.normal_absolute hcwd (hroot.tidy.join (Path.tidy_ofText name)), hin.2⟩
  next => cases h

namespace Disk

variable {host : Host} {cwd p : Path} {target : String} {D F : Place → Prop}

theorem staysIn_openArchive (host : Host) (cwd : Path) (path : String) :
    (openArchive host cwd path).StaysIn D F := by
  intro t r t' h
  have h := ends_get.1 h
  split at h
  next f _ => exact staysIn_throw f t r t' h
  next =>
    split at h
    next => exact staysIn_pure _ t r t' h
    next => exact staysIn_throw _ t r t' h
    next => exact staysIn_throw _ t r t' h

/-- Extracting a file writes at its place only, and makes directories above it. -/
theorem staysIn_extractFile (hcwd : cwd.IsNormal) (e : ArchiveEntry) (hp : p.IsNormal) :
    (extractFile cwd e p).StaysIn (· <+: p.parts.dropLast) (· = p.parts) := by
  have hparent : p.parent.IsNormal := hp.of_prefix (List.dropLast_prefix _)
  have hdirectories : (makeDirectories cwd p.parent).StaysIn (· <+: p.parts.dropLast)
      (· = p.parts) :=
    (staysIn_makeDirectories hcwd hparent.tidy).mono (fun _ hq => hq.of_normal hparent) fun _ => id
  have hwrite data : (writeFile cwd p data).StaysIn (· <+: p.parts.dropLast) (· = p.parts) :=
    staysIn_writeFile hcwd hp.tidy (Path.place_of_normal cwd hp)
  apply hdirectories.bind
  intro _
  split
  · exact hwrite _
  · split
    · exact staysIn_throw _
    · exact (hwrite _).bind fun _ => staysIn_throw _

theorem staysIn_extractEntry (hcwd : cwd.IsNormal) (target : String) (e : ArchiveEntry) :
    (extractEntry cwd target e).StaysIn (Place.Meets (Path.place cwd (Path.ofText target)))
      (Path.place cwd (Path.ofText target) <+: ·) := by
  unfold extractEntry
  split
  next => exact staysIn_throw _
  next plan hplan =>
    obtain ⟨hp, hroot⟩ := planEntry_eq_ok hcwd hplan
    split
    · refine (staysIn_makeDirectories hcwd hp.tidy).mono ?_ fun _ => id
      intro q hq
      exact List.prefix_or_prefix_of_prefix (hq.of_normal hp) hroot
    · apply (staysIn_extractFile hcwd e hp).mono
      · intro q hq
        exact List.prefix_or_prefix_of_prefix (hq.trans (List.dropLast_prefix _)) hroot
      · rintro q rfl
        exact hroot

theorem staysIn_extractEntries (hcwd : cwd.IsNormal) (target : String) (es : List ArchiveEntry) :
    (extractEntries cwd target es).StaysIn (Place.Meets (Path.place cwd (Path.ofText target)))
      (Path.place cwd (Path.ofText target) <+: ·) := by
  induction es with
  | nil => exact staysIn_pure _
  | cons e es ih => exact (staysIn_extractEntry hcwd target e).bind fun _ => ih

/-- The extraction of an archive writes files at or below its target only, and makes directories
there and, where nothing stood, above it. -/
theorem staysIn_extractArchive (host : Host) (hcwd : cwd.IsNormal) (archive target : String) :
    (extractArchive host cwd archive target).StaysIn
      (Place.Meets (Path.place cwd (Path.ofText target)))
      (Path.place cwd (Path.ofText target) <+: ·) :=
  (staysIn_openArchive host cwd archive).bind fun es => staysIn_extractEntries hcwd target es

/-- Whether it succeeds or fails, the extraction of an archive changes nothing but its target, what
lies below it, and directories above it that were not there. -/
theorem extraction_confined (hcwd : cwd.IsNormal)
    (h : (extractArchive host cwd archive target).Ends t r t') (p : Place)
    (hp : t'.get? p ≠ t.get? p) :
    Path.place cwd (Path.ofText target) <+: p ∨
      p <+: Path.place cwd (Path.ofText target) ∧ t.get? p = none ∧
        t'.get? p = some .directory := by
  by_cases hroot : Path.place cwd (Path.ofText target) <+: p
  · exact .inl hroot
  · rcases (staysIn_extractArchive host hcwd archive target t r t' h).get?_cases hroot with
      he | ⟨hd, hn⟩
    · exact absurd he hp
    · exact .inr ⟨hd.resolve_right hroot, hn⟩

/-- The bytes of the one archive that a host knows. -/
def archiveBytes : ByteArray := ⟨#[0x50, 0x4B]⟩

/-- A host that knows one archive, with its entries. -/
def hostOf (entries : List ArchiveEntry) : Host where
  parse data := .node "module" 0 data.size "" []
  entries? data := if data.data = archiveBytes.data then some (.ok entries) else none

/-- A working directory with an archive. -/
def packedTree : FileTree where
  objects := [(["w"], .directory), (["w", "a.zip"], .file archiveBytes)]

/-- The second of these entries would leave its target. -/
def escapingEntries : List ArchiveEntry :=
  [⟨"in.txt", "hi".toUTF8, none⟩, ⟨"../../up.txt", "hi".toUTF8, none⟩]

theorem extraction_confined_escapingEntries : ∃ t',
    (extractArchive (hostOf escapingEntries) ⟨.root, ["w"]⟩ "a.zip" "new/dir").Ends packedTree
      (.error (.escapingEntry "../../up.txt")) t' ∧
    t'.get? ["w", "new"] ≠ packedTree.get? ["w", "new"] ∧
      (["w", "new", "dir"] <+: ["w", "new"] ∨ ["w", "new"] <+: ["w", "new", "dir"] ∧
        packedTree.get? ["w", "new"] = none ∧ t'.get? ["w", "new"] = some .directory) := by
  have hcwd : Path.IsNormal ⟨.root, ["w"]⟩ := ⟨by decide, by decide, by decide⟩
  let run := (extractArchive (hostOf escapingEntries) ⟨.root, ["w"]⟩ "a.zip" "new/dir").run.run
    packedTree
  have hrun : run.1 = .error (.escapingEntry "../../up.txt") ∧ run.2.isDirectory ["w", "new"] := by
    decide +kernel
  have h := ends_of_run hrun.1
  have hold : packedTree.get? ["w", "new"] = none := by rfl
  have hp : run.2.get? ["w", "new"] ≠ packedTree.get? ["w", "new"] := by
    rw [FileTree.isDirectory_iff.1 hrun.2, hold]
    nofun
  have hplace : Path.place ⟨.root, ["w"]⟩ (Path.ofText "new/dir") = ["w", "new", "dir"] := by
    decide +kernel
  exact ⟨run.2, h, hp, hplace ▸ extraction_confined hcwd h _ hp⟩

end Disk

end AppManifest
