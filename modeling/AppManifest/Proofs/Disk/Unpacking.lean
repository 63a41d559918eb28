import AppManifest.Proofs.Disk.Extraction

namespace AppManifest
set_option autoImplicit true

/-! What an extraction that succeeds leaves behind, and that a second one adds nothing to it. -/

namespace ArchiveEntry

/-- An entry goes to a place as a file. -/
def FileAt (cwd : Path) (target : String) (e : ArchiveEntry) (p : Place) : Prop :=
  ∃ plan, planEntry cwd e.name target = .ok plan ∧ plan.isDirectory = false ∧
    plan.target.parts = p

instance (cwd : Path) (target : String) (e : ArchiveEntry) (p : Place) :
    Decidable (e.FileAt cwd target p) :=
  match h : planEntry cwd e.name target with
  | .ok plan =>
    decidable_of_iff (plan.isDirectory = false ∧ plan.target.parts = p) <| by
      constructor
      · exact fun hplan => ⟨plan, h, hplan⟩
      · rintro ⟨plan', h', hplan⟩
        cases h.symm.trans h'
        exact hplan
  | .error _ => isFalse fun ⟨_, h', _⟩ => nomatch h.symm.trans h'

/-- For an entry a place has to be a directory: the entry is one that goes there, or it goes below
that place. -/
inductive DirectoryAt (cwd : Path) (target : String) (e : ArchiveEntry) (p : Place) : Prop
  | entry (h : planEntry cwd e.name target = .ok plan) (hd : plan.isDirectory = true)
      (hp : plan.target.parts = p) : DirectoryAt cwd target e p
  | above (h : planEntry cwd e.name target = .ok plan) (hp : plan.target.parts = p ++ c :: rest) :
      DirectoryAt cwd target e p

end ArchiveEntry

namespace FileTree

variable {cwd p : Path} {t t' : FileTree} {D F : Place → Prop}

/-- A path, as it is written, leads to a directory. -/
def LeadsToDirectory (t : FileTree) (cwd p : Path) : Prop :=
  hasNull p.text = false ∧ ∃ q, t.placeOf cwd p = .ok q ∧ t.get? q = some .directory

def LeadsToFile (t : FileTree) (cwd p : Path) : Prop :=
  hasNull p.text = false ∧ ∃ q content, t.placeOf cwd p = .ok q ∧ t.get? q = some (.file content)

/-- A file stays a file, whatever is written to it. -/
theorem Changes.get?_isFile {p : Place} (h : t.Changes D F t')
    (ht : t.get? p = some (.file content)) :
    ∃ content', t'.get? p = some (.file content') := by
  induction h with
  | nothing => exact ⟨content, ht⟩
  | @directory m q _ _ hm ih =>
    obtain ⟨content', ih⟩ := ih
    have hpq : p ≠ q := by
      rintro rfl
      cases hm.symm.trans ih
    exact ⟨content', (get?_insert_of_ne hpq).trans ih⟩
  | @file m q new _ _ hm ih =>
    obtain ⟨content', ih⟩ := ih
    by_cases hpq : p = q
    · subst hpq
      exact ⟨new, get?_insert_self (ne_root hm)⟩
    · exact ⟨content', (get?_insert_of_ne hpq).trans ih⟩

/-- The root is there and is not made. -/
theorem Changes.of_root (h : t.Changes D F t') : t.Changes (fun p => D p ∧ p ≠ []) F t' := by
  induction h with
  | nothing => exact .nothing
  | @directory m q _ hq hm ih =>
    have hroot : q ≠ [] := ne_root (by rw [hm]; nofun)
    exact .directory ih ⟨hq, hroot⟩ hm
  | file _ hq hm ih => exact .file ih hq hm

theorem LeadsToDirectory.changes (h : t.LeadsToDirectory cwd p) (hc : t.Changes D F t') :
    t'.LeadsToDirectory cwd p := by
  obtain ⟨hnull, q, hq, ht⟩ := h
  exact ⟨hnull, q, hc.placeOf_eq_ok hq, hc.get?_directory ht⟩

theorem LeadsToFile.changes (h : t.LeadsToFile cwd p) (hc : t.Changes D F t') :
    t'.LeadsToFile cwd p := by
  obtain ⟨hnull, q, content, hq, ht⟩ := h
  obtain ⟨content', ht'⟩ := hc.get?_isFile ht
  exact ⟨hnull, q, content', hc.placeOf_eq_ok hq, ht'⟩

/-- A walk goes over directories only. -/
theorem walk_directory (h : t.walk s (xs ++ c :: rest) = .ok q) (hdot : "." ∉ xs)
    (hdown : ".." ∉ xs) : t.get? (s ++ xs) = some .directory := by
  induction xs generalizing s with
  | nil =>
    rw [List.append_nil]
    rw [List.nil_append, walk] at h
    split at h
    next => cases h
    next => cases h
    next hs => exact hs
  | cons x xs ih =>
    have hx : x ≠ "." := fun he => hdot (he ▸ List.mem_cons_self)
    have hx' : x ≠ ".." := fun he => hdown (he ▸ List.mem_cons_self)
    have hxs : "." ∉ xs := fun hd => hdot (List.mem_cons_of_mem x hd)
    have hxs' : ".." ∉ xs := fun hd => hdown (List.mem_cons_of_mem x hd)
    rw [List.cons_append, walk] at h
    split at h
    next => cases h
    next => cases h
    next =>
      rw [if_neg hx, if_neg hx'] at h
      split at h
      next => cases h
      next =>
        have hrest := ih h hxs hxs'
        rwa [List.append_assoc] at hrest

theorem walk_of_placeOf (hp : p.IsNormal) (h : t.placeOf cwd p = .ok q) :
    t.walk [] p.parts = .ok q := by
  unfold placeOf at h
  split at h
  next => cases h
  next =>
    rw [if_neg hp.anchored] at h
    exact h

theorem eq_parts_of_placeOf (hcwd : cwd.IsNormal) (hp : p.IsNormal)
    (h : t.placeOf cwd p = .ok q) : q = p.parts :=
  (placeOf_eq_ok hcwd hp.tidy h).trans (Path.place_of_normal cwd hp)

theorem place_of_walk (hcwd : cwd.IsNormal) (hpieces : pieces.filter (· != ".") = p.parts)
    (h : t.walk (if p.anchor = .relative then cwd.parts else []) pieces = .ok q) :
    q = Path.place cwd p := by
  obtain ⟨anchor, parts⟩ := p
  rw [walk_eq_climb h, hpieces]
  dsimp only
  split
  next hrelative =>
    subst hrelative
    exact (Path.place_relative hcwd parts).symm
  next hanchored => exact (Path.place_anchored cwd hanchored parts).symm

/-- An object is found on a path at the end of one walk, at the place of the path; where another
tree has the same walk, what stands there is found in it. -/
theorem objectAt_eq_ok (hcwd : cwd.IsNormal) (h : t.objectAt cwd path = .ok o) :
    t.get? (Path.place cwd (Path.ofText path)) = some o ∧
      ∃ start pieces, t.walk start pieces = .ok (Path.place cwd (Path.ofText path)) ∧
        ∀ (u : FileTree) o', u.walk start pieces = .ok (Path.place cwd (Path.ofText path)) →
          u.get? (Path.place cwd (Path.ofText path)) = some o' →
          u.objectAt cwd path = .ok o' := by
  unfold objectAt at h ⊢
  dsimp only at h ⊢
  split at h
  next => cases h
  next hempty =>
    split at h
    next => cases h
    next hshort =>
      obtain ⟨q, hq, h⟩ := bind_eq_ok.1 h
      have hplace : q = Path.place cwd (Path.ofText path) := by
        apply place_of_walk hcwd _ hq
        have hparts : ((List.map String.ofList (Text.split (· = '/') path.toList)).filter
            (· != "")).filter (· != ".") = (Path.ofText path).parts := by
          rw [List.filter_filter]
          apply List.filter_congr
          exact fun c _ => Bool.and_comm _ _
        split
        · rw [List.filter_append, hparts]
          exact List.append_nil _
        · exact hparts
      subst hplace
      split at h
      next o' ho =>
        cases h
        refine ⟨ho, _, _, hq, fun u o' hu ho' => ?_⟩
        rw [if_neg hempty, if_neg hshort, hu, ok_bind, ho']
        rfl
      next => cases h

/-- A file is found where one stands at the place of a path that led to a file before. -/
theorem Changes.objectAt_eq_ok (hc : t.Changes D F t') (hcwd : cwd.IsNormal)
    (h : t.objectAt cwd path = .ok o)
    (ht : t'.get? (Path.place cwd (Path.ofText path)) = some o') :
    t'.objectAt cwd path = .ok o' := by
  obtain ⟨-, start, pieces, hwalk, hfound⟩ := FileTree.objectAt_eq_ok hcwd h
  exact hfound t' o' (hc.walk_eq_ok hwalk) ht

theorem readFile_eq_ok : t.readFile cwd path = .ok content ↔
    hasNull path = false ∧ t.objectAt cwd path = .ok (.file content) := by
  unfold readFile
  constructor
  · intro h
    split at h
    next => cases h
    next hnull =>
      split at h
      next content' ho =>
        cases h
        exact ⟨Bool.eq_false_iff.2 hnull, ho⟩
      next => cases h
      next => cases h
  · rintro ⟨hnull, ho⟩
    rw [if_neg (Bool.eq_false_iff.1 hnull), ho]

/-- What is read from a path stands at its place. -/
theorem get?_of_readFile (hcwd : cwd.IsNormal) (h : t.readFile cwd path = .ok content) :
    t.get? (Path.place cwd (Path.ofText path)) = some (.file content) :=
  (objectAt_eq_ok hcwd (readFile_eq_ok.1 h).2).1

/-- A file is read as before where nothing else has come to its place. -/
theorem Changes.readFile_eq_ok (hc : t.Changes D F t') (hcwd : cwd.IsNormal)
    (h : t.readFile cwd path = .ok content)
    (ht : t'.get? (Path.place cwd (Path.ofText path)) =
      t.get? (Path.place cwd (Path.ofText path))) :
    t'.readFile cwd path = .ok content := by
  obtain ⟨hnull, ho⟩ := FileTree.readFile_eq_ok.1 h
  have hfile := ht.trans (get?_of_readFile hcwd h)
  exact FileTree.readFile_eq_ok.2 ⟨hnull, hc.objectAt_eq_ok hcwd ho hfile⟩

/-- Where a path leads anywhere, all places above it are directories. -/
theorem directory_of_placeOf (hp : p.IsNormal) (h : t.placeOf cwd p = .ok q)
    (hparts : p.parts = xs ++ c :: rest) : t.get? xs = some .directory := by
  have hw := walk_of_placeOf hp h
  rw [hparts] at hw
  have hdot : "." ∉ xs := by
    intro hd
    have hmem : "." ∈ p.parts := hparts ▸ List.mem_append_left _ hd
    exact (hp.tidy "." hmem).2.1 rfl
  have hdown : ".." ∉ xs := fun hd => hp.down (hparts ▸ List.mem_append_left _ hd)
  have hxs := walk_directory hw hdot hdown
  rwa [List.nil_append] at hxs

end FileTree

namespace Disk

variable {cwd p : Path} {t t' : FileTree}

theorem makeOne_ok (h : (makeOne cwd p).Ends t (.ok ()) t') :
    ∃ q, t'.placeOf cwd p = .ok q ∧ t'.get? q = some .directory := by
  rcases makeOne_cases h with ⟨q, -, hq, hn, rfl⟩ | ⟨rfl, hd⟩
  · have hroot : q ≠ [] := FileTree.ne_root (by rw [hn]; nofun)
    have hc : t.Changes (fun _ => True) (fun _ => False) (t.insert q .directory) :=
      .directory .nothing trivial hn
    exact ⟨q, hc.placeOf_eq_ok hq, FileTree.get?_insert_self hroot⟩
  · have hd := hd rfl
    unfold FileTree.hasDirectory at hd
    split at hd
    next q hq => exact ⟨q, hq, FileTree.isDirectory_iff.1 hd⟩
    next => cases hd

theorem makeUp_ok (h : (makeUp cwd a cs).Ends t (.ok ()) t') :
    ∃ q, t'.placeOf cwd ⟨a, cs.reverse⟩ = .ok q ∧ t'.get? q = some .directory := by
  cases cs with
  | nil => exact makeOne_ok h
  | cons c cs =>
    have h := ends_get.1 h
    dsimp only at h
    split at h
    · obtain ⟨_, m, -, h⟩ := ends_bind_ok.1 h
      exact makeOne_ok h
    · exact makeOne_ok h

theorem makeDirectories_ok (h : (makeDirectories cwd p).Ends t (.ok ()) t') :
    t'.LeadsToDirectory cwd p := by
  unfold makeDirectories at h
  split at h
  next =>
    cases (ends_throw.1 h).1
  next hnull =>
    have hq := makeUp_ok h
    rw [List.reverse_reverse] at hq
    exact ⟨Bool.eq_false_iff.2 hnull, hq⟩

theorem makeDirectory_of_directory (hq : t.placeOf cwd p = .ok q)
    (hd : t.get? q = some .directory) : t.makeDirectory cwd p = .error .fileExists := by
  rw [FileTree.makeDirectory, hq, ok_bind, hd]
  rfl

/-- A directory that is there is accepted as it is. -/
theorem makeOne_of_directory (hq : t.placeOf cwd p = .ok q) (hd : t.get? q = some .directory) :
    (makeOne cwd p).Ends t (.ok ()) t := by
  have hhas : t.hasDirectory cwd p = true := by
    rw [FileTree.hasDirectory, hq]
    exact FileTree.isDirectory_iff.2 hd
  apply ends_get.2
  rw [makeDirectory_of_directory hq hd]
  dsimp only
  rw [if_pos ⟨nofun, hhas⟩]
  exact ends_pure.2 ⟨rfl, rfl⟩

theorem makeDirectories_of_directory (h : t.LeadsToDirectory cwd p) :
    (makeDirectories cwd p).Ends t (.ok ()) t := by
  obtain ⟨hnull, q, hq, hd⟩ := h
  have hone := makeOne_of_directory hq hd
  rw [makeDirectories, hnull]
  generalize hcs : p.parts.reverse = cs
  have hp : p = ⟨p.anchor, cs.reverse⟩ := by rw [← hcs, List.reverse_reverse]
  rw [hp] at hone hq
  cases cs with
  | nil => exact hone
  | cons c cs =>
    have hlacks : t.lacksParent cwd ⟨p.anchor, (c :: cs).reverse⟩ = false := by
      rw [FileTree.lacksParent, makeDirectory_of_directory hq hd]
    apply ends_get.2
    dsimp only
    rw [hlacks]
    exact hone

theorem writeFile_of_file (h : t.LeadsToFile cwd p) (data : ByteArray) :
    ∃ t', (writeFile cwd p data).Ends t (.ok ()) t' := by
  obtain ⟨hnull, q, content, hq, hf⟩ := h
  refine ⟨t.insert q (.file data), ?_⟩
  have hd : t.isDirectory q = false := by
    rw [FileTree.isDirectory, hf]
  rw [writeFile, hnull]
  apply ends_get.2
  rw [hq]
  dsimp only
  rw [hd]
  exact ends_set.2 ⟨rfl, rfl⟩

theorem hasNull_of_writeFile (h : (writeFile cwd p data).Ends t (.ok ()) t') :
    hasNull p.text = false := by
  unfold writeFile at h
  split at h
  next => cases (ends_throw.1 h).1
  next hnull => exact Bool.eq_false_iff.2 hnull

/-- An entry finds all that it makes already there, its file with some content. -/
inductive Ready (cwd : Path) (target : String) (e : ArchiveEntry) (t : FileTree) : Prop
  | directory (h : planEntry cwd e.name target = .ok plan) (hd : plan.isDirectory = true)
      (hp : t.LeadsToDirectory cwd plan.target) : Ready cwd target e t
  | file (h : planEntry cwd e.name target = .ok plan) (hd : plan.isDirectory = false)
      (hdefect : e.defect = none) (hparent : t.LeadsToDirectory cwd plan.target.parent)
      (hp : t.LeadsToFile cwd plan.target) : Ready cwd target e t

theorem Ready.changes (h : Ready cwd target e t) (hc : t.Changes D F t') :
    Ready cwd target e t' := by
  cases h with
  | directory h hd hp => exact .directory h hd (hp.changes hc)
  | file h hd hdefect hparent hp =>
    exact .file h hd hdefect (hparent.changes hc) (hp.changes hc)

theorem exists_cons_of_prefix_dropLast {q l : Place} (h : q <+: l.dropLast) (hq : q ≠ []) :
    ∃ c rest, l = q ++ c :: rest := by
  obtain ⟨s, hs⟩ := h
  have hl : l ≠ [] := by
    rintro rfl
    exact hq (List.append_eq_nil_iff.1 hs).1
  have hlast := List.dropLast_concat_getLast hl
  rw [← hs, List.append_assoc] at hlast
  cases s with
  | nil => exact ⟨_, [], hlast.symm⟩
  | cons c s => exact ⟨c, _, hlast.symm⟩

/-- An entry makes directories and writes a file only where it has to. -/
theorem changes_of_extractEntry (hcwd : cwd.IsNormal)
    (h : (extractEntry cwd target e).Ends t r t') :
    t.Changes (e.DirectoryAt cwd target) (e.FileAt cwd target) t' := by
  unfold extractEntry at h
  split at h
  next => exact staysIn_throw _ _ _ _ h
  next plan hplan =>
    obtain ⟨hp, -⟩ := planEntry_eq_ok hcwd hplan
    split at h
    next hd =>
      have hc := staysIn_makeDirectories (F := e.FileAt cwd target) hcwd hp.tidy _ _ _ h
      refine hc.mono ?_ fun _ => id
      intro q hq
      obtain ⟨rest, hrest⟩ := hq.of_normal hp
      cases rest with
      | nil =>
        rw [List.append_nil] at hrest
        exact .entry hplan hd hrest.symm
      | cons c rest => exact .above hplan hrest.symm
    next hd =>
      have hc := staysIn_extractFile hcwd e hp _ _ _ h
      apply hc.of_root.mono
      · intro q hq
        obtain ⟨c, rest, hrest⟩ := exists_cons_of_prefix_dropLast hq.1 hq.2
        exact .above hplan hrest
      · rintro q rfl
        exact ⟨plan, hplan, Bool.eq_false_iff.2 hd, rfl⟩

/-- Where the target of an entry can be reached, all is a directory that has to be one. -/
theorem get?_of_directoryAt {e : ArchiveEntry} {q : Place} (hp : plan.target.IsNormal)
    (hplan : planEntry cwd e.name target = .ok plan)
    (hq : t.placeOf cwd plan.target = .ok plan.target.parts)
    (hdir : plan.isDirectory = true → t.get? plan.target.parts = some .directory)
    (h : e.DirectoryAt cwd target q) : t.get? q = some .directory := by
  cases h with
  | entry hplan' hd hq' =>
    cases hplan.symm.trans hplan'
    exact hq' ▸ hdir hd
  | above hplan' hq' =>
    cases hplan.symm.trans hplan'
    exact FileTree.directory_of_placeOf hp hq hq'

/-- A file that is extracted is there with the directory that it lies in. -/
theorem extractFile_ok (hcwd : cwd.IsNormal) (hp : p.IsNormal)
    (h : (extractFile cwd e p).Ends t (.ok ()) t') :
    e.defect = none ∧ t'.LeadsToDirectory cwd p.parent ∧ hasNull p.text = false ∧
      t'.placeOf cwd p = .ok p.parts ∧ t'.get? p.parts = some (.file e.data) := by
  obtain ⟨_, m, hm, h⟩ := ends_bind_ok.1 h
  have hparent := makeDirectories_ok hm
  split at h
  next hdefect =>
    have hnull := hasNull_of_writeFile h
    have hwrite : m.Changes (fun _ => True) (fun _ => True) t' :=
      staysIn_writeFile hcwd hp.tidy trivial _ _ _ h
    obtain ⟨q, hq, hfile⟩ := writeFile_ok h
    obtain rfl := FileTree.eq_parts_of_placeOf hcwd hp hq
    exact ⟨hdefect, hparent.changes hwrite, hnull, hq, hfile⟩
  next =>
    split at h
    next => cases (ends_throw.1 h).1
    next =>
      obtain ⟨_, _, -, h⟩ := ends_bind_ok.1 h
      cases (ends_throw.1 h).1

/-- An entry that is extracted is there, and so is all that it needs. -/
theorem extractEntry_ok (hcwd : cwd.IsNormal)
    (h : (extractEntry cwd target e).Ends t (.ok ()) t') :
    Ready cwd target e t' ∧
      (∀ p, e.FileAt cwd target p → t'.get? p = some (.file e.data)) ∧
      ∀ p, e.DirectoryAt cwd target p → t'.get? p = some .directory := by
  unfold extractEntry at h
  split at h
  next => cases (ends_throw.1 h).1
  next plan hplan =>
    obtain ⟨hp, -⟩ := planEntry_eq_ok hcwd hplan
    split at h
    next hd =>
      have hleads := makeDirectories_ok h
      have ⟨_, q, hq, hdir⟩ := hleads
      obtain rfl := FileTree.eq_parts_of_placeOf hcwd hp hq
      refine ⟨.directory hplan hd hleads, ?_, ?_⟩
      · intro p hfile
        obtain ⟨plan', hplan', hd', -⟩ := hfile
        cases hplan.symm.trans hplan'
        cases hd.symm.trans hd'
      · exact fun p => get?_of_directoryAt hp hplan hq fun _ => hdir
    next hd =>
      have hd := Bool.eq_false_iff.2 hd
      obtain ⟨hdefect, hparent, hnull, hq, hfile⟩ := extractFile_ok hcwd hp h
      refine ⟨.file hplan hd hdefect hparent ⟨hnull, _, _, hq, hfile⟩, ?_, ?_⟩
      · intro p hat
        obtain ⟨plan', hplan', -, rfl⟩ := hat
        cases hplan.symm.trans hplan'
        exact hfile
      · exact fun p => get?_of_directoryAt hp hplan hq fun hd' =>
          absurd hd' (Bool.eq_false_iff.1 hd)

/-- An entry that finds all there is extracted again. -/
theorem extractEntry_of_ready (h : Ready cwd target e t) :
    ∃ t', (extractEntry cwd target e).Ends t (.ok ()) t' := by
  rw [extractEntry]
  cases h with
  | @directory plan hplan hd hp =>
    rw [hplan]
    dsimp only
    rw [if_pos hd]
    exact ⟨t, makeDirectories_of_directory hp⟩
  | @file plan hplan hd hdefect hparent hp =>
    rw [hplan]
    dsimp only
    rw [hd, extractFile, hdefect]
    obtain ⟨t', hwrite⟩ := writeFile_of_file hp e.data
    exact ⟨t', (ends_bind_of_ok (makeDirectories_of_directory hparent)).2 hwrite⟩

/-- What an extraction of entries makes of a place. -/
structure Unpacked (cwd : Path) (target : String) (es : List ArchiveEntry) (t t' : FileTree)
    (p : Place) : Prop where
  file : es = before ++ e :: after → e.FileAt cwd target p →
    (∀ x ∈ after, ¬x.FileAt cwd target p) → t'.get? p = some (.file e.data)
  directory : (∃ e ∈ es, e.DirectoryAt cwd target p) → t'.get? p = some .directory
  other : (∀ e ∈ es, ¬e.FileAt cwd target p) → (∀ e ∈ es, ¬e.DirectoryAt cwd target p) →
    t'.get? p = t.get? p
  keepsDirectory : t.get? p = some .directory → t'.get? p = some .directory
  keepsFile : t.get? p = some (.file content) → ∃ content', t'.get? p = some (.file content')

theorem changes_of_extractEntries (hcwd : cwd.IsNormal)
    (h : (extractEntries cwd target es).Ends t r t') :
    t.Changes (fun p => ∃ e ∈ es, e.DirectoryAt cwd target p)
      (fun p => ∃ e ∈ es, e.FileAt cwd target p) t' := by
  induction es generalizing t with
  | nil => exact staysIn_pure _ _ _ _ h
  | cons e es ih =>
    have hfirst {m s} (hm : (extractEntry cwd target e).Ends t s m) :
        t.Changes (fun p => ∃ x ∈ e :: es, x.DirectoryAt cwd target p)
          (fun p => ∃ x ∈ e :: es, x.FileAt cwd target p) m := by
      apply (changes_of_extractEntry hcwd hm).mono
      · exact fun q hp => ⟨e, List.mem_cons_self, hp⟩
      · exact fun q hp => ⟨e, List.mem_cons_self, hp⟩
    rcases ends_bind.1 h with ⟨f, rfl, hf⟩ | ⟨_, m, hm, h⟩
    · exact hfirst hf
    · have hrest : m.Changes (fun p => ∃ x ∈ e :: es, x.DirectoryAt cwd target p)
          (fun p => ∃ x ∈ e :: es, x.FileAt cwd target p) t' := by
        apply (ih h).mono
        · rintro q ⟨x, hx, hp⟩
          exact ⟨x, List.mem_cons_of_mem e hx, hp⟩
        · rintro q ⟨x, hx, hp⟩
          exact ⟨x, List.mem_cons_of_mem e hx, hp⟩
      exact (hfirst hm).trans hrest

/-- Later entries keep what an earlier one has made, but for the files that they write. -/
theorem extractEntries_made (hcwd : cwd.IsNormal)
    (h : (extractEntries cwd target es).Ends t (.ok ()) t') :
    (∀ e ∈ es, Ready cwd target e t') ∧
      (∀ e ∈ es, ∀ p, e.DirectoryAt cwd target p → t'.get? p = some .directory) ∧
      ∀ before e after p, es = before ++ e :: after → e.FileAt cwd target p →
        (∀ x ∈ after, ¬x.FileAt cwd target p) → t'.get? p = some (.file e.data) := by
  induction es generalizing t with
  | nil =>
    refine ⟨List.forall_mem_nil _, List.forall_mem_nil _, ?_⟩
    intro before e after p he
    cases before <;> cases he
  | cons e es ih =>
    obtain ⟨_, m, hm, h⟩ := ends_bind_ok.1 h
    obtain ⟨hready, hfile, hdir⟩ := extractEntry_ok hcwd hm
    obtain ⟨hready', hdir', hfile'⟩ := ih h
    have hc := changes_of_extractEntries hcwd h
    refine ⟨?_, ?_, ?_⟩
    · exact List.forall_mem_cons.2 ⟨hready.changes hc, hready'⟩
    · exact List.forall_mem_cons.2 ⟨fun p hp => hc.get?_directory (hdir p hp), hdir'⟩
    · intro before x after p he hx hlast
      cases before with
      | nil =>
        obtain ⟨rfl, rfl⟩ := List.cons.inj he
        apply hc.get?_file _ (hfile p hx)
        rintro ⟨y, hy, hp⟩
        exact hlast y hy hp
      | cons y before => exact hfile' before x after p (List.cons.inj he).2 hx hlast

theorem extractEntries_ok (hcwd : cwd.IsNormal)
    (h : (extractEntries cwd target es).Ends t (.ok ()) t') (p : Place) :
    Unpacked cwd target es t t' p := by
  obtain ⟨-, hdir, hfile⟩ := extractEntries_made hcwd h
  have hc := changes_of_extractEntries hcwd h
  exact {
    file := hfile _ _ _ p
    directory := fun ⟨e, he, hp⟩ => hdir e he p hp
    other := by
      intro hf hd
      have hf : ¬∃ e ∈ es, e.FileAt cwd target p := fun ⟨e, he, hp⟩ => hf e he hp
      rcases hc.get?_cases hf with h | ⟨⟨e, he, hp⟩, -⟩
      · exact h
      · exact absurd hp (hd e he)
    keepsDirectory := hc.get?_directory
    keepsFile := hc.get?_isFile }

/-- Entries that find all there are extracted again. -/
theorem extractEntries_of_ready (hcwd : cwd.IsNormal) (h : ∀ e ∈ es, Ready cwd target e t) :
    ∃ t', (extractEntries cwd target es).Ends t (.ok ()) t' := by
  induction es generalizing t with
  | nil => exact ⟨t, ends_pure.2 ⟨rfl, rfl⟩⟩
  | cons e es ih =>
    obtain ⟨he, hes⟩ := List.forall_mem_cons.1 h
    obtain ⟨m, hm⟩ := extractEntry_of_ready he
    have hc := changes_of_extractEntry hcwd hm
    obtain ⟨t', ht'⟩ := ih fun x hx => (hes x hx).changes hc
    exact ⟨t', (ends_bind_of_ok hm).2 ht'⟩

/-- Where something in a list has a property, there is a last one that has it. -/
theorem exists_last {P : α → Prop} {es : List α} (h : ∃ e ∈ es, P e) :
    ∃ before e after, es = before ++ e :: after ∧ P e ∧ ∀ x ∈ after, ¬P x := by
  induction es with
  | nil =>
    obtain ⟨_, he, _⟩ := h
    cases he
  | cons e es ih =>
    by_cases hes : ∃ x ∈ es, P x
    · obtain ⟨before, x, after, rfl, hx, hlast⟩ := ih hes
      exact ⟨e :: before, x, after, rfl, hx, hlast⟩
    · refine ⟨[], e, es, rfl, ?_, fun x hx hp => hes ⟨x, hx, hp⟩⟩
      obtain ⟨x, hx, hp⟩ := h
      rcases List.mem_cons.1 hx with rfl | hx
      · exact hp
      · exact absurd ⟨x, hx, hp⟩ hes

/-- Entries extracted over what they have left make nothing else of a place. -/
theorem Unpacked.get?_eq {p : Place} (h : Unpacked cwd target es t t' p)
    (h' : Unpacked cwd target es t' t'' p) : t''.get? p = t'.get? p := by
  by_cases hf : ∃ e ∈ es, e.FileAt cwd target p
  · obtain ⟨before, e, after, he, hp, hlast⟩ := exists_last hf
    rw [h'.file he hp hlast, h.file he hp hlast]
  · by_cases hd : ∃ e ∈ es, e.DirectoryAt cwd target p
    · rw [h'.directory hd, h.directory hd]
    · apply h'.other
      · exact fun e he hp => hf ⟨e, he, hp⟩
      · exact fun e he hp => hd ⟨e, he, hp⟩

theorem openArchive_ok (h : (openArchive host cwd archive).Ends t (.ok es) t') :
    t' = t ∧ ∃ data listed, t.readFile cwd archive = .ok data ∧
      host.entries? data = some (.ok listed) ∧ es = listed.map ArchiveEntry.withPlainName := by
  have h := ends_get.1 h
  split at h
  next => cases (ends_throw.1 h).1
  next data hread =>
    split at h
    next listed hlisted =>
      obtain ⟨he, rfl⟩ := ends_pure.1 h
      cases he
      exact ⟨rfl, data, listed, hread, hlisted, rfl⟩
    next => cases (ends_throw.1 h).1
    next => cases (ends_throw.1 h).1

/-- An archive is opened as before where nothing else has come to its place. -/
theorem openArchive_again (h : (openArchive host cwd archive).Ends t (.ok es) t)
    (hc : t.Changes D F t') (hcwd : cwd.IsNormal)
    (ht : t'.get? (Path.place cwd (Path.ofText archive)) =
      t.get? (Path.place cwd (Path.ofText archive))) :
    (openArchive host cwd archive).Ends t' (.ok es) t' := by
  obtain ⟨-, data, listed, hread, hlisted, rfl⟩ := openArchive_ok h
  apply ends_get.2
  rw [hc.readFile_eq_ok hcwd hread ht]
  dsimp only
  rw [hlisted]
  exact ends_pure.2 ⟨rfl, rfl⟩

/-- An archive that no change writes over is opened as before. -/
theorem openArchive_changes (h : (openArchive host cwd archive).Ends t (.ok es) t)
    (hc : t.Changes D F t') (hcwd : cwd.IsNormal)
    (hF : ¬F (Path.place cwd (Path.ofText archive))) :
    (openArchive host cwd archive).Ends t' (.ok es) t' := by
  obtain ⟨-, data, _, hread, -⟩ := openArchive_ok h
  have hfile := FileTree.get?_of_readFile hcwd hread
  exact openArchive_again h hc hcwd ((hc.get?_file hF hfile).trans hfile.symm)

/-- A successful extraction makes the tree of its archive and nothing else. Unless it has written
over the archive, extracting it again succeeds and changes nothing. -/
theorem extraction_unpacks (hcwd : cwd.IsNormal)
    (h : (extractArchive host cwd archive target).Ends t (.ok ()) t') :
    ∃ es, (openArchive host cwd archive).Ends t (.ok es) t ∧
      (∀ p, Unpacked cwd target es t t' p) ∧
      ((∀ e ∈ es, ¬e.FileAt cwd target (Path.place cwd (Path.ofText archive))) →
        ∃ t'', (extractArchive host cwd archive target).Ends t' (.ok ()) t'' ∧
          ∀ p, t''.get? p = t'.get? p) := by
  obtain ⟨es, m, hopen, hrun⟩ := ends_bind_ok.1 h
  obtain ⟨rfl, -⟩ := openArchive_ok hopen
  have hunpacked := extractEntries_ok hcwd hrun
  refine ⟨es, hopen, hunpacked, fun harchive => ?_⟩
  obtain ⟨hready, -⟩ := extractEntries_made hcwd hrun
  obtain ⟨t'', hagain⟩ := extractEntries_of_ready hcwd hready
  have hkept : ¬∃ e ∈ es, e.FileAt cwd target (Path.place cwd (Path.ofText archive)) :=
    fun ⟨e, he, hp⟩ => harchive e he hp
  have hopen' := openArchive_changes hopen (changes_of_extractEntries hcwd hrun) hcwd hkept
  refine ⟨t'', (ends_bind_of_ok hopen').2 hagain, fun p => ?_⟩
  exact (hunpacked p).get?_eq (extractEntries_ok hcwd hagain p)

/-- An archive with two names for one file, one of which goes over a directory, and an anchored
name. -/
def aliasedEntries : List ArchiveEntry :=
  [⟨"d/", .empty, none⟩, ⟨"x", "1".toUTF8, none⟩, ⟨"d/../x", "2".toUTF8, none⟩,
    ⟨"/w/out/e/y", "3".toUTF8, none⟩]

theorem extraction_unpacks_aliasedEntries : ∃ t' t'',
    (extractArchive (hostOf aliasedEntries) ⟨.root, ["w"]⟩ "a.zip" "out").Ends packedTree
      (.ok ()) t' ∧
    t'.get? ["w", "out", "x"] = some (.file "2".toUTF8) ∧
    (extractArchive (hostOf aliasedEntries) ⟨.root, ["w"]⟩ "a.zip" "out").Ends t' (.ok ()) t'' ∧
    ∀ p, t''.get? p = t'.get? p := by
  have hcwd : Path.IsNormal ⟨.root, ["w"]⟩ := ⟨by decide, by decide, by decide⟩
  have hopen : (openArchive (hostOf aliasedEntries) ⟨.root, ["w"]⟩ "a.zip").Ends packedTree
      (.ok aliasedEntries) packedTree := by rfl
  have hplace : Path.place ⟨.root, ["w"]⟩ (Path.ofText "a.zip") = ["w", "a.zip"] := by
    decide +kernel
  have hrun : ((extractArchive (hostOf aliasedEntries) ⟨.root, ["w"]⟩ "a.zip" "out").run.run
      packedTree).1 = .ok () := by decide +kernel
  have h := ends_of_run hrun
  obtain ⟨es, hopened, hunpacked, hagain⟩ := extraction_unpacks hcwd h
  obtain ⟨hes, -⟩ := hopen.unique hopened
  cases hes
  rw [hplace] at hagain
  obtain ⟨t'', h', hsame⟩ := hagain (by decide +kernel)
  have hentries : aliasedEntries = aliasedEntries.take 2 ++ ⟨"d/../x", "2".toUTF8, none⟩ ::
      aliasedEntries.drop 3 := by rfl
  have hx := (hunpacked ["w", "out", "x"]).file hentries (by decide +kernel) (by decide +kernel)
  exact ⟨_, t'', h, hx, h', hsame⟩

end Disk

end AppManifest
