import AppManifest.Proofs.Disk.Building
import AppManifest.Proofs.Disk.Unpacking

namespace AppManifest
set_option autoImplicit true

/-! Building again over what a build has left. -/

namespace FileTree

variable {cwd p : Path} {t t' : FileTree} {D F : Place → Prop}

/-- A path leads to a file and the path above it to a directory. -/
structure HasFile (t : FileTree) (cwd p : Path) : Prop where
  directory : t.LeadsToDirectory cwd p.parent
  file : t.LeadsToFile cwd p

theorem HasFile.changes (h : t.HasFile cwd p) (hc : t.Changes D F t') : t'.HasFile cwd p :=
  ⟨h.directory.changes hc, h.file.changes hc⟩

theorem Holds.get? (h : t.Holds cwd p content) (hcwd : cwd.IsNormal) (hp : p.IsTidy) :
    t.get? (Path.place cwd p) = some (.file content) := by
  obtain ⟨q, hq, ht⟩ := h
  obtain rfl := placeOf_eq_ok hcwd hp hq
  exact ht

end FileTree

namespace Disk

variable {cwd p output : Path} {t t' : FileTree} {F : Place → Prop} {es : List ArchiveEntry}
  {fs : List FunctionDescriptor} {app : FunctionApp}

/-- From a tree, a command succeeds and makes no directory; files it writes at such places only. -/
def Rewrites (x : Disk α) (t : FileTree) (F : Place → Prop) (a : α) : Prop :=
  ∃ t', x.Ends t (.ok a) t' ∧ t.Changes (fun _ => False) F t'

theorem rewrites_pure (a : α) : (pure a : Disk α).Rewrites t F a :=
  ⟨t, ends_pure.2 ⟨rfl, rfl⟩, .nothing⟩

theorem Rewrites.bind {x : Disk α} {f : α → Disk β} (hx : x.Rewrites t F a)
    (hf : ∀ m, t.Changes (fun _ => False) F m → (f a).Rewrites m F b) :
    (x >>= f).Rewrites t F b := by
  obtain ⟨m, hm, hc⟩ := hx
  obtain ⟨t', ht', hc'⟩ := hf m hc
  exact ⟨t', (ends_bind_of_ok hm).2 ht', hc.trans hc'⟩

theorem rewrites_makeDirectories (h : t.LeadsToDirectory cwd p) :
    (makeDirectories cwd p).Rewrites t F () :=
  ⟨t, makeDirectories_of_directory h, .nothing⟩

theorem rewrites_writeFile (hcwd : cwd.IsNormal) (hp : p.IsTidy) (h : t.LeadsToFile cwd p)
    (data : ByteArray) (hF : F (Path.place cwd p)) : (writeFile cwd p data).Rewrites t F () := by
  obtain ⟨t', ht'⟩ := writeFile_of_file h data
  exact ⟨t', ht', staysIn_writeFile hcwd hp hF _ _ _ ht'⟩

theorem rewrites_writeJson (hcwd : cwd.IsNormal) (hp : p.IsTidy) (h : t.HasFile cwd p)
    (value : Json) (hF : F (Path.place cwd p)) : (writeJson cwd p value).Rewrites t F p := by
  apply (rewrites_makeDirectories h.directory).bind
  intro m hm
  apply (rewrites_writeFile hcwd hp (h.file.changes hm) _ hF).bind
  exact fun _ _ => rewrites_pure p

theorem rewrites_writeFunctions (hcwd : cwd.IsNormal) (ho : output.IsTidy)
    (hv : ∀ f ∈ fs, IsFunctionName f.name)
    (h : ∀ f ∈ fs, t.HasFile cwd (functionPath output f.name))
    (hF : ∀ f ∈ fs, F (Path.place cwd (functionPath output f.name))) :
    (writeFunctions cwd output fs).Rewrites t F (fs.map fun f => functionPath output f.name) := by
  induction fs generalizing t with
  | nil => exact rewrites_pure []
  | cons f fs ih =>
    obtain ⟨hvf, hvs⟩ := List.forall_mem_cons.1 hv
    obtain ⟨hf, hfs⟩ := List.forall_mem_cons.1 h
    obtain ⟨hFf, hFs⟩ := List.forall_mem_cons.1 hF
    unfold writeFunctions
    rw [join_function hvf]
    apply (rewrites_writeJson hcwd (tidy_functionPath ho hvf) hf _ hFf).bind
    intro m hm
    apply (ih hvs (fun g hg => (hfs g hg).changes hm) hFs).bind
    exact fun _ _ => rewrites_pure _

theorem rewrites_writeFiles (hcwd : cwd.IsNormal) (ho : output.IsTidy)
    (hv : ∀ f ∈ app.functions, IsFunctionName f.name) (hhost : t.HasFile cwd (hostPath output))
    (h : ∀ f ∈ app.functions, t.HasFile cwd (functionPath output f.name))
    (hF : ∀ q, FilePlace cwd output app.functions q → F q) :
    (writeFiles cwd output app).Rewrites t F
      (hostPath output :: app.functions.map fun f => functionPath output f.name) := by
  apply (rewrites_writeJson hcwd (tidy_hostPath ho) hhost _ (hF _ (.inl rfl))).bind
  intro m hm
  have hfs : ∀ f ∈ app.functions, F (Path.place cwd (functionPath output f.name)) :=
    fun f hf => hF _ (.inr ⟨f, hf, rfl⟩)
  apply (rewrites_writeFunctions hcwd ho hv (fun f hf => (h f hf).changes hm) hfs).bind
  exact fun _ _ => rewrites_pure _

theorem rewrites_extractEntry (hcwd : cwd.IsNormal) (h : Ready cwd target e t)
    (hF : ∀ q, e.FileAt cwd target q → F q) : (extractEntry cwd target e).Rewrites t F () := by
  cases h with
  | directory hplan hd hp =>
    rw [extractEntry, hplan]
    dsimp only
    rw [if_pos hd]
    exact rewrites_makeDirectories hp
  | @file plan hplan hd hdefect hparent hp =>
    obtain ⟨hnormal, -⟩ := planEntry_eq_ok hcwd hplan
    have hplace : F (Path.place cwd plan.target) := by
      rw [Path.place_of_normal cwd hnormal]
      exact hF _ ⟨plan, hplan, hd, rfl⟩
    rw [extractEntry, hplan]
    dsimp only
    rw [hd, extractFile, hdefect]
    apply (rewrites_makeDirectories hparent).bind
    exact fun m hm => rewrites_writeFile hcwd hnormal.tidy (hp.changes hm) _ hplace

theorem rewrites_extractEntries (hcwd : cwd.IsNormal) (h : ∀ e ∈ es, Ready cwd target e t)
    (hF : ∀ e ∈ es, ∀ q, e.FileAt cwd target q → F q) :
    (extractEntries cwd target es).Rewrites t F () := by
  induction es generalizing t with
  | nil => exact rewrites_pure ()
  | cons e es ih =>
    obtain ⟨he, hes⟩ := List.forall_mem_cons.1 h
    obtain ⟨hFe, hFs⟩ := List.forall_mem_cons.1 hF
    apply (rewrites_extractEntry hcwd he hFe).bind
    exact fun m hm => ih (fun x hx => (hes x hx).changes hm) hFs

/-- What a file holds that has been written is there with its directory. -/
theorem writeJson_hasFile (hcwd : cwd.IsNormal) (hp : p.IsTidy)
    (h : (writeJson cwd p value).Ends t (.ok written) t') : t'.HasFile cwd p := by
  obtain ⟨_, m, hdirectory, h⟩ := ends_bind_ok.1 h
  obtain ⟨_, m', hwrite, h⟩ := ends_bind_ok.1 h
  obtain ⟨-, rfl⟩ := ends_pure.1 h
  have hc : m.Changes (fun _ => False) (fun _ => True) m' :=
    staysIn_writeFile hcwd hp trivial _ _ _ hwrite
  obtain ⟨q, hq, hfile⟩ := writeFile_ok hwrite
  exact ⟨(makeDirectories_ok hdirectory).changes hc, hasNull_of_writeFile hwrite, q, _, hq, hfile⟩

theorem writeFunctions_hasFile (hcwd : cwd.IsNormal) (ho : output.IsTidy)
    (hv : ∀ f ∈ fs, IsFunctionName f.name)
    (h : (writeFunctions cwd output fs).Ends t (.ok written) t') :
    ∀ f ∈ fs, t'.HasFile cwd (functionPath output f.name) := by
  induction fs generalizing t written with
  | nil => exact List.forall_mem_nil _
  | cons f fs ih =>
    obtain ⟨hf, hfs⟩ := List.forall_mem_cons.1 hv
    obtain ⟨_, m, hw, h⟩ := ends_bind_ok.1 h
    obtain ⟨_, m', hrest, h⟩ := ends_bind_ok.1 h
    obtain ⟨-, rfl⟩ := ends_pure.1 h
    rw [join_function hf] at hw
    have hfirst := writeJson_hasFile hcwd (tidy_functionPath ho hf) hw
    have hc := staysIn_writeFunctions hcwd ho hfs _ _ _ hrest
    exact List.forall_mem_cons.2 ⟨hfirst.changes hc, ih hfs hrest⟩

theorem writeFiles_hasFile (hcwd : cwd.IsNormal) (ho : output.IsTidy)
    (hv : ∀ f ∈ app.functions, IsFunctionName f.name)
    (h : (writeFiles cwd output app).Ends t (.ok written) t') :
    t'.HasFile cwd (hostPath output) ∧
      ∀ f ∈ app.functions, t'.HasFile cwd (functionPath output f.name) := by
  obtain ⟨_, m, hhost, h⟩ := ends_bind_ok.1 h
  obtain ⟨_, m', hfs, h⟩ := ends_bind_ok.1 h
  obtain ⟨-, rfl⟩ := ends_pure.1 h
  have hc := staysIn_writeFunctions hcwd ho hv _ _ _ hfs
  exact ⟨(writeJson_hasFile hcwd (tidy_hostPath ho) hhost).changes hc,
    writeFunctions_hasFile hcwd ho hv hfs⟩

/-- The entries that a template brings: none without a template. -/
def templateEntries (host : Host) (cwd : Path) : Option String → Disk (List ArchiveEntry)
  | none => return []
  | some archive => openArchive host cwd archive

/-- The files of an app over the entries of a template. -/
def writeOver (cwd output : Path) (app : FunctionApp) (es : List ArchiveEntry) :
    Disk (List Path) := do
  extractEntries cwd output.text es
  writeFiles cwd output app

theorem writeApp_eq (host : Host) (cwd : Path) (app : FunctionApp) (output : String)
    (template : Option String) : writeApp host cwd app output template = (do
      makeDirectories cwd (Path.ofText output)
      writeOver cwd (Path.ofText output) app (← templateEntries host cwd template)) := by
  unfold writeApp writeOver
  cases template with
  | none =>
    simp only [templateEntries, extractEntries, pure_bind]
    rfl
  | some archive =>
    simp only [templateEntries, extractArchive, bind_assoc]
    rfl

theorem templateEntries_ok (h : (templateEntries host cwd template).Ends t (.ok es) t') :
    t' = t := by
  cases template with
  | none => exact (ends_pure.1 h).2.symm
  | some archive => exact (openArchive_ok h).1

/-- Where the template is what it was before any directory was made, it brings the same again. -/
theorem templateEntries_again (h : (templateEntries host cwd template).Ends m (.ok es) m)
    (hm : t.Changes D (fun _ => False) m) (hc : m.Changes D' F t') (hcwd : cwd.IsNormal)
    (ht : ∀ archive ∈ template, t'.get? (Path.place cwd (Path.ofText archive)) =
      t.get? (Path.place cwd (Path.ofText archive))) :
    (templateEntries host cwd template).Ends t' (.ok es) t' := by
  cases template with
  | none => exact ends_pure.2 ⟨(ends_pure.1 h).1, rfl⟩
  | some archive =>
    obtain ⟨-, data, _, hread, -⟩ := openArchive_ok h
    have hfile := FileTree.get?_of_readFile hcwd hread
    apply openArchive_again h hc hcwd
    rw [ht archive rfl]
    rcases hm.get?_cases not_false with hsame | ⟨-, -, hdirectory⟩
    · exact hsame.symm
    · cases hfile.symm.trans hdirectory

theorem staysIn_writeOver (hcwd : cwd.IsNormal) (ho : output.IsTidy)
    (hv : ∀ f ∈ app.functions, IsFunctionName f.name) (es : List ArchiveEntry) :
    (writeOver cwd output app es).StaysIn (fun _ => True) (fun _ => True) := by
  apply StaysIn.bind
  · exact (staysIn_extractEntries hcwd _ es).mono (fun _ _ => trivial) fun _ _ => trivial
  · intro _
    exact (staysIn_writeFiles hcwd ho hv).mono (fun _ _ => trivial) fun _ _ => trivial

/-- The places where an app is written over the entries of a template. -/
def Written (cwd output : Path) (app : FunctionApp) (es : List ArchiveEntry) (q : Place) : Prop :=
  (∃ e ∈ es, e.FileAt cwd output.text q) ∨ FilePlace cwd output app.functions q

/-- What comes to be at a place that is written: the app's own file, or else the last entry's. -/
inductive Leaves (cwd output : Path) (app : FunctionApp) (es : List ArchiveEntry) :
    Place → ByteArray → Prop
  | host : Leaves cwd output app es (Path.place cwd (hostPath output))
      app.host.hostJson.print.toUTF8
  | function (hf : f ∈ app.functions) : Leaves cwd output app es
      (Path.place cwd (functionPath output f.name)) f.functionJson.print.toUTF8
  | entry (hes : es = before ++ e :: after) (he : e.FileAt cwd output.text q)
      (hlast : ∀ x ∈ after, ¬x.FileAt cwd output.text q)
      (hq : ¬FilePlace cwd output app.functions q) : Leaves cwd output app es q e.data

theorem exists_leaves (h : Written cwd output app es q) :
    ∃ data, Leaves cwd output app es q data := by
  by_cases hq : FilePlace cwd output app.functions q
  · rcases hq with rfl | ⟨f, hf, rfl⟩
    · exact ⟨_, .host⟩
    · exact ⟨_, .function hf⟩
  · obtain ⟨before, e, after, hes, he, hlast⟩ := exists_last (h.resolve_right hq)
    exact ⟨e.data, .entry hes he hlast hq⟩

theorem Leaves.get? (hl : Leaves cwd output app es q data) (hcwd : cwd.IsNormal)
    (ho : output.IsTidy) (hv : ∀ f ∈ app.functions, IsFunctionName f.name)
    (hd : (app.functions.map FunctionDescriptor.name).Nodup)
    (h : (writeOver cwd output app es).Ends t (.ok written) t') :
    t'.get? q = some (.file data) := by
  obtain ⟨_, m, hentries, hfiles⟩ := ends_bind_ok.1 h
  obtain ⟨-, hhost, hfunctions⟩ := writeFiles_ok hcwd ho hv hd hfiles
  cases hl with
  | host => exact hhost.get? hcwd (tidy_hostPath ho)
  | @function f hf => exact (hfunctions f hf).get? hcwd (tidy_functionPath ho (hv f hf))
  | entry hes he hlast hq =>
    have hm := (extractEntries_ok hcwd hentries q).file hes he hlast
    exact (staysIn_writeFiles hcwd ho hv _ _ _ hfiles).get?_file hq hm

/-- What has been written once is written again as it is. -/
theorem writeOver_again (hcwd : cwd.IsNormal) (ho : output.IsTidy)
    (hv : ∀ f ∈ app.functions, IsFunctionName f.name)
    (hd : (app.functions.map FunctionDescriptor.name).Nodup)
    (h : (writeOver cwd output app es).Ends t (.ok written) t') :
    ∃ t'', (writeOver cwd output app es).Ends t' (.ok written) t'' ∧
      ∀ q, t''.get? q = t'.get? q := by
  obtain ⟨_, m, hentries, hfiles⟩ := ends_bind_ok.1 h
  obtain ⟨rfl, -, -⟩ := writeFiles_ok hcwd ho hv hd hfiles
  have hc := staysIn_writeFiles hcwd ho hv _ _ _ hfiles
  obtain ⟨hready, -, -⟩ := extractEntries_made hcwd hentries
  obtain ⟨hhost, hfunctions⟩ := writeFiles_hasFile hcwd ho hv hfiles
  have hagain : (writeOver cwd output app es).Rewrites t' (Written cwd output app es)
      (hostPath output :: app.functions.map fun f => functionPath output f.name) := by
    apply Rewrites.bind
    · apply rewrites_extractEntries hcwd fun e he => (hready e he).changes hc
      exact fun e he q hq => .inl ⟨e, he, hq⟩
    · intro n hn
      apply rewrites_writeFiles hcwd ho hv (hhost.changes hn) fun f hf =>
        (hfunctions f hf).changes hn
      exact fun q => .inr
  obtain ⟨t'', h', hsame⟩ := hagain
  refine ⟨t'', h', fun q => ?_⟩
  by_cases hq : Written cwd output app es q
  · obtain ⟨data, hl⟩ := exists_leaves hq
    rw [hl.get? hcwd ho hv hd h', hl.get? hcwd ho hv hd h]
  · rcases hsame.get?_cases hq with hq | ⟨hnone, -⟩
    · exact hq
    · cases hnone

/-- Over what writing an app has left, it is written again, unless its template has become another
one on the way. -/
theorem writeApp_again {output : String} (hcwd : cwd.IsNormal)
    (hv : ∀ f ∈ app.functions, IsFunctionName f.name)
    (hd : (app.functions.map FunctionDescriptor.name).Nodup)
    (h : (writeApp host cwd app output template).Ends t (.ok written) t')
    (ht : ∀ archive ∈ template, t'.get? (Path.place cwd (Path.ofText archive)) =
      t.get? (Path.place cwd (Path.ofText archive))) :
    ∃ t'', (writeApp host cwd app output template).Ends t' (.ok written) t'' ∧
      ∀ q, t''.get? q = t'.get? q := by
  have ho := Path.tidy_ofText output
  rw [writeApp_eq] at h ⊢
  obtain ⟨_, m, hdirectory, h⟩ := ends_bind_ok.1 h
  obtain ⟨es, m', hes, hover⟩ := ends_bind_ok.1 h
  obtain rfl := templateEntries_ok hes
  have hm : t.Changes _ (fun _ => False) m' :=
    staysIn_makeDirectories hcwd ho _ _ _ hdirectory
  have hc := staysIn_writeOver hcwd ho hv es _ _ _ hover
  have hdirectory' := makeDirectories_of_directory ((makeDirectories_ok hdirectory).changes hc)
  have hes' := templateEntries_again hes hm hc hcwd ht
  obtain ⟨t'', hover', hsame⟩ := writeOver_again hcwd ho hv hd hover
  exact ⟨t'', (ends_bind_of_ok hdirectory').2 ((ends_bind_of_ok hes').2 hover'), hsame⟩

end Disk

/-- A source file is read as before where nothing else has come to its place. -/
theorem FileTree.Changes.readSource_eq_ok {t t' : FileTree} (hc : t.Changes D F t')
    (hcwd : cwd.IsNormal) (h : t.readSource host cwd source = .ok d)
    (ht : t'.get? (Path.place cwd (Path.ofText source)) =
      t.get? (Path.place cwd (Path.ofText source))) :
    t'.readSource host cwd source = .ok d := by
  have htext := Path.ofText_text (Path.tidy_ofText source)
  unfold FileTree.readSource at h ⊢
  dsimp only at h ⊢
  cases hread : t.readFile cwd (Path.ofText source).text with
  | error f =>
    -- no document comes of a file that cannot be read
    rw [hread] at h
    grind
  | ok data =>
    rw [hc.readFile_eq_ok hcwd hread (by rwa [htext])]
    exact hread ▸ h

/-- A build keeps the files that do not lie below its output directory. -/
theorem build_keeps_file {cwd : Path} (hcwd : cwd.IsNormal)
    (h : (build host cwd source output settings template).run t = (o, t'))
    (hp : ¬Path.place cwd (Path.ofText output) <+: p) (ht : t.get? p = some (.file content)) :
    t'.get? p = some (.file content) := by
  rcases build_cases h with ⟨log, app, ⟨d, -, ha, -⟩, r, hw, -⟩ | ⟨-, rfl, -⟩
  · have hv := (Document.registered_of_analyze ha).2
    exact (Disk.staysIn_writeApp host hcwd hv output template _ _ _ hw).get?_file hp ht
  · exact ht

/-- A build that succeeds without errors can be made again over what it has left, unless it has
written over its source or its template: it comes to the same and leaves every place as it is. -/
theorem build_again {cwd : Path} (hcwd : cwd.IsNormal)
    (h : (build host cwd source output settings template).run t = (o, t'))
    (hb : o.result = .ok b) (he : b.hasErrors = false)
    (hsource : t'.get? (Path.place cwd (Path.ofText source)) =
      t.get? (Path.place cwd (Path.ofText source)))
    (htemplate : ∀ archive ∈ template, t'.get? (Path.place cwd (Path.ofText archive)) =
      t.get? (Path.place cwd (Path.ofText archive))) :
    ∃ t'', (build host cwd source output settings template).run t' = (o, t'') ∧
      ∀ p, t''.get? p = t'.get? p := by
  rcases build_cases h with ⟨log, app, ⟨d, hd, ha, hlog⟩, r, hw, rfl⟩ | ⟨-, -, hnone⟩
  · obtain ⟨hdistinct, hv⟩ := Document.registered_of_analyze ha
    cases r with
    | error f => cases hb
    | ok written =>
      obtain ⟨t'', hw', hsame⟩ := Disk.writeApp_again hcwd hv hdistinct hw htemplate
      have hc := Disk.staysIn_writeApp host hcwd hv output template _ _ _ hw
      have hd' := hc.readSource_eq_ok hcwd hd hsource
      exact ⟨t'', build_of_writeApp ⟨d, hd', ha, hlog⟩ hw', hsame⟩
  · cases he.symm.trans (hnone b hb).1

/-- The second build undoes the host file of the first one and writes it again. -/
theorem build_again_tickTree : ∃ o t' t'' b,
    (build tickHost ⟨.root, ["w"]⟩ "tick.py" "out" {} (some "t.zip")).run tickTree = (o, t') ∧
      o.result = .ok b ∧ b.hasErrors = false ∧
      (build tickHost ⟨.root, ["w"]⟩ "tick.py" "out" {} (some "t.zip")).run t' = (o, t'') ∧
      ∀ p, t''.get? p = t'.get? p := by
  have hcwd : Path.IsNormal ⟨.root, ["w"]⟩ := ⟨by decide, by decide, by decide⟩
  have hout : Path.place ⟨.root, ["w"]⟩ (Path.ofText "out") = ["w", "out"] := by decide +kernel
  have hsource : Path.place ⟨.root, ["w"]⟩ (Path.ofText "tick.py") = ["w", "tick.py"] := by
    decide +kernel
  have htemplate : Path.place ⟨.root, ["w"]⟩ (Path.ofText "t.zip") = ["w", "t.zip"] := by
    decide +kernel
  have hrun : (fun w : BuildOutcome × FileTree => w.1.result.toOption.map BuildResult.hasErrors)
      ((build tickHost ⟨.root, ["w"]⟩ "tick.py" "out" {} (some "t.zip")).run tickTree) =
        some false := by decide +kernel
  generalize h : (build tickHost ⟨.root, ["w"]⟩ "tick.py" "out" {} (some "t.zip")).run tickTree = w
    at hrun
  obtain ⟨o, t'⟩ := w
  obtain ⟨b, hb, he⟩ := Option.map_eq_some_iff.1 hrun
  have hb := eq_ok_of_toOption hb
  have hkeeps {p content} (hp : ¬["w", "out"] <+: p)
      (ht : tickTree.get? p = some (.file content)) : t'.get? p = tickTree.get? p :=
    (build_keeps_file hcwd h (hout ▸ hp) ht).trans ht.symm
  obtain ⟨t'', h', hsame⟩ := build_again hcwd h hb he (hsource ▸ hkeeps (by decide) rfl) (by
    rintro archive ⟨⟩
    exact htemplate ▸ hkeeps (by decide) rfl)
  exact ⟨o, t', t'', b, rfl, hb, he, h', hsame⟩

end AppManifest
