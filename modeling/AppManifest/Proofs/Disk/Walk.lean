import AppManifest.Proofs.Disk.Extraction

namespace AppManifest
set_option autoImplicit true

/-! Archive entries go where a walk leads that takes their names piece by piece, from the target
directory on. -/

namespace Path

/-- The pieces of a text between its slashes, and also those that are empty. -/
def pieces (s : String) : List String :=
  (s.toList.splitOn '/').map String.ofList

/-- A piece that is the name of something. -/
def IsOrdinary (piece : String) : Prop :=
  piece ≠ "" ∧ piece ≠ "." ∧ piece ≠ ".."

instance (piece : String) : Decidable (IsOrdinary piece) :=
  inferInstanceAs (Decidable (_ ∧ _))

/-- One step of a walk: it stays, goes up unless it is at the top, or goes down. -/
def step (stack : List String) (piece : String) : List String :=
  if piece = "" ∨ piece = "." then stack
  else if piece = ".." then stack.dropLast
  else stack ++ [piece]

/-- Where the walk of a text begins: at the root that its leading slashes name, or where it is. -/
def outset (start : Path) : List Char → Path
  | '/' :: '/' :: '/' :: _ => ⟨.root, []⟩
  | '/' :: '/' :: _ => ⟨.doubleRoot, []⟩
  | '/' :: _ => ⟨.root, []⟩
  | _ => start

/-- Where the pieces of a text lead one after the other. -/
def walk (start : Path) (s : String) : Path :=
  ⟨(start.outset s.toList).anchor, (pieces s).foldl step (start.outset s.toList).parts⟩

variable {cwd start : Path}

theorem components_eq_filter (s : String) :
    components s = (pieces s).filter fun c => c != "" && c != "." := by
  rw [components, Text.split_eq_splitOnP]
  rfl

theorem foldl_step (stack ps : List String) :
    ps.foldl step stack = climb stack (ps.filter fun c => c != "" && c != ".") := by
  induction ps generalizing stack with
  | nil => rfl
  | cons c ps ih =>
    rw [List.foldl_cons, ih]
    by_cases hc : c = "" ∨ c = "."
    · have hskip : ¬(c != "" && c != ".") := by simpa [or_iff_not_imp_left] using hc
      rw [step, if_pos hc, List.filter_cons, if_neg hskip]
    · have hkept : (c != "" && c != ".") := by simpa using hc
      rw [step, if_neg hc, List.filter_cons, if_pos hkept, climb]
      split
      · rfl
      · rfl

theorem takeWhile_slash {s : List Char} (h : ∀ t, s ≠ '/' :: t) :
    s.takeWhile (· = '/') = [] := by
  cases s with
  | nil => rfl
  | cons c s =>
    have hc : c ≠ '/' := fun hc => h s (hc ▸ rfl)
    exact List.takeWhile_cons_of_neg (by simpa using hc)

theorem outset_eq (start : Path) (s : List Char) :
    start.outset s =
      if Anchor.ofText s = .relative then start else ⟨Anchor.ofText s, []⟩ := by
  unfold outset
  split
  -- Three slashes or more, two, one and none.
  next t => simp [Anchor.ofText]
  next t h => simp [Anchor.ofText, takeWhile_slash fun u hu => h u (hu ▸ rfl)]
  next t _ h => simp [Anchor.ofText, takeWhile_slash fun u hu => h u (hu ▸ rfl)]
  next h => simp [Anchor.ofText, takeWhile_slash fun u hu => h u hu]

/-- From a directory, the walk of a text leads where the path leads that the text writes. -/
theorem walk_eq (hstart : start.IsNormal) (s : String) :
    start.walk s = absolute start (ofText s) := by
  rw [walk, foldl_step, ← components_eq_filter, outset_eq, absolute, join, ofText]
  dsimp only
  split
  next => rw [climb_append, climb_of_down [] hstart.down, List.nil_append]
  next => rfl

theorem normal_walk (hstart : start.IsNormal) (s : String) : (start.walk s).IsNormal := by
  rw [walk_eq hstart]
  exact normal_absolute hstart (tidy_ofText s)

theorem absolute_join (cwd : Path) (hstart : start.IsNormal) (p : Path) :
    absolute cwd (start.join p) = absolute start p := by
  rw [absolute, join, if_neg (anchored_join hstart p), absolute]

theorem foldl_step_of_ordinary (stack : List String) (h : ∀ c ∈ ps, IsOrdinary c) :
    ps.foldl step stack = stack ++ ps := by
  induction ps generalizing stack with
  | nil => exact (List.append_nil stack).symm
  | cons c ps ih =>
    obtain ⟨⟨hne, hdot, hup⟩, hps⟩ := List.forall_mem_cons.1 h
    rw [List.foldl_cons, ih _ hps, step, if_neg (not_or.2 ⟨hne, hdot⟩), if_neg hup,
      List.append_assoc, List.singleton_append]

/-- A text whose pieces are names goes down all the way. -/
theorem walk_of_ordinary (start : Path) (h : ∀ c ∈ pieces s, IsOrdinary c) :
    start.walk s = ⟨start.anchor, start.parts ++ pieces s⟩ := by
  have hslash : ∀ t, s.toList ≠ '/' :: t := by
    intro t ht
    have hempty : "" ∈ pieces s := by
      rw [pieces, ht, List.splitOn, List.splitOnP_cons_eq_if_modifyHead,
        if_pos (beq_self_eq_true '/')]
      exact List.mem_cons_self
    exact (h _ hempty).1 rfl
  have houtset : start.outset s.toList = start := by
    rw [outset_eq, Anchor.ofText, takeWhile_slash hslash]
    rfl
  rw [walk, houtset, foldl_step_of_ordinary _ h]

theorem pieces_inj : pieces s = pieces s' ↔ s = s' := by
  constructor
  · intro h
    have hsplit := List.map_injective_iff.2 (fun _ _ => String.ofList_inj.1) h
    have hjoin := congrArg ['/'].intercalate hsplit
    rw [List.intercalate_splitOn, List.intercalate_splitOn] at hjoin
    exact String.toList_inj.1 hjoin
  · rintro rfl
    rfl

end Path

/-- How a name is planned against a directory. -/
structure PlansWithin (cwd : Path) (target : String) (root : Path) (name : String) : Prop where
  normal : (root.walk name).IsNormal
  accepts : ∀ plan, planEntry cwd name target = .ok plan ↔
    (root.walk name).Within root ∧ plan.name = name ∧ plan.target = root.walk name ∧
      (plan.isDirectory = true ↔ name.toList.getLast? = some '/')
  refuses : ∀ f, planEntry cwd name target = .error f ↔
    ¬(root.walk name).Within root ∧ f = .escapingEntry name

theorem plansWithin (hcwd : cwd.IsNormal) (target name : String) :
    PlansWithin cwd target (cwd.walk target) name := by
  have hroot := Path.normal_walk hcwd target
  have hplan : planEntry cwd name target =
      if ((cwd.walk target).walk name).Within (cwd.walk target) then
        .ok ⟨name, (cwd.walk target).walk name, name.toList.getLast? = some '/'⟩
      else .error (.escapingEntry name) := by
    rw [Path.walk_eq hroot, ← Path.absolute_join cwd hroot, Path.walk_eq hcwd]
    rfl
  refine ⟨Path.normal_walk hroot name, fun plan => ?_, fun f => ?_⟩
  · rw [hplan]
    split
    next hin =>
      constructor
      · rintro ⟨⟩
        exact ⟨hin, rfl, rfl, decide_eq_true_iff⟩
      · obtain ⟨name', resolved, directory⟩ := plan
        dsimp only
        rintro ⟨-, rfl, rfl, hdirectory⟩
        have hslash := Bool.eq_iff_iff.2 (hdirectory.trans decide_eq_true_iff.symm)
        rw [← hslash]
    next hout => simp [hout]
  · rw [hplan]
    split
    next hin => simp [hin]
    next hout => simp [hout, eq_comm]

/-- A name whose pieces are names leads below the directory, piece by piece. -/
theorem planEntry_ordinary (hcwd : cwd.IsNormal) (target : String)
    (h : ∀ c ∈ Path.pieces name, Path.IsOrdinary c) :
    ∃ plan, planEntry cwd name target = .ok plan ∧
      plan.target.anchor = (cwd.walk target).anchor ∧
      plan.target.parts = (cwd.walk target).parts ++ Path.pieces name := by
  have hwalk := Path.walk_of_ordinary (cwd.walk target) h
  refine ⟨⟨name, (cwd.walk target).walk name, name.toList.getLast? = some '/'⟩, ?_, ?_, ?_⟩
  · refine ((plansWithin hcwd target name).accepts _).2 ⟨?_, rfl, rfl, decide_eq_true_iff⟩
    rw [hwalk]
    exact ⟨rfl, List.prefix_append _ _⟩
  · rw [hwalk]
  · rw [hwalk]

/-- An entry is planned to where the walk of its name leads from the target directory, as long as
that is the directory or lies below it, and else it is refused. -/
theorem planEntry_walk (hcwd : cwd.IsNormal) (target : String) :
    (cwd.walk target).IsNormal ∧ (∀ name, PlansWithin cwd target (cwd.walk target) name) ∧
    (∀ name, (Failure.escapingEntry name).isReported = true ∧
      (Failure.escapingEntry name).message = "Bad zip entry: " ++ name) ∧
    (∀ name, (∀ c ∈ Path.pieces name, Path.IsOrdinary c) → ∃ plan,
      planEntry cwd name target = .ok plan ∧
      plan.target.anchor = (cwd.walk target).anchor ∧
      plan.target.parts = (cwd.walk target).parts ++ Path.pieces name) ∧
    ∀ name name' plan plan', (∀ c ∈ Path.pieces name, Path.IsOrdinary c) →
      (∀ c ∈ Path.pieces name', Path.IsOrdinary c) → planEntry cwd name target = .ok plan →
      planEntry cwd name' target = .ok plan' → name ≠ name' → plan.target ≠ plan'.target := by
  refine ⟨Path.normal_walk hcwd target, plansWithin hcwd target, fun _ => ⟨rfl, rfl⟩,
    fun _ => planEntry_ordinary hcwd target, ?_⟩
  intro name name' plan plan' hname hname' hplan hplan' hne heq
  obtain ⟨p, hp, -, hparts⟩ := planEntry_ordinary hcwd target hname
  obtain ⟨p', hp', -, hparts'⟩ := planEntry_ordinary hcwd target hname'
  cases hplan.symm.trans hp
  cases hplan'.symm.trans hp'
  rw [heq, hparts', List.append_cancel_left_eq] at hparts
  exact hne (Path.pieces_inj.1 hparts.symm)

/-- A name that ends in a slash is planned as a directory. -/
example : planEntry ⟨.root, ["w"]⟩ "a/./b/" "out" =
    .ok ⟨"a/./b/", ⟨.root, ["w", "out", "a", "b"]⟩, true⟩ := by decide +kernel

/-- A name may leave the target directory on its way if it comes back, but over another root it does
not come back. -/
theorem planEntry_walk_out : Path.IsNormal ⟨.root, ["w"]⟩ ∧
    Path.walk ⟨.root, ["w"]⟩ "out" = ⟨.root, ["w", "out"]⟩ ∧
    planEntry ⟨.root, ["w"]⟩ "a/../..//./out/b" "out" =
      .ok ⟨"a/../..//./out/b", ⟨.root, ["w", "out", "b"]⟩, false⟩ ∧
    planEntry ⟨.root, ["w"]⟩ "//w/out/b" "out" = .error (.escapingEntry "//w/out/b") ∧
    ∃ plan plan', planEntry ⟨.root, ["w"]⟩ "b/c" "out" = .ok plan ∧
      planEntry ⟨.root, ["w"]⟩ "b" "out" = .ok plan' ∧ plan.target ≠ plan'.target := by
  have hcwd : Path.IsNormal ⟨.root, ["w"]⟩ := ⟨by decide, by decide, by decide⟩
  obtain ⟨-, hplans, -, hordinary, hdistinct⟩ := planEntry_walk hcwd "out"
  have hbc : ∀ c ∈ Path.pieces "b/c", Path.IsOrdinary c := by decide +kernel
  have hb : ∀ c ∈ Path.pieces "b", Path.IsOrdinary c := by decide +kernel
  obtain ⟨plan, hplan, -, -⟩ := hordinary _ hbc
  obtain ⟨plan', hplan', -, -⟩ := hordinary _ hb
  refine ⟨hcwd, by decide +kernel, ?_, ?_, plan, plan', hplan, hplan', ?_⟩
  · exact ((hplans _).accepts _).2 (by decide +kernel)
  · exact ((hplans _).refuses _).2 (by decide +kernel)
  · exact hdistinct _ _ _ _ hbc hb hplan hplan' (by decide)

end AppManifest
