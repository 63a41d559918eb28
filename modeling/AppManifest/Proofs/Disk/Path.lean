import AppManifest.Disk.Path
import Mathlib.Data.List.Infix

namespace AppManifest
set_option autoImplicit true

/-! Where paths lead by their text. -/

namespace Path

/-- Whether a text can be a component of a path: it says something and has no slash. -/
def IsComponent (c : String) : Prop :=
  c ≠ "" ∧ c ≠ "." ∧ '/' ∉ c.toList

instance (c : String) : Decidable (IsComponent c) :=
  inferInstanceAs (Decidable (_ ∧ _))

/-- The components of a path are ones that its text has. -/
def IsTidy (p : Path) : Prop :=
  ∀ c ∈ p.parts, IsComponent c

instance (p : Path) : Decidable p.IsTidy :=
  inferInstanceAs (Decidable (∀ c ∈ p.parts, _))

/-- An absolute path that does not go up: what working directories are. -/
structure IsNormal (p : Path) : Prop where
  tidy : p.IsTidy
  anchored : p.anchor ≠ .relative
  down : ".." ∉ p.parts

/-- The components from the root down that a path leads to by its text. -/
def place (cwd p : Path) : List String :=
  (absolute cwd p).parts

/-- A leading part of a path, as it is written, leads to a place. -/
def Passes (cwd p : Path) (q : List String) : Prop :=
  ∃ xs, xs <+: p.parts ∧ q = place cwd ⟨p.anchor, xs⟩

theorem climb_append (s xs ys : List String) :
    climb s (xs ++ ys) = climb (climb s xs) ys := by
  induction xs generalizing s with
  | nil => rfl
  | cons c xs ih =>
    rw [List.cons_append, climb, climb]
    split
    · exact ih _
    · exact ih _

theorem climb_of_down (s : List String) (h : ".." ∉ cs) : climb s cs = s ++ cs := by
  induction cs generalizing s with
  | nil => exact (List.append_nil s).symm
  | cons c cs ih =>
    have hc : c ≠ ".." := fun hc => h (hc ▸ List.mem_cons_self)
    have hcs : ".." ∉ cs := fun hcs => h (List.mem_cons_of_mem c hcs)
    rw [climb, if_neg hc, ih _ hcs, List.append_assoc, List.singleton_append]

theorem mem_of_mem_climb (h : c ∈ climb s cs) : c ∈ s ∨ c ∈ cs := by
  induction cs generalizing s with
  | nil => exact .inl h
  | cons d cs ih =>
    rw [climb] at h
    split at h
    · rcases ih h with h | h
      · exact .inl (List.mem_of_mem_dropLast h)
      · exact .inr (List.mem_cons_of_mem _ h)
    · rcases ih h with h | h
      · rcases List.mem_append.1 h with h | h
        · exact .inl h
        · exact .inr (List.mem_singleton.1 h ▸ List.mem_cons_self)
      · exact .inr (List.mem_cons_of_mem _ h)

theorem down_climb (h : ".." ∉ s) : ".." ∉ climb s cs := by
  induction cs generalizing s with
  | nil => exact h
  | cons c cs ih =>
    rw [climb]
    split
    · exact ih fun hs => h (List.mem_of_mem_dropLast hs)
    next hc =>
      refine ih fun hs => ?_
      rcases List.mem_append.1 hs with hs | hs
      · exact h hs
      · exact hc (List.mem_singleton.1 hs).symm

theorem tidy_ofText (s : String) : (ofText s).IsTidy := by
  intro c hc
  obtain ⟨hc, hkept⟩ := List.mem_filter.1 hc
  obtain ⟨piece, hpiece, rfl⟩ := List.mem_map.1 hc
  rw [Bool.and_eq_true_iff, bne_iff_ne, bne_iff_ne] at hkept
  refine ⟨hkept.1, hkept.2, fun hslash => ?_⟩
  rw [String.toList_ofList] at hslash
  exact of_decide_eq_false (Text.of_mem_split hpiece _ hslash) rfl

theorem components_intercalate (h : ∀ c ∈ xs, IsComponent c) :
    components ("/".intercalate xs) = xs := by
  cases xs with
  | nil => decide
  | cons x xs =>
    have hsplit : Text.split (· = '/') ("/".intercalate (x :: xs)).toList =
        (x :: xs).map String.toList := by
      rw [Text.split_eq_splitOnP, String.toList_intercalate]
      refine List.splitOn_intercalate '/' ?_ (List.cons_ne_nil _ _)
      intro l hl
      obtain ⟨c, hc, rfl⟩ := List.mem_map.1 hl
      exact (h c hc).2.2
    rw [components, hsplit, List.map_map]
    have hid : String.ofList ∘ String.toList = id := funext fun c => String.ofList_toList
    rw [hid, List.map_id, List.filter_eq_self]
    intro c hc
    simp [(h c hc).1, (h c hc).2.1]

theorem components_slash (s : String) : components ("/" ++ s) = components s := by
  have hsplit : Text.split (· = '/') ("/" ++ s).toList =
      [] :: Text.split (· = '/') s.toList := by
    rw [String.toList_append]
    rfl
  rw [components, hsplit]
  rfl

theorem takeWhile_intercalate (h : ∀ c ∈ xs, IsComponent c) :
    ("/".intercalate xs).toList.takeWhile (· = '/') = [] := by
  cases xs with
  | nil => rfl
  | cons x xs =>
    obtain ⟨hne, -, hslash⟩ := h x List.mem_cons_self
    obtain ⟨c, cs, hx⟩ := List.exists_cons_of_ne_nil (mt String.toList_eq_nil_iff.1 hne)
    have hc : c ≠ '/' := fun hc => hslash (hx ▸ hc ▸ List.mem_cons_self)
    have htext : ∃ rest, ("/".intercalate (x :: xs)).toList = c :: rest := by
      cases xs with
      | nil => exact ⟨cs, by rw [String.intercalate_singleton, hx]⟩
      | cons y ys =>
        rw [String.intercalate_cons_cons, String.toList_append, String.toList_append, hx]
        exact ⟨_, rfl⟩
    obtain ⟨rest, htext⟩ := htext
    rw [htext, List.takeWhile_cons_of_neg (by simpa using hc)]

theorem anchor_ofText_append {s : List Char} (h : s.takeWhile (· = '/') = []) (a : Anchor) :
    Anchor.ofText (a.text.toList ++ s) = a := by
  cases a with
  | relative => simp [Anchor.ofText, Anchor.text, h]
  | root => simp [Anchor.ofText, Anchor.text, h]
  | doubleRoot => simp [Anchor.ofText, Anchor.text, h]

theorem components_append (a : Anchor) (s : String) : components (a.text ++ s) = components s := by
  cases a with
  | relative => rw [Anchor.text, String.empty_append]
  | root => exact components_slash s
  | doubleRoot =>
    have htext : Anchor.text .doubleRoot = "/" ++ "/" := rfl
    rw [htext, String.append_assoc, components_slash, components_slash]

/-- A path is read back from its text. -/
theorem ofText_text (h : p.IsTidy) : ofText p.text = p := by
  unfold text
  split
  next hp =>
    obtain ⟨a, xs⟩ := p
    obtain ⟨rfl, rfl⟩ := hp
    decide
  next =>
    rw [ofText, String.toList_append, anchor_ofText_append (takeWhile_intercalate h),
      components_append, components_intercalate h]

theorem IsTidy.of_prefix (h : IsTidy ⟨a, ys⟩) (hp : xs <+: ys) : IsTidy ⟨a, xs⟩ :=
  fun c hc => h c (hp.subset hc)

theorem IsTidy.parent (h : IsTidy p) : p.parent.IsTidy :=
  fun c hc => h c (List.mem_of_mem_dropLast hc)

theorem IsTidy.join (hp : IsTidy p) (hq : IsTidy q) : (p.join q).IsTidy := by
  unfold Path.join
  split
  · intro c hc
    rcases List.mem_append.1 hc with hc | hc
    · exact hp c hc
    · exact hq c hc
  · exact hq

variable {cwd : Path}

theorem anchored_join (hcwd : cwd.IsNormal) (p : Path) : (cwd.join p).anchor ≠ .relative := by
  unfold join
  split
  · exact hcwd.anchored
  next h => exact h

theorem normal_absolute (hcwd : cwd.IsNormal) (hp : p.IsTidy) : (absolute cwd p).IsNormal where
  tidy c hc := by
    rcases mem_of_mem_climb hc with hc | hc
    · cases hc
    · exact hcwd.tidy.join hp c hc
  anchored := anchored_join hcwd p
  down := down_climb List.not_mem_nil

theorem place_relative (hcwd : cwd.IsNormal) (xs : List String) :
    place cwd ⟨.relative, xs⟩ = climb cwd.parts xs := by
  rw [place, absolute, join, if_pos rfl, climb_append, climb_of_down [] hcwd.down, List.nil_append]

theorem place_anchored (cwd : Path) (ha : a ≠ .relative) (xs : List String) :
    place cwd ⟨a, xs⟩ = climb [] xs := by
  rw [place, absolute, join, if_neg ha]

theorem place_of_normal (cwd : Path) (hp : IsNormal p) : place cwd p = p.parts := by
  rw [place_anchored cwd hp.anchored, climb_of_down [] hp.down, List.nil_append]

/-- Going on from a path by components that do not go up leads below its place. -/
theorem place_append (cwd : Path) (a : Anchor) (xs : List String) (h : ".." ∉ ys) :
    place cwd ⟨a, xs ++ ys⟩ = place cwd ⟨a, xs⟩ ++ ys := by
  simp only [place, absolute, join]
  split
  · rw [← List.append_assoc, climb_append, climb_of_down _ h]
  · rw [climb_append, climb_of_down _ h]

theorem IsNormal.of_prefix (h : IsNormal ⟨a, ys⟩) (hp : xs <+: ys) : IsNormal ⟨a, xs⟩ :=
  ⟨h.tidy.of_prefix hp, h.anchored, fun hd => h.down (hp.subset hd)⟩

theorem Passes.of_normal (h : Passes cwd p q) (hp : p.IsNormal) : q <+: p.parts := by
  obtain ⟨xs, hxs, rfl⟩ := h
  rw [place_of_normal cwd (hp.of_prefix hxs)]
  exact hxs

/-- The way of a path that does not go up leads over the places above its own only. -/
theorem Passes.of_down (h : Passes cwd p q) (hp : ".." ∉ p.parts) : q <+: place cwd p := by
  obtain ⟨xs, ⟨rest, hrest⟩, rfl⟩ := h
  have hd : ".." ∉ rest := fun hd => hp (hrest ▸ List.mem_append_right xs hd)
  have hplace : place cwd p = place cwd ⟨p.anchor, xs⟩ ++ rest := by
    rw [← place_append cwd p.anchor xs hd, hrest]
  exact hplace ▸ List.prefix_append _ _

end Path

end AppManifest
