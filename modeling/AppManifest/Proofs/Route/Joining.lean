import AppManifest.Route
import Mathlib.Data.List.DropRight

namespace AppManifest
set_option autoImplicit true

/-! Routes joined by single slashes. -/

namespace Text

theorem of_head?_trim (h : (trim p s).head? = some c) : p c = false := by
  have hprefix : trim p s <+: s.dropWhile p := List.rdropWhile_prefix p _
  have hc : (s.dropWhile p).head? = some c := by
    obtain ⟨rest, hrest⟩ := hprefix
    rw [← hrest, List.head?_append, h]
    rfl
  have hnot := List.head?_dropWhile_not p s
  rw [hc] at hnot
  exact hnot

theorem of_getLast?_trim (h : (trim p s).getLast? = some c) : p c = false := by
  rw [trim, List.getLast?_reverse] at h
  have hnot := List.head?_dropWhile_not p (s.dropWhile p).reverse
  rw [h] at hnot
  exact hnot

end Text

/-- A text that neither begins nor ends with a slash. -/
def IsTrimmed (s : List Char) : Prop :=
  s.head? ≠ some '/' ∧ s.getLast? ≠ some '/'

theorem trimmed_trimSlashes (s : String) : IsTrimmed (trimSlashes s).toList := by
  rw [trimSlashes, String.toList_ofList]
  constructor
  · intro h
    have hslash := Text.of_head?_trim h
    cases hslash
  · intro h
    have hslash := Text.of_getLast?_trim h
    cases hslash

theorem intercalate_ne_nil (hx : x ≠ []) (xs : List (List Char)) :
    ['/'].intercalate (x :: xs) ≠ [] := by
  cases xs with
  | nil =>
    rw [List.intercalate_singleton]
    exact hx
  | cons y ys =>
    rw [List.intercalate_cons_cons]
    intro h
    exact hx (List.append_eq_nil_iff.1 (List.append_eq_nil_iff.1 h).1).1

/-- Joining trimmed texts puts no slash at either end, unless one of them is empty. -/
theorem trimmed_intercalate {xs : List (List Char)} (hne : ∀ x ∈ xs, x ≠ [])
    (h : ∀ x ∈ xs, IsTrimmed x) : IsTrimmed (['/'].intercalate xs) := by
  induction xs with
  | nil => exact ⟨nofun, nofun⟩
  | cons x xs ih =>
    have hx := hne x List.mem_cons_self
    have hxs := fun y hy => hne y (List.mem_cons_of_mem x hy)
    have htrimmed := h x List.mem_cons_self
    cases xs with
    | nil =>
      rw [List.intercalate_singleton]
      exact htrimmed
    | cons y ys =>
      have hrest := ih hxs fun z hz => h z (List.mem_cons_of_mem x hz)
      have hy := intercalate_ne_nil (hxs y List.mem_cons_self) ys
      rw [List.intercalate_cons_cons]
      constructor
      · rw [List.append_assoc, List.head?_append_of_ne_nil _ hx]
        exact htrimmed.1
      · rw [List.getLast?_append_of_ne_nil _ hy]
        exact hrest.2

theorem toList_joinRoute (parts : List String) : (joinRoute parts).toList =
    ['/'].intercalate (((parts.map trimSlashes).filter fun p => p != "").map String.toList) :=
  String.toList_intercalate

theorem trimmed_joinRoute (parts : List String) : IsTrimmed (joinRoute parts).toList := by
  rw [toList_joinRoute]
  apply trimmed_intercalate
  · intro x hx
    obtain ⟨part, hpart, rfl⟩ := List.mem_map.1 hx
    have hne := (List.mem_filter.1 hpart).2
    rw [bne_iff_ne] at hne
    exact mt String.toList_eq_nil_iff.1 hne
  · intro x hx
    obtain ⟨part, hpart, rfl⟩ := List.mem_map.1 hx
    obtain ⟨whole, -, rfl⟩ := List.mem_map.1 (List.mem_filter.1 hpart).1
    exact trimmed_trimSlashes whole

end AppManifest
