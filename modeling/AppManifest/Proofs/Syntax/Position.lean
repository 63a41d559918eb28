import Mathlib.Data.List.Basic
import AppManifest.Syntax.Document

namespace AppManifest
set_option autoImplicit true

theorem lineEnds_lt (hx : x ∈ lineEnds offset bytes) : offset < x := by
  induction bytes generalizing offset with
  | nil => simp [lineEnds] at hx
  | cons b bytes ih =>
    rw [lineEnds] at hx
    split at hx
    · rcases List.mem_cons.1 hx with rfl | hx
      · omega
      · have hlt := ih hx
        omega
    · have hlt := ih hx
      omega

theorem lineEnds_pairwise (offset : Int) (bytes : List UInt8) :
    (lineEnds offset bytes).Pairwise (· < ·) := by
  induction bytes generalizing offset with
  | nil => exact .nil
  | cons b bytes ih =>
    rw [lineEnds]
    split
    · exact .cons (fun x hx => lineEnds_lt hx) (ih _)
    · exact ih _

theorem Document.lineStarts_pairwise (d : Document) : d.lineStarts.Pairwise (· < ·) :=
  .cons (fun _ hx => lineEnds_lt hx) (lineEnds_pairwise _ _)

/-- A bound cuts an ascending list in two. -/
theorem filter_le_append {starts : List Int} (h : starts.Pairwise (· < ·)) (x : Int) :
    starts.filter (· ≤ x) ++ starts.filter (x < ·) = starts := by
  induction starts with
  | nil => rfl
  | cons s starts ih =>
    rw [List.pairwise_cons] at h
    by_cases hs : s ≤ x
    · have hs' : ¬x < s := by omega
      simp only [List.filter_cons, hs, hs', decide_true, decide_false, ↓reduceIte,
        Bool.false_eq_true, List.cons_append, ih h.2]
    · have hs' : x < s := by omega
      have hle : starts.filter (· ≤ x) = [] := by
        rw [List.filter_eq_nil_iff]
        intro t ht hle
        have hst := h.1 t ht
        have hle := of_decide_eq_true hle
        omega
      have hlt : starts.filter (x < ·) = starts := by
        rw [List.filter_eq_self]
        intro t ht
        have hst := h.1 t ht
        exact decide_eq_true (by omega)
      simp only [List.filter_cons, hs, hs', decide_true, decide_false, ↓reduceIte,
        Bool.false_eq_true, hle, hlt, List.nil_append]

namespace Document

/-- The place of an offset in the source leads back to the offset, also at the end of a line. -/
theorem offset?_position {d : Document} {x : Int} (h : 0 ≤ x) (hx : x ≤ d.source.size) :
    d.offset? (d.position x) = some x := by
  obtain ⟨line, hline⟩ : ∃ line, d.lineStarts.filter (· ≤ x) = line := ⟨_, rfl⟩
  obtain ⟨later, hlater⟩ : ∃ later, d.lineStarts.filter (x < ·) = later := ⟨_, rfl⟩
  have hstarts : d.lineStarts = line ++ later := by
    rw [← hline, ← hlater, filter_le_append d.lineStarts_pairwise]
  have hne : line ≠ [] := by
    intro h
    subst h
    rw [List.filter_eq_nil_iff] at hline
    exact hline 0 List.mem_cons_self (decide_eq_true h)
  obtain ⟨earlier, start, rfl⟩ := List.eq_nil_or_concat line |>.resolve_left hne
  have hstart : start ≤ x := by
    have hmem : start ∈ d.lineStarts.filter (· ≤ x) := by simp [hline]
    exact of_decide_eq_true (List.mem_filter.1 hmem).2
  have hpos : d.position x = ⟨earlier.length, x - start⟩ := by
    simp [position, hline]
  -- the line ends where the next one starts, which is past the offset, or with the source
  have hstop : x ≤ d.lineStarts[earlier.length + 1]?.getD d.source.size := by
    cases later with
    | nil => simpa [hstarts] using hx
    | cons next later =>
      have hmem : next ∈ d.lineStarts.filter (x < ·) := by simp [hlater]
      have hlt := of_decide_eq_true (List.mem_filter.1 hmem).2
      simpa [hstarts] using Int.le_of_lt hlt
  have hget : d.lineStarts[earlier.length]? = some start := by simp [hstarts]
  have hsum : start + (x - start) = x := by omega
  have hvalid : ¬((earlier.length : Int) < 0 ∨ x - start < 0) := by omega
  rw [hpos, offset?, if_neg hvalid]
  simp only [Int.toNat_natCast, hget, hsum, if_pos hstop]

theorem position_injective (d : Document) : Function.Injective d.position := by
  have hle {x y : Int} (hxy : x ≤ y) (h : d.position x = d.position y) : x = y := by
    obtain ⟨hline, hoffset⟩ := LinePosition.mk.inj h
    -- the line starts before the one offset are among those before the other, and as many
    have hsub : (d.lineStarts.filter (· ≤ x)).Sublist (d.lineStarts.filter (· ≤ y)) :=
      List.monotone_filter_right _ fun s hs =>
        decide_eq_true (Int.le_trans (of_decide_eq_true hs) hxy)
    have heq := hsub.eq_of_length (by omega)
    rw [heq] at hoffset
    omega
  intro x y h
  rcases Int.le_total x y with hxy | hyx
  · exact hle hxy h
  · exact (hle hyx h.symm).symm

/-- No two ranges of bytes have the same lines and columns. -/
theorem range_of_lines {d : Document} {m n : Node} (h : d.lines m = d.lines n) :
    m.start = n.start ∧ m.stop = n.stop := by
  obtain ⟨hstart, hstop⟩ := LineRange.mk.inj h
  exact ⟨d.position_injective hstart, d.position_injective hstop⟩

end Document

end AppManifest
