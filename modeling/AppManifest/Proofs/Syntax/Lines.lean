import Mathlib.Data.List.Basic
import Mathlib.Data.List.Pairwise
import Mathlib.Data.List.DropRight
import AppManifest.Proofs.Syntax.Position

namespace AppManifest
set_option autoImplicit true

/-! Byte offsets and places in lines lead to each other. -/

/-- The lexicographic order of places. -/
def LinePosition.Before (p q : LinePosition) : Prop :=
  p.line < q.line ∨ p.line = q.line ∧ p.offset < q.offset

theorem LinePosition.Before.trans {p q r : LinePosition} (h : p.Before q) (h' : q.Before r) :
    p.Before r := by
  unfold Before at *
  omega

/-- The place at the end of some bytes: how many line feeds are among them, and how many bytes
follow the last of these. -/
def placeAfter (bytes : List UInt8) : LinePosition :=
  ⟨bytes.count 0x0A, (bytes.rtakeWhile (· != 0x0A)).length⟩

theorem placeAfter_concat (bytes : List UInt8) (b : UInt8) :
    (placeAfter bytes).Before (placeAfter (bytes ++ [b])) := by
  unfold placeAfter
  rw [List.rtakeWhile_concat, List.count_append]
  by_cases hb : b = 0x0A
  · subst hb
    left
    rw [List.count_singleton_self]
    exact Int.ofNat_lt.2 (Nat.lt_succ_self _)
  · right
    have hkeep : (b != 0x0A) = true := bne_iff_ne.2 hb
    rw [List.count_singleton, if_neg (by simpa using hb), if_pos hkeep, List.length_append]
    exact ⟨rfl, Int.ofNat_lt.2 (Nat.lt_succ_self _)⟩

theorem lineEnds_append (offset : Int) (bytes more : List UInt8) :
    lineEnds offset (bytes ++ more) =
      lineEnds offset bytes ++ lineEnds (offset + bytes.length) more := by
  induction bytes generalizing offset with
  | nil => simp [lineEnds]
  | cons b bytes ih =>
    have hsum : offset + 1 + bytes.length = offset + (b :: bytes).length := by
      rw [List.length_cons]
      omega
    rw [List.cons_append, lineEnds, lineEnds, ih, hsum]
    split
    · rfl
    · rfl

theorem length_lineEnds (offset : Int) (bytes : List UInt8) :
    (lineEnds offset bytes).length = bytes.count 0x0A := by
  induction bytes generalizing offset with
  | nil => rfl
  | cons b bytes ih =>
    rw [lineEnds]
    split
    next hb =>
      subst hb
      rw [List.length_cons, ih, List.count_cons_self]
    next hb => rw [ih, List.count_cons_of_ne hb]

/-- Up to an offset lie the line ends of the bytes before it. -/
theorem filter_lineEnds (offset : Int) (bytes : List UInt8) (n : Nat) :
    (lineEnds offset bytes).filter (· ≤ offset + n) = lineEnds offset (bytes.take n) := by
  induction bytes generalizing offset n with
  | nil => simp [lineEnds]
  | cons b bytes ih =>
    cases n with
    | zero =>
      rw [List.take_zero, lineEnds, List.filter_eq_nil_iff]
      intro x hx hle
      have hlt := lineEnds_lt hx
      have hle := of_decide_eq_true hle
      omega
    | succ n =>
      have hsum : offset + (n + 1 : Nat) = offset + 1 + n := by omega
      have hfirst : offset + 1 ≤ offset + 1 + n := by omega
      rw [hsum, List.take_succ_cons, lineEnds, lineEnds]
      split
      · simp only [List.filter_cons, hfirst, decide_true, if_true, ih]
      · exact ih (offset + 1) n

/-- What follows the last line end is as long as the end of the bytes that has no line feed. -/
theorem getLastD_lineEnds (offset : Int) (bytes : List UInt8) :
    (lineEnds offset bytes).getLastD offset + (bytes.rtakeWhile (· != 0x0A)).length =
      offset + bytes.length := by
  induction bytes using List.reverseRecOn with
  | nil => simp [lineEnds]
  | append_singleton bytes b ih =>
    rw [lineEnds_append, List.rtakeWhile_concat, List.length_append, List.length_singleton]
    by_cases hb : b = 0x0A
    · subst hb
      simp only [lineEnds, if_true, List.getLastD_concat, bne_self_eq_false, Bool.false_eq_true,
        if_false, List.length_nil]
      omega
    · have hkeep : (b != 0x0A) = true := bne_iff_ne.2 hb
      simp only [lineEnds, if_neg hb, List.append_nil, hkeep, if_true, List.length_append,
        List.length_singleton]
      omega

/-- A line starts where the table has it, and ends where the table has the next one. -/
theorem exists_start (offset : Int) {bytes : List UInt8}
    (h : (bytes.splitOn 0x0A)[k]? = some line) :
    ∃ start, (offset :: lineEnds offset bytes)[k]? = some start ∧
      (offset :: lineEnds offset bytes)[k + 1]?.getD (offset + bytes.length) =
        start + line.length + if k + 1 < (bytes.splitOn 0x0A).length then 1 else 0 := by
  induction bytes generalizing offset k line with
  | nil =>
    cases k with
    | zero =>
      cases h
      exact ⟨offset, rfl, by simp [lineEnds]⟩
    | succ k => cases h
  | cons b bytes ih =>
    have hsum : offset + (b :: bytes).length = offset + 1 + bytes.length := by
      rw [List.length_cons]
      omega
    rw [List.splitOn_cons_eq_if_modifyHead] at h ⊢
    rw [lineEnds, hsum]
    by_cases hb : b = 0x0A
    · -- the line feed ends a line
      subst hb
      rw [if_pos (beq_self_eq_true _)] at h ⊢
      rw [if_pos rfl]
      cases k with
      | zero =>
        cases h
        have hne := List.length_pos_iff.2 (List.splitOn_ne_nil 0x0A bytes)
        exact ⟨offset, rfl, by simp [hne]⟩
      | succ k =>
        obtain ⟨start, hstart, hstop⟩ := ih (offset + 1) h
        refine ⟨start, hstart, ?_⟩
        rw [List.getElem?_cons_succ, hstop, List.length_cons]
        simp only [Nat.add_lt_add_iff_right]
    · have hb' : ¬(b == 0x0A) = true := by simpa using hb
      rw [if_neg hb'] at h ⊢
      rw [if_neg hb, List.length_modifyHead]
      obtain ⟨l, ls, hsplit⟩ := List.exists_cons_of_ne_nil (List.splitOn_ne_nil 0x0A bytes)
      rw [hsplit] at h ih ⊢
      cases k with
      | zero =>
        cases h
        obtain ⟨start, hstart, hstop⟩ := ih (offset + 1) (k := 0) rfl
        cases hstart
        refine ⟨offset, rfl, ?_⟩
        rw [List.getElem?_cons_succ] at hstop ⊢
        rw [hstop, List.length_cons (a := b)]
        omega
      | succ k => exact ih (offset + 1) (k := k + 1) h

theorem length_splitOn (bytes : List UInt8) :
    (bytes.splitOn 0x0A).length = bytes.count 0x0A + 1 := by
  induction bytes with
  | nil => rfl
  | cons b bytes ih =>
    rw [List.splitOn_cons_eq_if_modifyHead, List.count_cons]
    split
    · rw [List.length_cons, ih]
    · rw [List.length_modifyHead, ih]

namespace Document

/-- The bytes of the source. -/
def sourceBytes (d : Document) : List UInt8 := d.source.data.toList

/-- The lines of the source, without the line feeds that end all but the last of them. -/
def sourceLines (d : Document) : List (List UInt8) := d.sourceBytes.splitOn 0x0A

/-- The length of a line with its line feed, which the last line lacks. -/
def lineLength (d : Document) (k : Nat) (line : List UInt8) : Int :=
  line.length + if k + 1 < d.sourceLines.length then 1 else 0

/-- A place in one of the lines, its end included. -/
def HasPlace (d : Document) (p : LinePosition) : Prop :=
  0 ≤ p.line ∧ 0 ≤ p.offset ∧
    ∃ line, d.sourceLines[p.line.toNat]? = some line ∧ p.offset ≤ d.lineLength p.line.toNat line

/-- The place just past the line feed of a line. -/
def IsPastLineFeed (d : Document) (p : LinePosition) : Prop :=
  0 ≤ p.line ∧ p.line.toNat + 1 < d.sourceLines.length ∧
    ∃ line, d.sourceLines[p.line.toNat]? = some line ∧ p.offset = line.length + 1

variable {d : Document}

theorem length_sourceBytes (d : Document) : d.sourceBytes.length = d.source.size := rfl

theorem position_eq (d : Document) {x : Nat} (hx : x ≤ d.source.size) :
    d.position x = placeAfter (d.sourceBytes.take x) := by
  have hfilter : d.lineStarts.filter (· ≤ (x : Int)) = 0 :: lineEnds 0 (d.sourceBytes.take x) := by
    have h := filter_lineEnds 0 d.sourceBytes x
    rw [Int.zero_add] at h
    have hfirst : (0 : Int) ≤ x := Int.natCast_nonneg x
    simp only [lineStarts, List.filter_cons, hfirst, decide_true, if_true]
    exact congrArg _ h
  have hlast := getLastD_lineEnds 0 (d.sourceBytes.take x)
  rw [List.length_take, length_sourceBytes, Nat.min_eq_left hx] at hlast
  simp only [position, placeAfter, hfilter, List.length_cons, length_lineEnds,
    List.getLastD_cons, LinePosition.mk.injEq]
  omega

theorem position_before (d : Document) {x y : Nat} (hlt : x < y) (hy : y ≤ d.source.size) :
    (d.position x).Before (d.position y) := by
  have hstep (z : Nat) (hz : z < d.source.size) :
      (d.position z).Before (d.position (z + 1 : Nat)) := by
    have htake := List.take_append_getElem (l := d.sourceBytes) hz
    rw [d.position_eq (Nat.le_of_lt hz), d.position_eq hz, ← htake]
    exact placeAfter_concat _ _
  induction y, hlt using Nat.le_induction with
  | base => exact hstep x hy
  | succ y _ ih => exact (ih (Nat.le_of_lt hy)).trans (hstep y hy)

/-- There are as many line starts as lines. -/
theorem length_lineStarts (d : Document) : d.lineStarts.length = d.sourceLines.length := by
  rw [sourceLines, length_splitOn, lineStarts, List.length_cons, length_lineEnds]
  rfl

theorem start_of_line {k : Nat} (h : d.sourceLines[k]? = some line) :
    ∃ start : Int, d.lineStarts[k]? = some start ∧
      d.lineStarts[k + 1]?.getD (d.source.size : Int) = start + d.lineLength k line := by
  obtain ⟨start, hstart, hstop⟩ := exists_start 0 h
  refine ⟨start, hstart, ?_⟩
  rw [Int.zero_add] at hstop
  rw [lineLength, ← Int.add_assoc]
  exact hstop

theorem offset?_eq_some_iff {p : LinePosition} : d.offset? p = some x ↔
    0 ≤ p.line ∧ 0 ≤ p.offset ∧ ∃ line start, d.sourceLines[p.line.toNat]? = some line ∧
      d.lineStarts[p.line.toNat]? = some start ∧ x = start + p.offset ∧
      p.offset ≤ d.lineLength p.line.toNat line := by
  rw [offset?]
  split
  next hneg =>
    refine iff_of_false (Option.some_ne_none x).symm ?_
    rintro ⟨hline, hoffset, -⟩
    omega
  next hnonneg =>
    cases hline : d.sourceLines[p.line.toNat]? with
    | none =>
      have hstart : d.lineStarts[p.line.toNat]? = none := by
        rw [List.getElem?_eq_none_iff, length_lineStarts]
        exact List.getElem?_eq_none_iff.1 hline
      simp [hstart]
    | some line =>
      obtain ⟨start, hstart, hstop⟩ := start_of_line hline
      simp only [hstart, hstop, Option.ite_none_right_eq_some, Option.some.injEq,
        exists_and_left, exists_eq_left']
      constructor
      · rintro ⟨hle, rfl⟩
        exact ⟨by omega, by omega, rfl, by omega⟩
      · rintro ⟨-, -, rfl, hle⟩
        exact ⟨by omega, rfl⟩

/-- An offset lies on the last line that does not start after it. -/
theorem position_of_start {k : Nat} {start x : Int} (h : d.lineStarts[k]? = some start)
    (hx : start ≤ x) (hnext : ∀ next : Int, d.lineStarts[k + 1]? = some next → x < next) :
    d.position x = ⟨k, x - start⟩ := by
  obtain ⟨hk, hget⟩ := List.getElem?_eq_some_iff.1 h
  have hsplit : d.lineStarts = d.lineStarts.take k ++ start :: d.lineStarts.drop (k + 1) := by
    rw [← hget, ← List.drop_eq_getElem_cons hk, List.take_append_drop]
  have hlength : (d.lineStarts.take k).length = k := List.length_take_of_le (Nat.le_of_lt hk)
  have hpairwise := d.lineStarts_pairwise
  rw [← List.head?_drop] at hnext
  generalize d.lineStarts.take k = earlier at hsplit hlength
  generalize d.lineStarts.drop (k + 1) = later at hsplit hnext
  rw [hsplit, List.pairwise_append, List.pairwise_cons] at hpairwise
  obtain ⟨-, ⟨-, hlater⟩, hcross⟩ := hpairwise
  have hkept : earlier.filter (· ≤ x) = earlier := by
    rw [List.filter_eq_self]
    intro s hs
    have hlt := hcross s hs start List.mem_cons_self
    exact decide_eq_true (by omega)
  have hdropped : later.filter (· ≤ x) = [] := by
    rw [List.filter_eq_nil_iff]
    intro s hs hle
    have hle := of_decide_eq_true hle
    cases later with
    | nil => cases hs
    | cons next later =>
      have hlt := hnext next rfl
      rcases List.mem_cons.1 hs with rfl | hs
      · omega
      · have hlt' := (List.pairwise_cons.1 hlater).1 s hs
        omega
  have hfilter : d.lineStarts.filter (· ≤ x) = earlier ++ [start] := by
    rw [hsplit, List.filter_append, hkept]
    simp only [List.filter_cons, hx, decide_true, if_true, hdropped]
  simp [position, hfilter, hlength]

theorem lineLength_of_lt {k : Nat} (h : k + 1 < d.sourceLines.length) :
    d.lineLength k line = line.length + 1 := by
  rw [lineLength, if_pos h]

/-- A place that is not past a line feed is that of its offset. -/
theorem position_of_offset? {p : LinePosition} (h : d.offset? p = some x)
    (hpast : ¬d.IsPastLineFeed p) : d.position x = p := by
  obtain ⟨hline, hoffset, line, start, hl, hstart, rfl, hle⟩ := offset?_eq_some_iff.1 h
  have hnext (next : Int) (hnext : d.lineStarts[p.line.toNat + 1]? = some next) :
      start + p.offset < next := by
    obtain ⟨start', hstart', hstop⟩ := start_of_line hl
    cases hstart.symm.trans hstart'
    have hlt : p.line.toNat + 1 < d.sourceLines.length := by
      rw [← length_lineStarts]
      exact (List.getElem?_eq_some_iff.1 hnext).1
    rw [hnext, Option.getD_some] at hstop
    rw [lineLength_of_lt hlt] at hle hstop
    have hne : p.offset ≠ line.length + 1 := fun he => hpast ⟨hline, hlt, line, hl, he⟩
    omega
  rw [position_of_start hstart (by omega) hnext]
  exact congrArg₂ LinePosition.mk (Int.toNat_of_nonneg hline) (by omega)

/-- Past a line feed the next line starts. -/
theorem position_past_lineFeed {p : LinePosition} (h : d.offset? p = some x)
    (hpast : d.IsPastLineFeed p) : d.position x = ⟨p.line + 1, 0⟩ := by
  obtain ⟨hline, -, line, start, hl, hstart, rfl, -⟩ := offset?_eq_some_iff.1 h
  obtain ⟨-, hlt, line', hl', hoffset⟩ := hpast
  cases hl.symm.trans hl'
  obtain ⟨start', hstart', hstop⟩ := start_of_line hl
  cases hstart.symm.trans hstart'
  obtain ⟨next, hnext⟩ : ∃ next, d.lineStarts[p.line.toNat + 1]? = some next := by
    rw [← length_lineStarts] at hlt
    exact ⟨_, List.getElem?_eq_getElem hlt⟩
  rw [hnext, Option.getD_some, lineLength_of_lt hlt] at hstop
  have hafter (after : Int) (hafter : d.lineStarts[p.line.toNat + 1 + 1]? = some after) :
      start + p.offset < after := by
    obtain ⟨hi, hget⟩ := List.getElem?_eq_some_iff.1 hnext
    obtain ⟨hj, hget'⟩ := List.getElem?_eq_some_iff.1 hafter
    have hascending :=
      List.pairwise_iff_getElem.1 d.lineStarts_pairwise _ _ hi hj (Nat.lt_succ_self _)
    omega
  rw [position_of_start hnext (by omega) hafter, LinePosition.mk.injEq]
  omega

/-- Offsets and places lead to each other. An offset in the source lies behind the line feeds and
the bytes that are before it, later offsets lie in later places, and from its place an offset is
found again. A place has an offset just where it is in one of the lines, its end included; the place
of that offset is the place itself, or the start of the next line where it is past the line feed. -/
theorem position_offset? (d : Document) :
    (∀ x : Nat, x ≤ d.source.size → d.position x = placeAfter (d.sourceBytes.take x) ∧
      d.offset? (d.position x) = some x) ∧
      (∀ x y : Nat, x < y → y ≤ d.source.size → (d.position x).Before (d.position y)) ∧
      (∀ p : LinePosition, (∃ x, d.offset? p = some x) ↔ d.HasPlace p) ∧
      ∀ (p : LinePosition) (x : Int), d.offset? p = some x →
        (¬d.IsPastLineFeed p → d.position x = p) ∧
        (d.IsPastLineFeed p → d.position x = ⟨p.line + 1, 0⟩) := by
  refine ⟨fun x hx => ?_, fun x y => d.position_before, fun p => ?_, fun p x h => ?_⟩
  · exact ⟨d.position_eq hx, offset?_position (Int.natCast_nonneg x) (Int.ofNat_le.2 hx)⟩
  · simp only [offset?_eq_some_iff, HasPlace]
    constructor
    · rintro ⟨x, hline, hoffset, line, start, hl, -, -, hle⟩
      exact ⟨hline, hoffset, line, hl, hle⟩
    · rintro ⟨hline, hoffset, line, hl, hle⟩
      obtain ⟨start, hstart, -⟩ := start_of_line hl
      exact ⟨_, hline, hoffset, line, start, hl, hstart, rfl, hle⟩
  · exact ⟨position_of_offset? h, position_past_lineFeed h⟩

/-- A short line, an empty one, and a last one that no line feed ends. -/
def threeLines : Document where
  path := "lines.py"
  source := "a\n\nbc".toUTF8
  tree := .node "module" 0 5 "" []

/-- Past the first line feed the second line starts, the last line ends with the source, and there
is no fourth line. -/
theorem position_threeLines :
    (2 ≤ threeLines.source.size ∧ threeLines.position 2 = ⟨1, 0⟩ ∧
      threeLines.offset? (threeLines.position 2) = some 2) ∧
      (2 < 5 ∧ 5 ≤ threeLines.source.size ∧
        (threeLines.position 2).Before (threeLines.position 5)) ∧
      (threeLines.HasPlace ⟨2, 2⟩ ∧ ∃ x, threeLines.offset? ⟨2, 2⟩ = some x) ∧
      (¬threeLines.HasPlace ⟨3, 0⟩ ∧ ¬∃ x, threeLines.offset? ⟨3, 0⟩ = some x) ∧
      (threeLines.offset? ⟨2, 2⟩ = some 5 ∧ ¬threeLines.IsPastLineFeed ⟨2, 2⟩ ∧
        threeLines.position 5 = ⟨2, 2⟩) ∧
      threeLines.offset? ⟨0, 2⟩ = some 2 ∧ threeLines.IsPastLineFeed ⟨0, 2⟩ ∧
        threeLines.position 2 = ⟨1, 0⟩ := by
  have hsize : threeLines.source.size = 5 := by decide
  have hlines : threeLines.sourceLines = [[97], [], [98, 99]] := by decide
  have hplace : threeLines.HasPlace ⟨2, 2⟩ := by
    rw [HasPlace, hlines]
    exact ⟨by decide, by decide, [98, 99], rfl, by rw [lineLength, hlines]; decide⟩
  have hnone : ¬threeLines.HasPlace ⟨3, 0⟩ := by
    rw [HasPlace, hlines]
    rintro ⟨-, -, line, hl, -⟩
    cases hl
  have hlast : ¬threeLines.IsPastLineFeed ⟨2, 2⟩ := by
    rw [IsPastLineFeed, hlines]
    decide
  have hpast : threeLines.IsPastLineFeed ⟨0, 2⟩ := by
    rw [IsPastLineFeed, hlines]
    exact ⟨by decide, by decide, [97], rfl, rfl⟩
  obtain ⟨hoffsets, hbefore, hplaces, hback⟩ := position_offset? threeLines
  obtain ⟨hposition, hoffset⟩ := hoffsets 2 (by rw [hsize]; decide)
  have hend : threeLines.offset? ⟨2, 2⟩ = some 5 := by decide
  have hfeed : threeLines.offset? ⟨0, 2⟩ = some 2 := by decide
  exact ⟨⟨by rw [hsize]; decide, hposition.trans (by decide), hoffset⟩,
    ⟨by decide, by rw [hsize], hbefore 2 5 (by decide) (by rw [hsize])⟩,
    ⟨hplace, (hplaces _).2 hplace⟩, ⟨hnone, fun h => hnone ((hplaces _).1 h)⟩,
    ⟨hend, hlast, (hback _ _ hend).1 hlast⟩, hfeed, hpast, (hback _ _ hfeed).2 hpast⟩

end Document

end AppManifest
