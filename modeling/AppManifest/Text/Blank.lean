import AppManifest.Text.Range

namespace AppManifest.Text

/-- The spaces, tabs and line ends of the character standard. -/
def isSpace (c : Char) : Bool :=
  inRanges [(0x9, 0xD), (0x20, 0x20), (0x85, 0x85), (0xA0, 0xA0), (0x1680, 0x1680),
    (0x2000, 0x200A), (0x2028, 0x2029), (0x202F, 0x202F), (0x205F, 0x205F), (0x3000, 0x3000)] c

/-- The characters that separate words: the spaces and the four information separators. -/
def isBlank (c : Char) : Bool :=
  isSpace c || inRanges [(0x1C, 0x1F)] c

/-- The text without the leading and trailing characters of a class. -/
def trim (p : Char → Bool) (s : List Char) : List Char :=
  ((s.dropWhile p).reverse.dropWhile p).reverse

/-- Splits a list at every element of a class, which are dropped. -/
def split (p : α → Bool) : List α → List (List α)
  | [] => [[]]
  | c :: s =>
    if p c then [] :: split p s
    else match split p s with
      | [] => [[c]]
      | piece :: rest => (c :: piece) :: rest

theorem split_eq_splitOnP (p : α → Bool) (s : List α) : split p s = s.splitOnP p := by
  induction s with
  | nil => rfl
  | cons c s ih =>
    rw [split, List.splitOnP_cons_eq_if_modifyHead, ih]
    cases h : s.splitOnP p with
    | nil => exact absurd h (List.splitOnP_ne_nil p s)
    | cons piece rest => rfl

theorem of_mem_split {p : α → Bool} {s : List α} (h : piece ∈ split p s) :
    ∀ c ∈ piece, p c = false := by
  induction s generalizing piece with
  | nil =>
    obtain rfl := List.mem_singleton.1 h
    exact nofun
  | cons c s ih =>
    rw [split] at h
    split at h
    · rcases List.mem_cons.1 h with rfl | h
      · exact nofun
      · exact ih h
    next hc =>
      cases hs : split p s with
      | nil => exact absurd (split_eq_splitOnP p s ▸ hs) (List.splitOnP_ne_nil p s)
      | cons first rest =>
        rw [hs] at h ih
        rcases List.mem_cons.1 h with rfl | h
        · intro d hd
          rcases List.mem_cons.1 hd with rfl | hd
          · exact Bool.eq_false_iff.2 hc
          · exact ih List.mem_cons_self d hd
        · exact ih (List.mem_cons_of_mem _ h)

def words (s : List Char) : List (List Char) :=
  (split isBlank s).filter fun w => !w.isEmpty

end AppManifest.Text
