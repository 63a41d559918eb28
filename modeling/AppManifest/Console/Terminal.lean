import AppManifest.Text.Blank

namespace AppManifest.Console

/-- What shows printed text. -/
structure Terminal where
  /-- The picture of what stands between two colons, if that names one. -/
  picture? : List Char → Option (List Char)
  /-- The number of cells that a text takes. -/
  cells : List Char → Nat
  /-- The number of cells of a line. -/
  width : Nat
  /-- The lines that a line without tabs comes to. -/
  fold : List Char → List (List Char)
  /-- Whether a stretch of a text, from one position to another, is still there when the text has
  been cut into lines. -/
  keeps : List Char → Nat → Nat → Bool
  /-- A table of rows under a header. -/
  table : List String → List (List String) → String

/-- The characters before the next colon and those after it; no blank may stand between. -/
def untilColon : List Char → Option (List Char × List Char)
  | [] => none
  | c :: rest =>
    if c = ':' then some ([], rest)
    else if Text.isBlank c then none
    else (untilColon rest).map fun (name, after) => (c :: name, after)

theorem length_untilColon {s name after : List Char} (h : untilColon s = some (name, after)) :
    after.length < s.length := by
  fun_induction untilColon s generalizing name with
  | case1 => contradiction
  | case2 rest =>
    cases h
    simp
  | case3 => contradiction
  | case4 c rest _ _ ih =>
    obtain ⟨⟨b, a⟩, hba, he⟩ := Option.map_eq_some_iff.1 h
    cases he
    exact Nat.lt_succ_of_lt (ih hba)

def linesOf (s : List Char) : List (List Char) :=
  Text.split (· = '\n') s

namespace Terminal

/-- The text with the names between colons replaced by their pictures. -/
def withPictures (T : Terminal) (s : List Char) : List Char :=
  match s with
  | [] => []
  | c :: rest =>
    if c = ':' then
      match h : untilColon rest with
      | some (name, after) =>
        have := length_untilColon h
        (T.picture? name).getD (':' :: name ++ [':']) ++ T.withPictures after
      | none => ':' :: T.withPictures rest
    else c :: T.withPictures rest
termination_by s.length

/-- Joins the pieces of a line between its tabs, from a column on. A tab is one space and as many
more as lead to the next column divisible by eight. -/
def joinTabbed (T : Terminal) (column : Nat) : List (List Char) → List Char
  | [] => []
  | [piece] => piece
  | piece :: pieces =>
    let stop := column + T.cells (piece ++ [' '])
    let next := (stop + 7) / 8 * 8
    piece ++ ' ' :: List.replicate (next - stop) ' ' ++ T.joinTabbed next pieces

def expandTabs (T : Terminal) (line : List Char) : List Char :=
  T.joinTabbed 0 (Text.split (· = '\t') line)

def layOut (T : Terminal) (s : List Char) : List Char :=
  ['\n'].intercalate ((linesOf s).flatMap fun line => T.fold (T.expandTabs line))

end Terminal

end AppManifest.Console
