import AppManifest.Console.Cell
import AppManifest.Console.Terminal

namespace AppManifest.Console

def padTo (width : Nat) (s : String) : String :=
  String.ofList (s.toList ++ List.replicate (width - s.length) ' ')

def columnWidths (rows : List (List String)) : List Nat :=
  rows.foldl (fun widths row => (List.range (max widths.length row.length)).map fun i =>
    max (widths.getD i 0) ((row.getD i "").length)) []

def tableRow (line : String) (widths : List Nat) (row : List String) : String :=
  line ++ line.intercalate ((widths.zip row).map fun (w, cell) => " " ++ padTo w cell ++ " ")
    ++ line ++ "\n"

/-- A rule across a table, from its left end over its crossings to its right end. -/
def tableRule (left cross right line : String) (widths : List Nat) : String :=
  left ++ cross.intercalate (widths.map fun w => String.join (List.replicate (w + 2) line))
    ++ right ++ "\n"

def printTable (header : List String) (rows : List (List String)) : String :=
  let widths := columnWidths (header :: rows)
  tableRule "┏" "┳" "┓" "━" widths ++ tableRow "┃" widths header
    ++ tableRule "┡" "╇" "┩" "━" widths ++ String.join (rows.map (tableRow "│" widths))
    ++ tableRule "└" "┴" "┘" "─" widths

/-- Whether a line has room in some columns: it takes no more cells, and no blanks at its end stand
beyond as many characters. -/
def hasRoom (columns : Nat) (line : List Char) : Bool :=
  cellCount none line ≤ columns && (line.length ≤ columns || !line.getLast?.any Text.isBlank)

/-- Cuts what follows the beginning of a line wherever the next character has no room. -/
def cut (columns : Nat) (line : List Char) : List Char → List (List Char)
  | [] => [line]
  | c :: rest =>
    if line.isEmpty || hasRoom columns (line ++ [c]) then cut columns (line ++ [c]) rest
    else line :: cut columns [c] rest

/-- A terminal of some columns that has no pictures, and cuts long lines anywhere. -/
def Terminal.plain (columns : Nat) : Terminal where
  picture? _ := none
  cells := cellCount none
  width := columns
  fold line := if hasRoom columns line then [line] else cut columns [] line
  keeps text start stop :=
    let covered := (text.drop start).take (stop - start)
    if text.contains '\n' then covered.any (· != '\n')
    else !text.contains '\t' || !covered.isEmpty
  table := printTable

end AppManifest.Console
