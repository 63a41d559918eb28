import AppManifest.Text.Blank
import AppManifest.Text.WidthTable

namespace AppManifest.Console

def cellWidth (c : Char) : Nat :=
  if 0x20 ≤ c.toNat && c.toNat < 0x7F then 1
  else if Text.inRanges Text.zeroWidth c then 0
  else if Text.inRanges Text.wide c then 2
  else 1

/-- Makes one picture of the characters before and after it. -/
def joiner : Char := '\u200d'

/-- Asks for the picture of the character before it. -/
def pictureSelector : Char := '\ufe0f'

/-- The number of cells that a text takes after a character that took some. What follows a joiner
takes none, and a selected picture may take one cell more than its character. -/
def cellCount (before : Option Char) : List Char → Nat
  | [] => 0
  | c :: rest =>
    if c = joiner then
      match rest with
      | [] => 0
      | _ :: rest => cellCount before rest
    else if c = pictureSelector then
      (if before.any (Text.inRanges Text.pictureWide) then 1 else 0) + cellCount none rest
    else if cellWidth c = 0 then cellCount before rest
    else cellWidth c + cellCount (some c) rest

end AppManifest.Console
