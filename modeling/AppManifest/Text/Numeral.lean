namespace AppManifest.Text

/-- The number of digits that a numeral may have. -/
def maxDigits : Nat := 4300

/-- One or more ASCII digits and nothing else. -/
def isNumeral (s : List Char) : Bool :=
  !s.isEmpty && s.all Char.isDigit

def numeralValue (digits : List Char) : Nat :=
  digits.foldl (fun n c => 10 * n + (c.toNat - '0'.toNat)) 0

end AppManifest.Text
