namespace AppManifest.Text

/-- Whether a character lies in one of the listed closed ranges of code points. -/
def inRanges (ranges : List (Nat × Nat)) (c : Char) : Bool :=
  ranges.any fun r => r.1 ≤ c.toNat && c.toNat ≤ r.2

end AppManifest.Text
