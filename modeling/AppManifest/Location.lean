namespace AppManifest

/-- A place in a text: a line and a byte offset in it, both counted from zero. -/
structure LinePosition where
  line : Int
  offset : Int
  deriving DecidableEq, Repr

structure LineRange where
  start : LinePosition
  stop : LinePosition
  deriving DecidableEq, Repr

/-- A stretch of the document at a path, by lines and by byte offsets. -/
structure SourceLocation where
  path : String
  lines : LineRange
  startByte : Int
  endByte : Int
  deriving DecidableEq, Repr

/-- The path and the place of the first character, counted from one. -/
def SourceLocation.text (l : SourceLocation) : String :=
  l.path ++ ":" ++ toString (l.lines.start.line + 1) ++ ":" ++ toString (l.lines.start.offset + 1)

end AppManifest
