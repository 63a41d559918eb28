import AppManifest.Syntax.Tree

namespace AppManifest

/-- What keeps an archive entry from being read. -/
inductive Defect
  | checksum
  | encrypted
  | method
  /-- The header before the data is not the one that the archive lists. -/
  | header (message : String)
  /-- The data cannot be read to their end, by a failure that commands report or not. -/
  | damage (reported : Bool) (message : String)
  deriving DecidableEq, Repr

structure ArchiveEntry where
  name : String
  /-- What can be read of the entry before its defect shows. -/
  data : ByteArray
  defect : Option Defect := none

/-- What the libraries of the host make of the bytes of a file. -/
structure Host where
  /-- The syntax tree of a source. -/
  parse : ByteArray → Tree
  /-- The entries of an archive, in archive order, or why its list of them cannot be read; none for
  bytes that are no archive. -/
  entries? : ByteArray → Option (Except String (List ArchiveEntry))

inductive FileObject
  | directory
  | file (data : ByteArray)

/-- A place in a file tree: the components from the root down. -/
abbrev Place := List String

/-- A file tree without links; the root is always there. -/
structure FileTree where
  objects : List (Place × FileObject)

inductive Refusal
  | notFound
  | fileExists
  | notADirectory
  | isADirectory
  | nameTooLong
  deriving DecidableEq, Repr

namespace FileTree

def empty : FileTree := ⟨[]⟩

def get? (t : FileTree) (p : Place) : Option FileObject :=
  if p = [] then some .directory else t.objects.lookup p

def insert (t : FileTree) (p : Place) (o : FileObject) : FileTree :=
  ⟨(p, o) :: t.objects.filter fun e => e.1 != p⟩

/-- Makes the places above one directories, where nothing stands there yet. -/
def openPath (t : FileTree) (p : Place) : FileTree :=
  (List.range p.length).foldl (fun t n =>
    if (t.get? (p.take n)).isSome then t else t.insert (p.take n) .directory) t

def isDirectory (t : FileTree) (p : Place) : Bool :=
  match t.get? p with
  | some .directory => true
  | _ => false

/-- The number of bytes that a component of a path may have. -/
def componentLimit : Nat := 255

/-- The place that components lead to. Every place on the way must be a directory. -/
def walk (t : FileTree) (p : Place) : List String → Except Refusal Place
  | [] => .ok p
  | c :: rest =>
    match t.get? p with
    | none => .error .notFound
    | some (.file _) => .error .notADirectory
    | some .directory =>
      if c = "." then t.walk p rest
      else if c = ".." then t.walk p.dropLast rest
      else if componentLimit < c.utf8ByteSize then .error .nameTooLong
      else t.walk (p ++ [c]) rest

end FileTree

end AppManifest
