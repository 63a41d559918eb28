import AppManifest.Number.Binary64

namespace AppManifest

/-- A JSON value; an object keeps the order of its members. -/
inductive Json
  | null
  | bool (value : Bool)
  | int (value : Int)
  /-- A number written with a fraction or an exponent. -/
  | decimal (value : Decimal)
  | infinity (negative : Bool)
  | notANumber
  | str (value : String)
  | arr (items : List Json)
  | obj (members : List (String × Json))
  deriving Inhabited

namespace Json

/-- The member of an object under a key; other values have no members. -/
def member? (key : String) : Json → Option Json
  | .obj members => members.lookup key
  | _ => none

end Json

end AppManifest
