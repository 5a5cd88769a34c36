/-!
# Values

The values that documents compute with: the data model of JSON.  Integers are
kept apart from floating point numbers, and an object keeps its members in the
order of their names.
-/

namespace DocumentHost

/-- A value. -/
inductive Json where
  | null
  | bool (value : Bool)
  | integer (value : Int)
  | float (value : Float)
  | text (value : String)
  | array (items : List Json)
  | object (members : List (String × Json))
deriving Inhabited

namespace Json

/-- Put a member in its place; it replaces a member of its name. -/
def placeMember (name : String) (value : Json) : List (String × Json) → List (String × Json)
  | [] => [(name, value)]
  | (known, held) :: rest =>
      if name = known then (name, value) :: rest
      else if name < known then (name, value) :: (known, held) :: rest
      else (known, held) :: placeMember name value rest

/-- The object of a list of members.  A later member replaces an earlier one of
its name. -/
def ofMembers (members : List (String × Json)) : Json :=
  .object (members.foldl (fun placed member => placeMember member.1 member.2 placed) [])

/-- A text, or null. -/
def ofOption (text : Option String) : Json :=
  text.elim .null .text

/-- The range of the integers that take part in exact addition. -/
def inIntegerRange (value : Int) : Bool :=
  -9223372036854775808 ≤ value && value ≤ 9223372036854775807

/-- The integer of a value, if it is one within 64 bits with sign. -/
def integer? : Json → Option Int
  | .integer value => if inIntegerRange value then some value else none
  | _ => none

end Json

end DocumentHost
