/-!
# Paths

A path is a text whose components are separated by slashes.  Empty components
and dots name the directory they stand in; they are passed over when a path is
taken apart, but a path is written as it was put together.
-/

namespace DocumentHost.Path

/-- The pieces of a path between its slashes. -/
def pieces (path : String) : List String :=
  path.splitOn "/"

/-- A piece that names the directory it stands in. -/
def isTrivial (piece : String) : Bool :=
  piece = "" || piece = "."

/-- The path of a relative path seen from a directory.  A path that starts with a
slash is seen from nowhere but the root. -/
def join (directory relative : String) : String :=
  if relative.startsWith "/" || directory = "" then relative
  else if directory.endsWith "/" then directory ++ relative
  else directory ++ "/" ++ relative

/-- The pieces without the trivial ones at the end. -/
def trimmed (parts : List String) : List String :=
  (parts.reverse.dropWhile isTrivial).reverse

/-- The last component, if it is a proper name. -/
def fileName? (path : String) : Option String :=
  match (trimmed (pieces path)).getLast? with
  | some name => if name = ".." then none else some name
  | none => none

/-- The pieces without the trivial ones at the end, except the very first. -/
def trimmedBehindFirst : List String → List String
  | [] => []
  | first :: rest =>
      match trimmed rest with
      | [] => [first]
      | kept => first :: kept

/-- The directory in front of the last component. -/
def parent (path : String) : String :=
  match trimmedBehindFirst (trimmed (pieces path)).dropLast with
  | [""] => "/"
  | parts => String.intercalate "/" parts

/-- The parts of a file name before and behind its last dot.  A dot at the very
start belongs to the name. -/
def splitExtension (name : String) : String × Option String :=
  let reversed := name.toList.reverse
  let extension := (reversed.takeWhile (· != '.')).reverse
  let front := (reversed.dropWhile (· != '.')).drop 1
  if front.isEmpty then (name, none)
  else (String.ofList front.reverse, some (String.ofList extension))

/-- The extension of the last component. -/
def extension? (path : String) : Option String :=
  (fileName? path).bind fun name => (splitExtension name).2

/-- The path without as many characters at its end as its extension has.  The dot in
front of the extension stays. -/
def withoutExtension (path : String) : String :=
  let extension := (extension? path).getD ""
  String.ofList (path.toList.take (path.length - extension.length))

/-- The path with another extension, put behind what is left without the one it has.
If that has no file name it stays as it is: a name with nothing but one more dot in
front of its extension leaves the two dots of the directory above. -/
def withExtension (path extension : String) : String :=
  let bare := withoutExtension path
  match fileName? bare with
  | none => bare
  | some name =>
      String.intercalate "/"
        ((trimmed (pieces bare)).dropLast ++ [(splitExtension name).1 ++ "." ++ extension])

end DocumentHost.Path
