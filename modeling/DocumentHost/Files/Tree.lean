import DocumentHost.Error
import DocumentHost.Files.Path
import DocumentHost.Instant

/-!
# File trees

The files and directories below a root, among them the working directory.  Every
file has a time of modification.  A path is followed piece by piece, from the root
if it begins with a slash and from the working directory otherwise.
-/

namespace DocumentHost

/-- What a name in a directory stands for. -/
inductive FileEntry where
  | file (bytes : List UInt8) (modified : Instant)
  | directory (modified : Instant)
deriving DecidableEq, Repr, Inhabited

/-- When an entry was last modified. -/
def FileEntry.modified : FileEntry → Instant
  | .file _ modified => modified
  | .directory modified => modified

/-- Files and directories under their component lists, and the component list of the
working directory.  The root itself has no entry.  Unless more is said, there is
nothing but a working directory. -/
structure FileTree where
  working : List String := ["work"]
  entries : List (List String × FileEntry) := [(["work"], .directory ⟨0⟩)]
deriving DecidableEq, Repr, Inhabited

namespace FileTree

/-- The entry of a component list. -/
def find? (tree : FileTree) (components : List String) : Option FileEntry :=
  tree.entries.lookup components

/-- Whether a component list is a directory. -/
def isDirectoryAt (tree : FileTree) (components : List String) : Bool :=
  components.isEmpty ||
    match tree.find? components with
    | some (.directory _) => true
    | _ => false

/-- The most bytes of a name in a directory. -/
def nameLimit : Nat := 255

/-- The most bytes of a path. -/
def pathLimit : Nat := 4095

/-- Whether a piece leads to a directory whatever the tree holds. -/
def isPlace (piece : String) : Bool :=
  Path.isTrivial piece || piece = ".."

/-- Refuse a path that leads nowhere whatever the tree holds. -/
def ensureUsable (path : String) : Except FileError Unit :=
  if path.toList.contains '\x00' then .error .nullCharacter
  else if pathLimit < path.utf8ByteSize then .error .nameTooLong
  else if path = "" then .error .notFound
  else .ok ()

/-- Refuse a name that no directory can hold. -/
def ensureShort (name : String) : Except FileError Unit :=
  if nameLimit < name.utf8ByteSize then .error .nameTooLong else .ok ()

/-- Where a path starts: one that begins with a slash at the root, any other in the
working directory. -/
def start (tree : FileTree) (path : String) : List String :=
  if path.startsWith "/" then [] else tree.working

/-- Follow pieces from a place in the tree.  Above the root there is the root. -/
def follow (tree : FileTree) : List String → List String → Except FileError (List String)
  | current, [] => .ok current
  | current, piece :: rest =>
      if !tree.isDirectoryAt current then .error .notDirectory
      else if Path.isTrivial piece then tree.follow current rest
      else if piece = ".." then tree.follow current.dropLast rest
      else do
        ensureShort piece
        let next := current ++ [piece]
        if (tree.find? next).isSome then tree.follow next rest else .error .notFound

/-- The components that a path leads to. -/
def locate (tree : FileTree) (path : String) : Except FileError (List String) := do
  ensureUsable path
  tree.follow (tree.start path) (Path.pieces path)

/-- Whether a path leads to a directory. -/
def isDirectory (tree : FileTree) (path : String) : Bool :=
  match tree.locate path with
  | .ok components => tree.isDirectoryAt components
  | .error _ => false

/-- Whether a path leads to a file. -/
def isFile (tree : FileTree) (path : String) : Bool :=
  match tree.locate path with
  | .ok components => !tree.isDirectoryAt components
  | .error _ => false

/-- Whether a path leads anywhere. -/
def exists? (tree : FileTree) (path : String) : Bool :=
  match tree.locate path with
  | .ok _ => true
  | .error _ => false

/-- When the entry that a path leads to was last modified.  The root counts as modified
at the beginning of time. -/
def modified (tree : FileTree) (path : String) : Except FileError Instant := do
  let components ← tree.locate path
  return (tree.find? components).elim ⟨0⟩ FileEntry.modified

/-- The bytes of the file that a path leads to. -/
def read (tree : FileTree) (path : String) : Except FileError (List UInt8) := do
  let components ← tree.locate path
  match tree.find? components with
  | some (.file bytes _) => return bytes
  | _ => throw .isDirectory

/-- The text of the file that a path leads to. -/
def readText (tree : FileTree) (path : String) : Except FileError String := do
  match Text.decode? (← tree.read path) with
  | some text => return text
  | none => throw .invalidText

/-- The names in the directory that a path leads to, in order. -/
def list (tree : FileTree) (path : String) : Except FileError (List String) := do
  let components ← tree.locate path
  if !tree.isDirectoryAt components then throw .notDirectory
  let names := tree.entries.filterMap fun (known, _) =>
    if known.length = components.length + 1 && known.take components.length = components then
      known.getLast?
    else none
  return names.mergeSort fun first second => decide (first ≤ second)

/-- Put an entry under a component list. -/
def put (tree : FileTree) (components : List String) (entry : FileEntry) : FileTree :=
  { tree with
    entries := tree.entries.filter (fun known => known.1 ≠ components) ++ [(components, entry)] }

/-- Remove the entry of a component list and all entries below it. -/
def removeAt (tree : FileTree) (components : List String) : FileTree :=
  { tree with entries := tree.entries.filter fun known => !components.isPrefixOf known.1 }

/-- Remove what a path leads to and all below it.  The working directory and those above
it stay. -/
def delete (tree : FileTree) (path : String) : FileTree :=
  match tree.locate path with
  | .ok components =>
      { tree with entries := tree.entries.filter fun known =>
          !components.isPrefixOf known.1 || known.1.isPrefixOf tree.working }
  | .error _ => tree

/-- Make the directories that pieces lead through from a place in the tree, as far as
they are missing.  A file in the way ends it. -/
def makeAlong (now : Instant) : List String → List String → FileTree → FileTree
  | _, [], tree => tree
  | current, piece :: rest, tree =>
      let next := current ++ [piece]
      if Path.isTrivial piece then makeAlong now current rest tree
      else if piece = ".." then makeAlong now current.dropLast rest tree
      else if nameLimit < piece.utf8ByteSize then tree
      else
        match tree.find? next with
        | some (.directory _) => makeAlong now next rest tree
        | some (.file _ _) => tree
        | none => makeAlong now next rest (tree.put next (.directory now))

/-- Make a directory and those above it, as far as they are missing.  A directory is
not made under the name of a dot. -/
def makeDirectory (tree : FileTree) (path : String) (now : Instant) : FileTree :=
  if (ensureUsable path).isOk then
    let named :=
      if ((Path.pieces path).filter (· != "")).getLast? = some "." then Path.parent path
      else path
    tree.makeAlong now (tree.start path) (Path.pieces named)
  else tree

/-- The directory that a path leads to up to its last piece, and that piece. -/
def locateParent (tree : FileTree) (path : String) :
    Except FileError (List String × String) := do
  ensureUsable path
  let parts := ((Path.pieces path).reverse.dropWhile (· = "")).reverse
  let directory ← tree.follow (tree.start path) parts.dropLast
  if !tree.isDirectoryAt directory then throw .notDirectory
  return (directory, parts.getLastD "")

/-- The components of a name in a directory, unless it is that of a directory. -/
def locateFile (tree : FileTree) (directory : List String) (name : String) :
    Except FileError (List String) :=
  if tree.isDirectoryAt (directory ++ [name]) then .error .isDirectory
  else .ok (directory ++ [name])

/-- Write a file, making or replacing it, with a time of modification. -/
def write (tree : FileTree) (path : String) (bytes : List UInt8) (modified : Instant) :
    Except FileError FileTree := do
  let (directory, name) ← tree.locateParent path
  if isPlace name || path.endsWith "/" then throw .isDirectory
  ensureShort name
  let components ← tree.locateFile directory name
  return tree.put components (.file bytes modified)

/-- Put a file in its place, with the directories above it, as far as that can be
done. -/
def putFile (tree : FileTree) (path : String) (bytes : List UInt8) (modified now : Instant) :
    FileTree :=
  let prepared := tree.makeDirectory (Path.parent path) now
  match prepared.write path bytes modified with
  | .ok written => written
  | .error _ => prepared

/-- Set the time of modification of the file that a path leads to. -/
def setModified (tree : FileTree) (path : String) (modified : Instant) : FileTree :=
  match tree.locate path with
  | .error _ => tree
  | .ok components =>
      match tree.find? components with
      | some (.file bytes _) => tree.put components (.file bytes modified)
      | _ => tree

/-- Move a file to another path.  A directory is not replaced, and a path that ends
with a slash is no place for a file. -/
def rename (tree : FileTree) (source target : String) : Except FileError FileTree := do
  let components ← tree.locate source
  let entry ← (match tree.find? components with
    | some entry => .ok entry
    | none => .error .notFound)
  let (directory, name) ← tree.locateParent target
  if isPlace name then throw .busy
  ensureShort name
  if target.endsWith "/" then throw .notDirectory
  let place ← tree.locateFile directory name
  if place = components then return tree
  return (tree.removeAt components).put place entry

/-- All files below the working directory with their paths, in order. -/
def files (tree : FileTree) : List (String × List UInt8) :=
  let found := tree.entries.filterMap fun (components, entry) =>
    match entry with
    | .file bytes _ =>
        if tree.working.isPrefixOf components then
          some (String.intercalate "/" (components.drop tree.working.length), bytes)
        else none
    | .directory _ => none
  found.mergeSort fun first second => decide (first.1 ≤ second.1)

theorem lookup_filter_append (components other : List String) (entry : FileEntry)
    (entries : List (List String × FileEntry)) :
    (entries.filter (fun known => decide (known.1 ≠ components)) ++
        [(components, entry)]).lookup other =
      if other = components then some entry else entries.lookup other := by
  induction entries with
  | nil =>
      by_cases same : other = components
      · simp [same]
      · simp [List.lookup_cons, same, beq_false_of_ne same]
  | cons known rest ih =>
      obtain ⟨place, held⟩ := known
      by_cases replaced : place = components
      · subst replaced
        by_cases same : other = place
        · simpa [same] using ih
        · simp [List.lookup_cons, same, beq_false_of_ne same] at ih ⊢
          exact ih
      · by_cases here : other = place
        · subst here
          simp [replaced]
        · simp [List.lookup_cons, replaced, beq_false_of_ne here] at ih ⊢
          exact ih

@[simp]
theorem find?_put_self (tree : FileTree) (components : List String) (entry : FileEntry) :
    (tree.put components entry).find? components = some entry := by
  simpa [find?, put] using lookup_filter_append components components entry tree.entries

theorem find?_put_of_ne (tree : FileTree) {components other : List String} (entry : FileEntry)
    (differs : other ≠ components) :
    (tree.put components entry).find? other = tree.find? other := by
  simpa [find?, put, differs] using lookup_filter_append components other entry tree.entries

theorem lookup_filter_of_keep (keep : List String → Bool) (other : List String)
    (kept : keep other = true) (entries : List (List String × FileEntry)) :
    (entries.filter fun known => keep known.1).lookup other = entries.lookup other := by
  induction entries with
  | nil => rfl
  | cons known rest ih =>
      obtain ⟨place, held⟩ := known
      by_cases here : other = place
      · subst here
        simp [kept]
      · cases remains : keep place <;> simp [List.lookup_cons, remains, beq_false_of_ne here, ih]

theorem find?_removeAt_of_outside (tree : FileTree) {components other : List String}
    (outside : components.isPrefixOf other = false) :
    (tree.removeAt components).find? other = tree.find? other := by
  simpa [find?, removeAt] using
    lookup_filter_of_keep (fun place => !components.isPrefixOf place) other
      (by simp [outside]) tree.entries

end FileTree

end DocumentHost
