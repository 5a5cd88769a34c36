import DocumentHost.Files.Settings
import DocumentHost.Files.Tree

/-!
# From names to files

A document name is a path below the base directory.  A name that leads to a
directory stands for the default file in it, and a name that leads nowhere for
a file beside it that has the name and an extension.  Among several files the
preferred extension wins, then the order of the names.
-/

namespace DocumentHost

/-- The name without slashes in front. -/
def relativeName (name : String) : String :=
  String.ofList (name.toList.dropWhile (· = '/'))

/-- The first file of a directory whose name starts in a given way, those with the
preferred extension before others. -/
def candidate? (settings : FileSettings) (tree : FileTree) (directory start : String) :
    Option String :=
  match tree.list directory with
  | .error _ => none
  | .ok names =>
      let paths := (names.filter fun name => start.toList.isPrefixOf name.toList).map
        (Path.join directory)
      let files := paths.filter tree.isFile
      let preferred :=
        match settings.preferredExtension with
        | some extension => files.find? fun path => Path.extension? path = some extension
        | none => none
      preferred.or files.head?

/-- The file that a name stands for. -/
def resolve? (settings : FileSettings) (tree : FileTree) (name : String) : Option String :=
  let relative := relativeName name
  if (Path.pieces relative).contains ".." then none
  else
    let path := Path.join settings.basePath relative
    if tree.isDirectory path then
      let extension :=
        match settings.preExtension with
        | some extension => extension ++ "."
        | none => ""
      candidate? settings tree path (settings.defaultName ++ "." ++ extension)
    else if tree.isFile path then some path
    else
      match Path.fileName? path with
      | some base => candidate? settings tree (Path.parent path) (base ++ ".")
      | none => none

/-- The component lists of all files below a directory. -/
def filesBelow (tree : FileTree) (components : List String) : List (List String) :=
  tree.entries.filterMap fun (known, entry) =>
    match entry with
    | .file _ _ =>
        if components.isPrefixOf known then some (known.drop components.length) else none
    | .directory _ => none

/-- The names of all documents below the base directory, in whatever order the tree has
its entries. -/
def documentNames (settings : FileSettings) (tree : FileTree) :
    Except FileError (List String) := do
  let components ← tree.locate settings.basePath
  if !tree.isDirectoryAt components then throw .notDirectory
  return (filesBelow tree components).map (String.intercalate "/")

end DocumentHost
