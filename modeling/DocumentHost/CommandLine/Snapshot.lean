import DocumentHost.Files.Tree
import DocumentHost.Json.Printer
import DocumentHost.Json.Reader

/-!
# Snapshots of file trees

A snapshot writes a file tree as one object that has the text of each file
under its path.  The difference of two trees is the snapshot of what is new or
has another content.
-/

namespace DocumentHost.CommandLine

/-- The bytes and path of each file of a list of members, none if a member is no
text. -/
def snapshotFiles? : List (String × Json) → Option (List (String × List UInt8))
  | [] => some []
  | (path, .text text) :: rest =>
      (snapshotFiles? rest).map fun files => (path, Text.encode text) :: files
  | _ :: _ => none

/-- The file tree of a written snapshot.  All of it counts as modified at one time. -/
def treeOfSnapshot? (modified : Instant) (text : String) : Option FileTree := do
  match ← Json.parse? text with
  | .object members =>
      let files ← snapshotFiles? members
      return files.foldl
        (fun tree file => tree.putFile file.1 file.2 modified modified) {}
  | _ => none

/-- The files of a tree that are not in another tree with the same content. -/
def changedFiles (before after : FileTree) : List (String × List UInt8) :=
  let known := before.files
  after.files.filter fun file => !known.contains file

/-- The snapshot of some files.  Bytes that are no text are shown as replacement
characters. -/
def snapshotOf (files : List (String × List UInt8)) : Json :=
  Json.ofMembers (files.map fun file => (file.1, .text (Text.decodeLossy file.2)))

end DocumentHost.CommandLine
