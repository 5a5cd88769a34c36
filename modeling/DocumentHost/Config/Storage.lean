import DocumentHost.Config.Basic
import DocumentHost.Files.Tree

/-!
# Stored configurations

A configuration is stored as a written value spread over lines.  It is written
to a file beside its place first and then moved there, so that the place never
holds a part of it.
-/

namespace DocumentHost

/-- Why a configuration could not be loaded or stored. -/
inductive ConfigError where
  | unreadable (path : String) (reason : FileError)
  | malformed
  | temporaryFile (path : String) (reason : FileError)
  | contents (reason : FileError)
  | flush (reason : FileError)
  | rename (source target : String) (reason : FileError)
  | directory (path : String) (reason : FileError)
  | directoryFlush (reason : FileError)
deriving DecidableEq, Repr

namespace ConfigError

/-- The wording of a configuration error. -/
def message : ConfigError → String
  | .unreadable path _ => "Failed to read config: " ++ Text.quoted path
  | .malformed => "Failed to deserialize config"
  | .temporaryFile path _ => "Failed to create temp file: " ++ Text.quoted path
  | .contents _ => "Failed to write data"
  | .flush _ => "Failed to sync file"
  | .rename source target _ =>
      "Failed to rename " ++ Text.quoted source ++ " to " ++ Text.quoted target
  | .directory path _ => "Failed to open directory: " ++ Text.quoted path
  | .directoryFlush _ => "Failed to sync directory"

/-- The wordings of what lies below a configuration error. -/
def causes : ConfigError → List String
  | .unreadable _ reason | .temporaryFile _ reason | .contents reason | .flush reason
  | .rename _ _ reason | .directory _ reason | .directoryFlush reason => [reason.message]
  | .malformed => []

end ConfigError

/-- What a drive answers while a file is replaced.  It may refuse a step for reasons of its
own, also one that the tree would allow; unless more is said it refuses none. -/
structure Drive where
  creation : Option FileError := none
  /-- The number of bytes that are taken before the drive refuses the rest. -/
  contents : Option (Nat × FileError) := none
  flush : Option FileError := none
  move : Option FileError := none
  opening : Option FileError := none
  directoryFlush : Option FileError := none
deriving DecidableEq, Repr, Inhabited

/-- A step that the drive may refuse. -/
def Drive.allow {α : Type} (refusal : Option FileError) (step : Except FileError α) :
    Except FileError α :=
  match refusal with
  | some reason => .error reason
  | none => step

/-- What the drive takes of some bytes. -/
def Drive.taken (drive : Drive) (bytes : List UInt8) : List UInt8 :=
  match drive.contents with
  | some (count, _) => bytes.take count
  | none => bytes

namespace FileTree

/-- The configuration in a file. -/
def readConfig (tree : FileTree) (path : String) : Except ConfigError Configuration := do
  let bytes ← (tree.read path).mapError (ConfigError.unreadable path)
  match (Json.Node.ofBytes? bytes).bind Configuration.ofNode? with
  | some config => return config
  | none => throw .malformed

/-- Write a temporary file and flush it.  If the drive does not take all, what it has
taken stays. -/
def fillTemporary (tree : FileTree) (temporary : String) (bytes : List UInt8) (now : Instant)
    (drive : Drive) : Except ConfigError Unit × FileTree :=
  match Drive.allow drive.creation (tree.write temporary (drive.taken bytes) now) with
  | .error reason => (.error (.temporaryFile temporary reason), tree)
  | .ok written =>
      match drive.contents, drive.flush with
      | some (_, reason), _ => (.error (.contents reason), written)
      | none, some reason => (.error (.flush reason), written)
      | none, none => (.ok (), written)

/-- Move a temporary file to its place.  If it cannot be moved, it stays. -/
def moveTemporary (tree : FileTree) (temporary path : String) (drive : Drive) :
    Except ConfigError Unit × FileTree :=
  match Drive.allow drive.move (tree.rename temporary path) with
  | .error reason => (.error (.rename temporary path reason), tree)
  | .ok moved => (.ok (), moved)

/-- Flush the directory of a path, if the path names one. -/
def flushDirectory (tree : FileTree) (path : String) (drive : Drive) : Except ConfigError Unit :=
  let directory := Path.parent path
  if directory = "" then .ok ()
  else
    match Drive.allow drive.opening (tree.locate directory) with
    | .error reason => .error (.directory directory reason)
    | .ok _ =>
        match drive.directoryFlush with
        | some reason => .error (.directoryFlush reason)
        | none => .ok ()

/-- Write a file by way of a temporary file beside it.  What has been done before a step
fails stays done. -/
def replaceFile (tree : FileTree) (path : String) (bytes : List UInt8) (now : Instant)
    (drive : Drive := {}) : Except ConfigError Unit × FileTree :=
  let temporary := Path.withExtension path "tmp"
  match tree.fillTemporary temporary bytes now drive with
  | (.error error, left) => (.error error, left)
  | (.ok (), written) =>
      match written.moveTemporary temporary path drive with
      | (.error error, left) => (.error error, left)
      | (.ok (), moved) => (moved.flushDirectory path drive, moved)

/-- Store a configuration in a file. -/
def storeConfig (tree : FileTree) (path : String) (config : Configuration) (now : Instant)
    (drive : Drive := {}) : Except ConfigError Unit × FileTree :=
  tree.replaceFile path (Text.encode config.toValue.pretty) now drive

end FileTree

end DocumentHost
