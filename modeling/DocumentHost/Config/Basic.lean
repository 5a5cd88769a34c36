import DocumentHost.Files.Settings
import DocumentHost.Json.Printer
import DocumentHost.Options.Record

/-!
# Configuration

A configuration holds all that is needed to set up a host: how documents are
parsed, and where they are read from.  It is written as a record of records,
and every field that is not written has its default.
-/

namespace DocumentHost

open Json

/-- The name of the configuration file in the directory of the documents. -/
def configFileName : String := "tessera.json"

/-- The configuration of a host. -/
structure Configuration where
  parsing : CompileOptions := {}
  files : FileSettings := {}
deriving DecidableEq, Repr, Inhabited

namespace FileSettings

/-- The fields of the settings. -/
def fieldNames : List String :=
  ["base_path", "default_name", "pre_extension", "preferred_extension", "check_validity",
    "min_check_interval_ms"]

/-- The settings that a record writes. -/
def ofNode? (node : Node) : Option FileSettings := do
  let unset : FileSettings := {}
  match ← node.fields? fieldNames with
  | [basePath, defaultName, preExtension, preferredExtension, recheck, interval] =>
      return {
        basePath := ← Node.orDefault Node.text? unset.basePath basePath
        defaultName := ← Node.orDefault Node.text? unset.defaultName defaultName
        preExtension := ← Node.orDefault Node.optionalText? unset.preExtension preExtension
        preferredExtension :=
          ← Node.orDefault Node.optionalText? unset.preferredExtension preferredExtension
        recheck := ← Node.orDefault Node.bool? unset.recheck recheck
        minCheckInterval := ← Node.orDefault Node.natural? unset.minCheckInterval interval }
  | _ => none

/-- The record of the settings. -/
def toValue (settings : FileSettings) : Json :=
  .object [("base_path", .text settings.basePath), ("default_name", .text settings.defaultName),
    ("pre_extension", .ofOption settings.preExtension),
    ("preferred_extension", .ofOption settings.preferredExtension),
    ("check_validity", .bool settings.recheck),
    ("min_check_interval_ms", .integer settings.minCheckInterval)]

end FileSettings

namespace Configuration

/-- The fields of a configuration. -/
def fieldNames : List String := ["parsing", "files"]

/-- The configuration that a record writes. -/
def ofNode? (node : Node) : Option Configuration := do
  let unset : Configuration := {}
  match ← node.fields? fieldNames with
  | [parsing, files] =>
      return {
        parsing := ← Node.orDefault CompileOptions.ofNode? unset.parsing parsing
        files := ← Node.orDefault FileSettings.ofNode? unset.files files }
  | _ => none

/-- The record of a configuration. -/
def toValue (config : Configuration) : Json :=
  .object [("parsing", config.parsing.toValue), ("files", config.files.toValue)]

/-- The configuration of documents below a directory. -/
def ofRoot (root : String) : Configuration :=
  { files := { basePath := root } }

end Configuration

end DocumentHost
