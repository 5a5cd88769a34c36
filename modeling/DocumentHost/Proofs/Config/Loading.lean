import DocumentHost.Options.Key
import DocumentHost.Proofs.Config.Storing
import DocumentHost.Proofs.Json.Editions

/-!
# What is loaded of a configuration

A configuration that has been stored is loaded as it was.  Its file can be edited before: in
whatever order the fields stand, whatever has been added, the fields that are still there are
loaded as they were, and those that have been dropped have their defaults.
-/

namespace DocumentHost

open Json

/-- What is left of a configuration when fields are dropped, which are named by their paths. -/
def Markers.without (dropped : List (List String)) (path : List String) (markers : Markers) :
    Markers :=
  let unset : Markers := {}
  { comment := kept dropped (path ++ ["comment"]) markers.comment unset.comment
    expression := kept dropped (path ++ ["expression"]) markers.expression unset.expression
    documentInclude :=
      kept dropped (path ++ ["include"]) markers.documentInclude unset.documentInclude
    inFlow := kept dropped (path ++ ["in_flow"]) markers.inFlow unset.inFlow }

/-- The options without the fields that have been dropped. -/
def CompileOptions.without (dropped : List (List String)) (path : List String)
    (options : CompileOptions) : CompileOptions :=
  let unset : CompileOptions := {}
  { parser := kept dropped (path ++ ["parser"]) options.parser unset.parser
    includeParser :=
      kept dropped (path ++ ["include_parser"]) options.includeParser unset.includeParser
    defaultTag :=
      kept dropped (path ++ ["default_language_tag"]) options.defaultTag unset.defaultTag
    prepare := kept dropped (path ++ ["prepare"]) options.prepare unset.prepare
    delimiters := kept dropped (path ++ ["delimiters"]) options.delimiters unset.delimiters
    markers :=
      kept dropped (path ++ ["markers"]) (options.markers.without dropped (path ++ ["markers"]))
        unset.markers
    containerService :=
      kept dropped (path ++ ["container_service_name"]) options.containerService
        unset.containerService }

/-- The settings without the fields that have been dropped. -/
def FileSettings.without (dropped : List (List String)) (path : List String)
    (settings : FileSettings) : FileSettings :=
  let unset : FileSettings := {}
  { basePath := kept dropped (path ++ ["base_path"]) settings.basePath unset.basePath
    defaultName := kept dropped (path ++ ["default_name"]) settings.defaultName unset.defaultName
    preExtension :=
      kept dropped (path ++ ["pre_extension"]) settings.preExtension unset.preExtension
    preferredExtension :=
      kept dropped (path ++ ["preferred_extension"]) settings.preferredExtension
        unset.preferredExtension
    recheck := kept dropped (path ++ ["check_validity"]) settings.recheck unset.recheck
    minCheckInterval :=
      kept dropped (path ++ ["min_check_interval_ms"]) settings.minCheckInterval
        unset.minCheckInterval }

/-- The configuration without the fields that have been dropped. -/
def Configuration.without (dropped : List (List String)) (config : Configuration) :
    Configuration :=
  let unset : Configuration := {}
  { parsing := kept dropped ["parsing"] (config.parsing.without dropped ["parsing"]) unset.parsing
    files := kept dropped ["files"] (config.files.without dropped ["files"]) unset.files }

/-- The paths of the fields that have defaults. -/
def Configuration.optionalPaths : List (List String) :=
  fieldNames.map (fun name => [name]) ++
    CompileOptions.fieldNames.map (fun name => ["parsing", name]) ++
    Markers.fieldNames.map (fun name => ["parsing", "markers", name]) ++
    FileSettings.fieldNames.map (fun name => ["files", name])

variable {dropped : List (List String)} {path : List String} {node : Node}

namespace Delimiters

/-- A pair is read from its edition, of which neither side can have been dropped. -/
theorem ofNode?_edition {pair : Delimiters} (opening : path ++ ["start"] ∉ dropped)
    (closing : path ++ ["end"] ∉ dropped) (edition : Edition dropped path pair.toValue node) :
    ofNode? node = some pair := by
  obtain ⟨fields, areFields, editions⟩ := edition.fields?
  change node.fields? fieldNames = some fields at areFields
  cases editions with | cons first editions =>
  cases editions with | cons second editions =>
  cases editions
  cases first with
  | drop isDropped => exact absurd isDropped opening
  | keep _ first =>
      cases second with
      | drop isDropped => exact absurd isDropped closing
      | keep _ second =>
          rw [ofNode?, areFields]
          simp [first.text?, second.text?]

end Delimiters

theorem Markers.ofNode?_edition {markers : Markers}
    (edition : Edition dropped path markers.toValue node) :
    ofNode? node = some (markers.without dropped path) := by
  obtain ⟨fields, areFields, editions⟩ := edition.fields?
  change node.fields? fieldNames = some fields at areFields
  cases editions with | cons comment editions =>
  cases editions with | cons expression editions =>
  cases editions with | cons documentInclude editions =>
  cases editions with | cons inFlow editions =>
  cases editions
  rw [ofNode?, areFields]
  simp only [Option.bind_eq_bind, Option.bind_some,
    comment.orDefault fun _ => Edition.text?, expression.orDefault fun _ => Edition.text?,
    documentInclude.orDefault fun _ => Edition.text?, inFlow.orDefault fun _ => Edition.text?]
  rfl

theorem CompileOptions.ofNode?_edition {options : CompileOptions}
    (opening : path ++ ["delimiters"] ++ ["start"] ∉ dropped)
    (closing : path ++ ["delimiters"] ++ ["end"] ∉ dropped)
    (edition : Edition dropped path options.toValue node) :
    ofNode? node = some (options.without dropped path) := by
  obtain ⟨fields, areFields, editions⟩ := edition.fields?
  change node.fields? fieldNames = some fields at areFields
  cases editions with | cons parser editions =>
  cases editions with | cons includeParser editions =>
  cases editions with | cons defaultTag editions =>
  cases editions with | cons prepare editions =>
  cases editions with | cons delimiters editions =>
  cases editions with | cons markers editions =>
  cases editions with | cons containerService editions =>
  cases editions
  have pairs {inner : Node} (edition : Edition dropped (path ++ ["delimiters"])
      (.array (options.delimiters.map Delimiters.toValue)) inner) :
      inner.list? Delimiters.ofNode? = some options.delimiters :=
    edition.list? fun _ _ => Delimiters.ofNode?_edition opening closing
  rw [ofNode?, areFields]
  simp only [Option.bind_eq_bind, Option.bind_some, ofFields?,
    parser.orDefault fun _ => Edition.text?, includeParser.orDefault fun _ => Edition.text?,
    defaultTag.orDefault fun _ => Edition.optionalText?, prepare.orDefault fun _ => Edition.bool?,
    delimiters.orDefault fun _ => pairs, markers.orDefault fun _ => Markers.ofNode?_edition,
    containerService.orDefault fun _ => Edition.text?]
  rfl

theorem FileSettings.ofNode?_edition {settings : FileSettings}
    (edition : Edition dropped path settings.toValue node) :
    ofNode? node = some (settings.without dropped path) := by
  obtain ⟨fields, areFields, editions⟩ := edition.fields?
  change node.fields? fieldNames = some fields at areFields
  cases editions with | cons basePath editions =>
  cases editions with | cons defaultName editions =>
  cases editions with | cons preExtension editions =>
  cases editions with | cons preferredExtension editions =>
  cases editions with | cons recheck editions =>
  cases editions with | cons interval editions =>
  cases editions
  rw [ofNode?, areFields]
  simp only [Option.bind_eq_bind, Option.bind_some,
    basePath.orDefault fun _ => Edition.text?, defaultName.orDefault fun _ => Edition.text?,
    preExtension.orDefault fun _ => Edition.optionalText?,
    preferredExtension.orDefault fun _ => Edition.optionalText?,
    recheck.orDefault fun _ => Edition.bool?, interval.orDefault fun _ => Edition.natural?]
  rfl

theorem regular_ofOption (text : Option String) : Regular (.ofOption text) := by
  cases text <;> trivial

theorem Delimiters.regular_toValue (pairs : List Delimiters) :
    RegularItems (pairs.map toValue) := by
  induction pairs with
  | nil => trivial
  | cons pair others ih =>
      exact ⟨⟨by change fieldNames.Nodup; decide, trivial, trivial, trivial⟩, ih⟩

theorem Markers.regular_toValue (markers : Markers) : Regular markers.toValue :=
  ⟨by change fieldNames.Nodup; decide, trivial, trivial, trivial, trivial, trivial⟩

theorem CompileOptions.regular_toValue (options : CompileOptions) : Regular options.toValue :=
  ⟨by change fieldNames.Nodup; decide, trivial, trivial, regular_ofOption _, trivial,
    Delimiters.regular_toValue _, Markers.regular_toValue _, trivial, trivial⟩

theorem FileSettings.regular_toValue {settings : FileSettings}
    (fits : settings.minCheckInterval < 2 ^ 64) : Regular settings.toValue :=
  ⟨by change fieldNames.Nodup; decide, trivial, trivial, regular_ofOption _, regular_ofOption _,
    trivial, number?_literalOf fits, trivial⟩

namespace Configuration

theorem regular_toValue {config : Configuration} (fits : config.files.minCheckInterval < 2 ^ 64) :
    Regular config.toValue :=
  ⟨by change fieldNames.Nodup; decide, CompileOptions.regular_toValue _,
    FileSettings.regular_toValue fits, trivial⟩

/-- A configuration is read from its editions. -/
theorem ofNode?_edition {config : Configuration} (optional : dropped ⊆ optionalPaths)
    (edition : Edition dropped [] config.toValue node) :
    ofNode? node = some (config.without dropped) := by
  -- A pair of delimiters has no defaults, so none of its fields is among the optional ones.
  have opening : ["parsing", "delimiters", "start"] ∉ dropped := fun isDropped =>
    absurd (optional isDropped) (by decide)
  have closing : ["parsing", "delimiters", "end"] ∉ dropped := fun isDropped =>
    absurd (optional isDropped) (by decide)
  obtain ⟨fields, areFields, editions⟩ := edition.fields?
  change node.fields? fieldNames = some fields at areFields
  cases editions with | cons parsing editions =>
  cases editions with | cons files editions =>
  cases editions
  rw [ofNode?, areFields]
  simp only [Option.bind_eq_bind, Option.bind_some,
    parsing.orDefault fun _ => CompileOptions.ofNode?_edition opening closing,
    files.orDefault fun _ => FileSettings.ofNode?_edition]
  rfl

theorem readConfig_of_edition {config : Configuration} (optional : dropped ⊆ optionalPaths)
    (edition : Edition dropped [] config.toValue node) {tree : FileTree} {path : String}
    {bytes : List UInt8} (reads : tree.read path = .ok bytes)
    (written : Node.ofBytes? bytes = some node) :
    tree.readConfig path = .ok (config.without dropped) := by
  have loads : (Node.ofBytes? bytes).bind ofNode? = some (config.without dropped) := by
    rw [written, Option.bind_some, ofNode?_edition optional edition]
  simp only [FileTree.readConfig, reads, Except.mapError, bind, Except.bind, loads]
  rfl

/-- A configuration that has been stored is loaded as it was, and its options have the same key.
If its file is edited, in whatever way it is written then, the loaded configuration lacks exactly
what has been dropped: the fields that are left are as they were, the others have their defaults,
neither the order of the fields nor further ones matter. -/
theorem loaded_as_stored {config : Configuration}
    (fits : config.files.minCheckInterval < 2 ^ 64) :
    (∀ {tree after : FileTree} {path : String} {now : Instant} {drive : Drive}, tree.Rooted →
      tree.storeConfig path config now drive = (.ok (), after) →
      ∃ loaded, after.readConfig path = .ok loaded ∧ loaded = config ∧
        loaded.parsing.compileKey = config.parsing.compileKey) ∧
    ∀ {dropped : List (List String)} {node : Node}, dropped ⊆ optionalPaths →
      Edition dropped [] config.toValue node →
      (∀ {tree : FileTree} {path : String} {bytes : List UInt8}, tree.read path = .ok bytes →
        Node.ofBytes? bytes = some node →
        tree.readConfig path = .ok (config.without dropped)) ∧
      ∀ {edited : Json}, edited.structure? = some node →
        ∀ {tree : FileTree} {path : String},
          tree.read path = .ok (Text.encode edited.pretty) →
          tree.readConfig path = .ok (config.without dropped) := by
  refine ⟨fun rooted stored => ?_, fun optional edition => ⟨fun reads written => ?_,
    fun isStructure _ _ reads => ?_⟩⟩
  · obtain ⟨node, isStructure⟩ := (regular_toValue fits).exists_structure
    obtain ⟨_, _, inPlace⟩ := FileTree.exists_inPlace_of_replaceFile rooted stored
    have edition := Edition.of_structure config.toValue isStructure (regular_toValue fits) []
    exact ⟨config, readConfig_of_edition (List.nil_subset _) edition inPlace.reads
      (ofBytes?_pretty isStructure), rfl, rfl⟩
  · exact readConfig_of_edition optional edition reads written
  · exact readConfig_of_edition optional edition reads (ofBytes?_pretty isStructure)

/-- A configuration whose every field differs from its default. -/
def unusual : Configuration where
  parsing :=
    { parser := textParser, includeParser := "", defaultTag := some "", prepare := true,
      delimiters := [⟨"", "\n\x01\\"⟩], markers := ⟨"é", "\"", "", ""⟩,
      containerService := "" }
  files :=
    { basePath := "docs/ü", defaultName := "", preExtension := some "",
      preferredExtension := some "html", recheck := false,
      minCheckInterval := 18446744073709551615 }

/-- The paths of all fields but two. -/
def unusualDropped : List (List String) :=
  [["parsing"], ["files", "default_name"], ["files", "pre_extension"], ["files", "check_validity"],
    ["files", "min_check_interval_ms"]]

/-- What is left of the configuration, behind a field that it does not have. -/
def unusualEdited : Json :=
  .object [("added", .array [.null, .integer (-7)]),
    ("files", .object [("preferred_extension", .text "html"), ("base_path", .text "docs/ü")])]

def editedTree : FileTree where
  entries := [(["work"], .directory ⟨0⟩),
    (["work", "tessera.json"], .file (Text.encode unusualEdited.pretty) ⟨0⟩)]

/-- A stored configuration is loaded, and so is what is left of it. -/
theorem loaded_as_stored_unusual :
    unusual.files.minCheckInterval < 2 ^ 64 ∧
    (∃ after, FileTree.storedTree.Rooted ∧
      FileTree.storedTree.storeConfig "tessera.json" unusual ⟨1⟩ = (.ok (), after) ∧
        after.readConfig "tessera.json" = .ok unusual) ∧
    ∃ tree : FileTree, tree.read "tessera.json" = .ok (Text.encode unusualEdited.pretty) ∧
      tree.readConfig "tessera.json" =
        .ok { files := { basePath := "docs/ü", preferredExtension := some "html" } } := by
  have fits : unusual.files.minCheckInterval < 2 ^ 64 := by decide
  refine ⟨fits, ?_, ?_⟩
  · have rooted : FileTree.storedTree.Rooted := FileTree.rooted_of_entries (by decide)
    have inside : FileTree.storedTree.isDirectoryAt FileTree.storedTree.working = true := rfl
    obtain ⟨after, stored⟩ := FileTree.exists_replaceFile rooted
      (Text.encode unusual.toValue.pretty) ⟨1⟩
      ((FileTree.leadsToFile_temporary_iff inside).2 ⟨rfl, rfl⟩)
      ((FileTree.leadsToFile_tessera_iff inside).2 ⟨rfl, rfl⟩)
    obtain ⟨_, loads, rfl, -⟩ := (loaded_as_stored fits).1 rooted stored
    exact ⟨after, rooted, stored, loads⟩
  · have inside : editedTree.isDirectoryAt editedTree.working = true := rfl
    have reads := ((FileTree.leadsToFile_tessera_iff inside).2 ⟨rfl, rfl⟩).read rfl
    have optional : unusualDropped ⊆ optionalPaths := by decide
    have edition : Edition unusualDropped [] unusual.toValue (.object
        [(some "added", .array [.null, .number (literalOf (-7))]),
          (some "files", .object [(some "preferred_extension", .text (some "html")),
            (some "base_path", .text (some "docs/ü"))])]) := by
      refine .object (by decide) (.drop (by decide) rfl (.keep (by decide) rfl
        (.object (by decide) ?_) .nil))
      exact .keep (by decide) rfl (.text _) (.drop (by decide) rfl (.drop (by decide) rfl
        (.keep (by decide) rfl (.text _) (.drop (by decide) rfl (.drop (by decide) rfl .nil)))))
    exact ⟨_, reads, ((loaded_as_stored fits).2 optional edition).2 rfl reads⟩

end Configuration

end DocumentHost
