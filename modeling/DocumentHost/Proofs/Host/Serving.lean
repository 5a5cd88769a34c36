import DocumentHost.Proofs.Descriptor.Tending
import DocumentHost.Proofs.Files.Rewriting
import DocumentHost.Proofs.Host.Beside
import DocumentHost.Proofs.Host.Lockstep
import DocumentHost.Proofs.Host.Programs
import DocumentHost.Proofs.Language.Settled

/-!
# Documents served from files

A host serves documents from files that are looked at whenever a document is asked for, and
compiles them with the Mini adapters of one registry.  Whatever it has in store, what it gives
out under a name is what is in the file that the name stands for, and the executable is what
that text compiles to.
-/

namespace DocumentHost

open World

/-- How documents are served: from which files, and compiled with which adapters and which
options. -/
structure Arrangement where
  settings : FileSettings
  registry : RegistryId
  allowed : CompileOptions → Prop

namespace Arrangement

/-- Files are looked at each time, included documents are compiled with options that are
allowed, and the compile keys tell the allowed options apart. -/
structure Strict (arrangement : Arrangement) : Prop where
  recheck : arrangement.settings.recheck = true
  always : arrangement.settings.minCheckInterval = 0
  includes : ∀ options, arrangement.allowed options → arrangement.allowed options.forIncludes
  apart : ∀ options other, arrangement.allowed options → arrangement.allowed other →
    options.compileKey = other.compileKey → options = other

/-- What a document is compiled with under some options. -/
def setting (arrangement : Arrangement) (options : CompileOptions) : Setting where
  registry := arrangement.registry
  sourced := true
  options := options

@[simp]
theorem setting_options (arrangement : Arrangement) (options : CompileOptions) :
    (arrangement.setting options).options = options :=
  rfl

/-- A text in which no allowed options find in-flow code. -/
def Plain (arrangement : Arrangement) (text : String) : Prop :=
  ∀ options, arrangement.allowed options → options.Plain text

/-- The files that are texts are plain. -/
def PlainFiles (arrangement : Arrangement) (files : FileTree) : Prop :=
  ∀ place bytes modified text, files.find? place = some (.file bytes modified) →
    Text.decode? bytes = some text → arrangement.Plain text

end Arrangement

/-! ## Documents in files -/

/-- The document in the file that a name stands for. -/
def World.fileDocument (world : World) (settings : FileSettings) (name : String) :
    Except DocumentError Document :=
  match resolve? settings world.files name with
  | none => .error (.notFound name)
  | some path => do
      let modified ← (world.files.modified path).mapError (DocumentError.file path)
      let text ← (world.files.readText path).mapError (DocumentError.file path)
      return {
        name
        partition := world.sourceIdentifier
        tag := if (Path.extension? path).getD "" = "" then none
          else some ((Path.extension? path).getD "")
        text
        timestamp := modified }

/-- A descriptor holds what was read from a file, and the file holds it still unless it has
been modified since. -/
structure Descriptor.ReadFrom (settings : FileSettings) (world : World) (path : String)
    (descriptor : Descriptor) : Prop where
  resolved : resolve? settings world.files descriptor.name = some path
  partition : descriptor.partition = world.sourceIdentifier
  tag : descriptor.tag = (Path.extension? path).getD ""
  backed : ∃ lastChecked, descriptor.backing = some
      ⟨path, descriptor.timestamp, ⟨settings.recheck, settings.minCheckInterval⟩, lastChecked⟩ ∧
    lastChecked.nanoseconds ≤ world.clock.nanoseconds
  dated : ∃ modified, world.files.modified path = .ok modified ∧
    descriptor.timestamp.nanoseconds ≤ modified.nanoseconds ∧
    (modified = descriptor.timestamp → world.files.readText path = .ok descriptor.text)

/-- The document of a descriptor. -/
def Descriptor.document (descriptor : Descriptor) : Document where
  name := descriptor.name
  partition := descriptor.partition
  tag := if descriptor.tag = "" then none else some descriptor.tag
  text := descriptor.text
  timestamp := descriptor.timestamp

theorem World.documentOf_eq (world : World) (id : DescriptorId) :
    world.documentOf id = (world.descriptors.get id).document :=
  rfl

/-- A descriptor for which at most a look at its file has been recorded. -/
structure Descriptor.Aged (clock : Instant) (before after : Descriptor) : Prop where
  name : after.name = before.name
  partition : after.partition = before.partition
  tag : after.tag = before.tag
  text : after.text = before.text
  timestamp : after.timestamp = before.timestamp
  rechecked : Backing.Rechecked clock before.backing after.backing

namespace Descriptor

variable {settings : FileSettings} {world after : World} {path : String}
  {descriptor changed : Descriptor}

theorem Aged.refl (clock : Instant) (descriptor : Descriptor) : Aged clock descriptor descriptor :=
  ⟨rfl, rfl, rfl, rfl, rfl, .inl rfl⟩

theorem ReadFrom.later (read : descriptor.ReadFrom settings world path)
    (aged : Aged after.clock descriptor changed)
    (files : world.files.Rewritten after.files)
    (identifier : after.sourceIdentifier = world.sourceIdentifier)
    (passes : world.clock.nanoseconds ≤ after.clock.nanoseconds) :
    changed.ReadFrom settings after path where
  resolved := by
    rw [aged.name, resolve?_of_sameShape files.shape]
    exact read.resolved
  partition := by
    rw [aged.partition, read.partition, identifier]
  tag := aged.tag.trans read.tag
  backed := by
    obtain ⟨lastChecked, backing, early⟩ := read.backed
    rw [aged.timestamp]
    rcases aged.rechecked with same | ⟨before, now, found, same, now_le⟩
    · exact ⟨lastChecked, same.trans backing, Int.le_trans early passes⟩
    · rw [backing] at found
      cases found
      exact ⟨now, same, now_le⟩
  dated := by
    obtain ⟨modified, dated, notAfter, holds⟩ := read.dated
    rw [aged.timestamp, aged.text]
    rcases files.newer path with ⟨sameDate, sameText⟩ | ⟨before, modifiedAfter, found, foundAfter, later⟩
    · exact ⟨modified, sameDate.trans dated, notAfter, fun same => sameText.trans (holds same)⟩
    · rw [dated] at found
      cases found
      refine ⟨modifiedAfter, foundAfter, by omega, fun same => ?_⟩
      rw [same] at later
      omega

/-- A file that has not been modified since holds the document of the descriptor. -/
theorem ReadFrom.fileDocument_eq (read : descriptor.ReadFrom settings world path)
    (current : ∀ backing, descriptor.backing = some backing → world.FileCurrent backing) :
    world.fileDocument settings descriptor.name = .ok descriptor.document := by
  obtain ⟨lastChecked, backing, -⟩ := read.backed
  obtain ⟨modified, dated, notAfter, holds⟩ := read.dated
  obtain ⟨found, foundDate, notLater⟩ := current _ backing
  rw [dated] at foundDate
  cases foundDate
  have same : modified = descriptor.timestamp := by
    cases modified
    exact congrArg Instant.mk (Int.le_antisymm notLater notAfter)
  rw [World.fileDocument, read.resolved]
  dsimp only
  rw [dated, holds same, same, document, read.partition, read.tag]
  rfl

theorem Aged.document_eq {clock : Instant} (aged : Aged clock descriptor changed) :
    changed.document = descriptor.document := by
  rw [document, document, aged.name, aged.partition, aged.tag, aged.text, aged.timestamp]

end Descriptor

namespace World

variable {world after : World} {id : DescriptorId}

/-- What is found valid has a current file, if files are looked at each time. -/
theorem fileDocument_of_isValid {settings : FileSettings} {path : String}
    (recheck : settings.recheck = true) (always : settings.minCheckInterval = 0)
    (read : (world.descriptors.get id).ReadFrom settings world path)
    (held : (world.descriptors.get id).dropped = false)
    (checked : (isValid id).eval world = (.ok true, after)) :
    world.fileDocument settings (world.descriptors.get id).name =
      .ok (world.descriptors.get id).document := by
  have sound := soundAt_of_isValid held checked
  refine read.fileDocument_eq fun backing found => sound.current backing found ?_
  obtain ⟨lastChecked, backed, early⟩ := read.backed
  rw [found] at backed
  cases backed
  refine ⟨recheck, ?_⟩
  rw [always]
  dsimp only
  omega

/-- A document that is read is the one in the file. -/
theorem readDocument_fileDocument (settings : FileSettings) (name : String) (world : World) :
    (∃ error, world.fileDocument settings name = .error error ∧
      (readDocument settings name).eval world = (.error error, world)) ∨
    ∃ path modified text,
      (world.fileDescriptor settings name path modified text).ReadFrom settings world path ∧
      world.fileDocument settings name =
        .ok (world.fileDescriptor settings name path modified text).document ∧
      (readDocument settings name).eval world =
        (.ok (world.tick.addDescriptor
            (world.fileDescriptor settings name path modified text)).1,
          (world.tick.addDescriptor (world.fileDescriptor settings name path modified text)).2) := by
  rw [readDocument, HostM.eval_bind_of_ok (HostM.eval_get _), fileDocument]
  dsimp only
  cases resolved : resolve? settings world.files name with
  | none => exact .inl ⟨_, rfl, rfl⟩
  | some path =>
  dsimp only
  cases dated : world.files.modified path with
  | error reason => exact .inl ⟨_, rfl, rfl⟩
  | ok modified =>
  cases read : world.files.readText path with
  | error reason => exact .inl ⟨_, rfl, rfl⟩
  | ok text =>
      refine .inr ⟨path, modified, text, ⟨resolved, rfl, rfl, ⟨_, rfl, Int.le_refl _⟩, ?_⟩, rfl, rfl⟩
      exact ⟨modified, dated, Int.le_refl _, fun _ => read⟩

/-- The executable is the one that a document compiles to. -/
def Compiled (arrangement : Arrangement) (world : World) (executable : ExecutableId)
    (options : CompileOptions) (document : Document) : Prop :=
  ∃ segments, world.Compiles (arrangement.setting options) document segments ∧
    MadeOfMini segments ∧ world.Form executable (arrangement.setting options) document segments

/-- Time has passed: executables have been made and used, and files have been looked at. -/
structure Ages (world after : World) : Prop where
  source : after.source.map Source.emptied = world.source.map Source.emptied
  adapters : SameAdapters world after
  files : after.files = world.files
  clock : world.clock.nanoseconds ≤ after.clock.nanoseconds
  known : world.executables.size ≤ after.executables.size
  programs : ∀ id, id.index < world.executables.size →
    SameProgram (world.executables.get id) (after.executables.get id)

theorem Beside.ages {context : ContextId} (beside : Beside context world after) :
    Ages world after := by
  obtain ⟨descriptors, source, clock, contexts, executables, journal, rest⟩ := beside.rest
  refine ⟨beside.source, ?_, ?_, beside.clock, beside.known, fun id known => ?_⟩
  · rw [rest]
    exact ⟨rfl, rfl⟩
  · rw [rest]
  · rw [beside.executables id known]
    exact ⟨rfl, rfl, rfl, rfl⟩

theorem Ages.samePrograms (ages : Ages world after) : SamePrograms world after :=
  ⟨ages.known, ages.programs⟩

theorem Compiled.ages {arrangement : Arrangement} {executable : ExecutableId}
    {options : CompileOptions} {document : Document}
    (compiled : Compiled arrangement world executable options document)
    (ages : Ages world after) : Compiled arrangement after executable options document := by
  obtain ⟨segments, compiles, made, form⟩ := compiled
  exact ⟨segments, compiles.of_same ages.adapters, made, form.later ages.samePrograms⟩

end World

/-- What a host has in store is what it should be: descriptors hold what was read from files,
and their slots what that compiles to. -/
structure Arrangement.Stocks (arrangement : Arrangement) (world : World) : Prop where
  kind : world.source.map Source.kind = some (.files arrangement.settings)
  univocal : world.Univocal arrangement.registry
  mini : world.MiniRegistry arrangement.registry
  plain : arrangement.PlainFiles world.files
  read : ∀ id, id.index < world.descriptors.size →
    ∃ path, (world.descriptors.get id).ReadFrom arrangement.settings world path
  forms : ∀ id key executable, (world.descriptors.get id).slots.get? key = some executable →
    ∃ options, arrangement.allowed options ∧ options.compileKey = key ∧
      Compiled arrangement world executable options (world.descriptors.get id).document

/-- The source keeps more descriptors than a chain of dependencies may have. -/
def World.Crowded (world : World) : Prop :=
  dependencyLimit < world.documentEntries.length

/-- What comes of asking for the document of a name: the document in the file, the reason why
there is none, or, where the source is crowded, some failure. -/
def Arrangement.Gives (arrangement : Arrangement) (world : World) (name : String) :
    Except DocumentError DescriptorId × World → Prop
  | (.ok id, after) =>
      world.fileDocument arrangement.settings name = .ok (after.documentOf id)
  | (.error error, after) =>
      world.fileDocument arrangement.settings name = .error error ∨ Crowded after

namespace Arrangement.Stocks

variable {arrangement : Arrangement} {world after : World}

theorem sourceIdentifier_of_emptied
    (same : after.source.map Source.emptied = world.source.map Source.emptied) :
    after.sourceIdentifier = world.sourceIdentifier := by
  have identifiers := congrArg (Option.map Source.identifier) same
  rw [Option.map_map, Option.map_map] at identifiers
  unfold World.sourceIdentifier
  cases found : world.source <;> cases foundAfter : after.source <;>
    simp_all [Source.emptied]

theorem kind_of_emptied
    (same : after.source.map Source.emptied = world.source.map Source.emptied) :
    after.source.map Source.kind = world.source.map Source.kind := by
  have kinds := congrArg (Option.map Source.kind) same
  rwa [Option.map_map, Option.map_map] at kinds

/-- Descriptors age as well, and new ones have been read. -/
theorem ages (stocks : arrangement.Stocks world) (ages : Ages world after)
    (aged : ∀ id, id.index < world.descriptors.size →
      Descriptor.Aged after.clock (world.descriptors.get id) (after.descriptors.get id) ∧
        ∀ key executable, (after.descriptors.get id).slots.get? key = some executable →
          (world.descriptors.get id).slots.get? key = some executable ∨
          ∃ options, arrangement.allowed options ∧ options.compileKey = key ∧
            Compiled arrangement after executable options (world.descriptors.get id).document)
    (fresh : ∀ id, ¬id.index < world.descriptors.size → id.index < after.descriptors.size →
      (∃ path, (after.descriptors.get id).ReadFrom arrangement.settings after path) ∧
        (after.descriptors.get id).slots = {}) :
    arrangement.Stocks after where
  kind := (kind_of_emptied ages.source).trans stocks.kind
  univocal := ages.adapters.univocal stocks.univocal
  mini := ages.adapters.miniRegistry stocks.mini
  plain := by
    rw [ages.files]
    exact stocks.plain
  read id known := by
    by_cases old : id.index < world.descriptors.size
    · obtain ⟨path, read⟩ := stocks.read id old
      refine ⟨path, read.later (aged id old).1 ?_ (sourceIdentifier_of_emptied ages.source)
        ages.clock⟩
      rw [ages.files]
      exact .refl _
    · exact (fresh id old known).1
  forms id key executable slot := by
    by_cases old : id.index < world.descriptors.size
    · obtain ⟨same, slots⟩ := aged id old
      rw [same.document_eq]
      rcases slots key executable slot with before | new
      · obtain ⟨options, isAllowed, sameKey, compiled⟩ := stocks.forms id key executable before
        exact ⟨options, isAllowed, sameKey, compiled.ages ages⟩
      · exact new
    · by_cases known : id.index < after.descriptors.size
      · rw [(fresh id old known).2] at slot
        cases slot
      · rw [Arena.get_of_unknown _ known] at slot
        cases slot

/-- Only what has been looked at differs. -/
theorem of_same (stocks : arrangement.Stocks world) (ages : Ages world after)
    (descriptors : after.descriptors = world.descriptors) : arrangement.Stocks after := by
  refine stocks.ages ages (fun id _ => ?_) fun id old known => ?_
  · rw [descriptors]
    exact ⟨.refl _ _, fun _ _ slot => .inl slot⟩
  · rw [descriptors] at known
    exact absurd known old

theorem checked (stocks : arrangement.Stocks world) (checked : Checked world after) :
    arrangement.Stocks after := by
  have beside : Beside default world after := (Beside.documenting default).checked checked
  refine stocks.ages beside.ages (fun id _ => ?_) fun id old known => ?_
  · obtain ⟨_, _, _, same⟩ := checked.same id
    have rechecked := checked.rechecked id
    rw [same] at rechecked ⊢
    exact ⟨⟨rfl, rfl, rfl, rfl, rfl, rechecked⟩, fun _ _ slot => .inl slot⟩
  · rw [checked.size] at known
    exact absurd known old

theorem linkDependency (stocks : arrangement.Stocks world) (id dependency : DescriptorId) :
    arrangement.Stocks (world.linkDependency id dependency) := by
  have beside : Beside default world (world.linkDependency id dependency) :=
    .modifyDescriptor world id _
  refine stocks.ages beside.ages (fun other _ => ?_) fun other old known => ?_
  · obtain ⟨_, same⟩ := get_linkDependency world id dependency other
    rw [same]
    exact ⟨⟨rfl, rfl, rfl, rfl, rfl, .inl rfl⟩, fun _ _ slot => .inl slot⟩
  · have size : (world.linkDependency id dependency).descriptors.size = world.descriptors.size :=
      Arena.size_modify ..
    rw [size] at known
    exact absurd known old

/-- A slot is filled with what the document compiles to. -/
theorem fillSlot (stocks : arrangement.Stocks world) {id : DescriptorId}
    {options : CompileOptions} {executable : ExecutableId} (isAllowed : arrangement.allowed options)
    (compiled : Compiled arrangement world executable options (world.descriptors.get id).document) :
    arrangement.Stocks (world.fillSlot id options.compileKey executable).2 := by
  have beside : Beside default world (world.fillSlot id options.compileKey executable).2 :=
    (Beside.documenting default).fill world id options.compileKey executable
  have ages := beside.ages
  refine stocks.ages ages (fun other _ => ?_) fun other old known => ?_
  · rw [World.fillSlot]
    split
    · exact ⟨.refl _ _, fun _ _ slot => .inl slot⟩
    · rename_i empty
      rw [World.modifyDescriptor, Arena.get_modify]
      split
      · rename_i here
        rw [here.1]
        refine ⟨⟨rfl, rfl, rfl, rfl, rfl, .inl rfl⟩, fun key present slot => ?_⟩
        by_cases sameKey : key = options.compileKey
        · rw [sameKey, NameTable.get?_insert_self] at slot
          cases slot
          refine .inr ⟨options, isAllowed, sameKey.symm, ?_⟩
          rw [World.fillSlot, empty] at ages
          exact compiled.ages ages
        · rw [NameTable.get?_insert_of_ne _ _ sameKey] at slot
          exact .inl slot
      · exact ⟨.refl _ _, fun _ _ slot => .inl slot⟩
  · rw [size_fillSlot] at known
    exact absurd known old

/-- A document is read from its file and kept. -/
theorem reload (stocks : arrangement.Stocks world) (name : String) :
    arrangement.Stocks ((reloadDocument (world.source.map Source.kind) name).eval world).2 ∧
      arrangement.Gives world name
        ((reloadDocument (world.source.map Source.kind) name).eval world) := by
  rw [stocks.kind, eval_reloadDocument_of_files]
  rcases readDocument_fileDocument arrangement.settings name world with
    ⟨error, missing, failed⟩ | ⟨path, modified, text, read, found, succeeded⟩
  · rw [failed]
    exact ⟨stocks, .inl missing⟩
  rw [succeeded]
  dsimp only
  generalize isNew : world.fileDescriptor arrangement.settings name path modified text = descriptor
    at read found
  have unlinked : descriptor.dependents = [] := by rw [← isNew]; rfl
  have empty : descriptor.slots = {} := by rw [← isNew]; rfl
  generalize isAfter : World.modifyDocuments _ _ = after
  have descriptors : after.descriptors = (world.descriptors.add descriptor).2 := by
    rw [← isAfter]
    exact descriptors_sweep _
  have documenting := Beside.documenting default
  have ages : Ages world after := by
    have added := documenting.lasting.trans (Beside.tick world)
      (documenting.add world.tick unlinked)
    have swept := documenting.lasting.trans added (documenting.sweep _)
    rw [← isAfter]
    exact (documenting.lasting.trans swept (documenting.documents _ _)).ages
  have later : descriptor.ReadFrom arrangement.settings after path := by
    refine read.later (.refl _ _) ?_ (sourceIdentifier_of_emptied ages.source) ages.clock
    rw [ages.files]
    exact .refl _
  have gets : after.descriptors.get (world.descriptors.add descriptor).1 = descriptor := by
    rw [descriptors]
    exact Arena.get_add_self ..
  refine ⟨stocks.ages ages (fun id old => ?_) fun id isFresh known => ?_, ?_⟩
  · rw [descriptors, Arena.get_add_of_lt _ _ old]
    exact ⟨.refl _ _, fun _ _ slot => .inl slot⟩
  · have isId : id = (world.descriptors.add descriptor).1 := by
      rw [descriptors] at known
      exact Arena.eq_fst_add_of_new isFresh known
    rw [isId, gets]
    exact ⟨⟨path, later⟩, empty⟩
  · change world.fileDocument arrangement.settings name = .ok (after.documentOf _)
    rw [World.documentOf_eq, found]
    exact congrArg _ (congrArg Descriptor.document gets.symm)

/-- The text that is read is plain. -/
theorem plain_of_fileDocument (stocks : arrangement.Stocks world) {name : String} {document : Document}
    (found : world.fileDocument arrangement.settings name = .ok document) :
    arrangement.Plain document.text := by
  rw [fileDocument] at found
  cases resolved : resolve? arrangement.settings world.files name with
  | none =>
      rw [resolved] at found
      cases found
  | some path =>
      rw [resolved] at found
      dsimp only at found
      obtain ⟨modified, -, found⟩ := Outcome.bind_eq_ok_iff.1 found
      obtain ⟨text, read, found⟩ := Outcome.bind_eq_ok_iff.1 found
      cases found
      have holds : world.files.readText path = .ok text := by
        cases held : world.files.readText path with
        | error reason =>
            rw [held] at read
            cases read
        | ok found =>
            rw [held] at read
            cases read
            rfl
      obtain ⟨place, bytes, modified, -, there, decoded⟩ := FileTree.exists_file_of_readText holds
      exact stocks.plain place bytes modified text there decoded

end Arrangement.Stocks

/-- A host whose source is tended and that has in store what it should have. -/
structure Arrangement.Serves (arrangement : Arrangement) (world : World) : Prop where
  stocks : arrangement.Stocks world
  tended : Tended [] world

namespace World

variable {world after : World}

theorem fileDocument_of_same (files : after.files = world.files)
    (identifier : after.sourceIdentifier = world.sourceIdentifier) (settings : FileSettings)
    (name : String) : after.fileDocument settings name = world.fileDocument settings name := by
  rw [fileDocument, fileDocument, files, identifier]

end World

/-- What the file of a name comes to under some options: a document that compiles, or the
reason why there is none. -/
def Arrangement.offer (arrangement : Arrangement) (world : World) (options : CompileOptions)
    (name : String) : Except ParsingError Document := do
  let document ← (world.fileDocument arrangement.settings name).mapError ParsingError.document
  match ((newExecutable (arrangement.setting options) document).eval world).1 with
  | .ok _ => return document
  | .error error => throw error

/-- What comes of asking for the executable of a name: what the file of the name comes to, or,
where the source is crowded, some failure. -/
def Arrangement.Obtains (arrangement : Arrangement) (world : World) (options : CompileOptions)
    (name : String) : Except ParsingError ExecutableId × World → Prop
  | (.ok executable, after) => ∃ document, arrangement.offer world options name = .ok document ∧
      Compiled arrangement after executable options document
  | (.error error, after) =>
      arrangement.offer world options name = .error error ∨ Crowded after

namespace Arrangement

variable {arrangement : Arrangement} {world other : World} {options : CompileOptions}
  {name : String} {document : Document}

theorem offer_of_missing {error : DocumentError}
    (missing : world.fileDocument arrangement.settings name = .error error) :
    arrangement.offer world options name = .error (.document error) := by
  rw [offer, missing]
  rfl

theorem offer_of_compiles {segments : List Segment}
    (found : world.fileDocument arrangement.settings name = .ok document)
    (compiles : world.Compiles (arrangement.setting options) document segments) :
    arrangement.offer world options name = .ok document := by
  rw [offer, found]
  change (match ((newExecutable _ _).eval world).1 with | .ok _ => _ | .error _ => _) = _
  rw [compiles world ⟨rfl, rfl⟩]
  rfl

theorem offer_of_refuses {error : ParsingError}
    (found : world.fileDocument arrangement.settings name = .ok document)
    (refuses : world.Refuses (arrangement.setting options) document error) :
    arrangement.offer world options name = .error error := by
  rw [offer, found]
  change (match ((newExecutable _ _).eval world).1 with | .ok _ => _ | .error _ => _) = _
  rcases refuses world ⟨rfl, rfl⟩ with failed | failed
  · rw [failed]
    rfl
  · rw [failed]
    rfl

/-- A document in a file is compiled or refused, as the adapters settle it. -/
theorem Stocks.compiles_or_refuses (stocks : arrangement.Stocks world)
    (isAllowed : arrangement.allowed options)
    (found : world.fileDocument arrangement.settings name = .ok document) :
    (∃ segments, MadeOfMini segments ∧
        world.Compiles (arrangement.setting options) document segments) ∨
      ∃ error, world.Refuses (arrangement.setting options) document error := by
  have plain : (arrangement.setting options).options.Plain document.text :=
    stocks.plain_of_fileDocument found options isAllowed
  exact DocumentHost.compiles_or_refuses stocks.univocal stocks.mini plain

/-- Files and adapters settle what a name comes to. -/
theorem Stocks.offer_eq (stocks : arrangement.Stocks world)
    (isAllowed : arrangement.allowed options) (adapters : SameAdapters world other)
    (files : other.fileDocument arrangement.settings name =
      world.fileDocument arrangement.settings name) :
    arrangement.offer other options name = arrangement.offer world options name := by
  cases found : world.fileDocument arrangement.settings name with
  | error error =>
      rw [offer_of_missing found, offer_of_missing (files.trans found)]
  | ok document =>
      rcases stocks.compiles_or_refuses isAllowed found with ⟨_, -, compiles⟩ | ⟨_, refuses⟩
      · rw [offer_of_compiles found compiles,
          offer_of_compiles (files.trans found) (compiles.of_same adapters)]
      · rw [offer_of_refuses found refuses,
          offer_of_refuses (files.trans found) (refuses.of_same adapters)]

end Arrangement

theorem Arrangement.Gives.of_same {world after : World} {arrangement : Arrangement} {name : String}
    {result : Except DocumentError DescriptorId × World}
    (gives : arrangement.Gives after name result) (files : after.files = world.files)
    (identifier : after.sourceIdentifier = world.sourceIdentifier) :
    arrangement.Gives world name result := by
  have same := (fileDocument_of_same files identifier arrangement.settings name).symm
  rcases result with ⟨error | id, behind⟩
  · exact Or.imp_left same.trans gives
  · exact same.trans gives

namespace Arrangement.Serves

variable {arrangement : Arrangement} {world after : World}

/-- What is fetched under a name is what is in its file. -/
theorem fetch (serves : arrangement.Serves world) (strict : arrangement.Strict) (name : String) :
    arrangement.Serves ((fetchDocument name).eval world).2 ∧
      arrangement.Gives world name ((fetchDocument name).eval world) := by
  suffices arrangement.Stocks ((fetchDocument name).eval world).2 ∧
      arrangement.Gives world name ((fetchDocument name).eval world) by
    have tends : Tends (fun _ => True) world [] ((fetchDocument name).eval world).2 :=
      (serves.tended.fetch name).1
    exact ⟨⟨this.1, tends.tended⟩, this.2⟩
  cases kept : world.kept? name with
  | none =>
      rw [eval_fetchDocument_of_absent kept]
      exact serves.stocks.reload name
  | some id =>
  have member := mem_documentEntries_of_kept kept
  have held := serves.tended.held name id member
  have named := serves.tended.named name id member
  have checks := isValid_keeps id world
  rw [HostM.KeepsFrom] at checks
  have stocks := serves.stocks.checked checks
  rw [eval_fetchDocument_of_kept kept]
  rcases checked : (isValid id).eval world with ⟨error | valid, between⟩
  · rw [checked] at checks stocks
    obtain ⟨chain, long, distinct, linking⟩ := exists_chain_of_isValid held checked
    have bounded := serves.tended.length_le_of_linking distinct linking
    refine ⟨stocks, .inr ?_⟩
    rw [Crowded, documentEntries_of_source checks.source]
    omega
  rw [checked] at checks stocks
  dsimp only at checks stocks
  cases valid with
  | true =>
      obtain ⟨path, read⟩ := serves.stocks.read id (serves.tended.known name id member)
      have current := fileDocument_of_isValid strict.recheck strict.always read held checked
      obtain ⟨_, _, _, same⟩ := checks.same id
      refine ⟨stocks, ?_⟩
      change world.fileDocument arrangement.settings name = .ok (between.documentOf id)
      rw [World.documentOf_eq, ← named, current, same]
      rfl
  | false =>
      have reloads := stocks.reload name
      have files : between.files = world.files := by
        obtain ⟨_, _, rest⟩ := checks.rest
        rw [rest]
      have identifier : between.sourceIdentifier = world.sourceIdentifier := by
        rw [World.sourceIdentifier, World.sourceIdentifier, checks.source]
      rw [checks.source] at reloads
      refine ⟨reloads.1, ?_⟩
      exact reloads.2.of_same files identifier

theorem tick (serves : arrangement.Serves world) : arrangement.Serves world.tick := by
  have passes : Beside default world world.tick := .tick world
  have tends : Tends (fun _ => True) world [] world.tick := serves.tended.of_same rfl rfl
  exact ⟨serves.stocks.of_same passes.ages rfl, tends.tended⟩

/-- A form that has just been made is put into its empty slot. -/
theorem install (serves : arrangement.Serves world) {id : DescriptorId}
    {options : CompileOptions} (isAllowed : arrangement.allowed options)
    (slot : (world.descriptors.get id).slots.get? options.compileKey = none)
    {segments : List Segment} (made : MadeOfMini segments)
    (compiles : world.Compiles (arrangement.setting options) (world.documentOf id) segments)
    {executable : ExecutableId} {behind : World}
    (evaluated : (newExecutable (arrangement.setting options) (world.documentOf id)).eval world =
      (.ok executable, behind)) :
    arrangement.Serves (behind.fillSlot id options.compileKey executable).2 ∧
      (behind.fillSlot id options.compileKey executable).1 = executable ∧
      Compiled arrangement (behind.fillSlot id options.compileKey executable).2 executable options
        (world.documentOf id) ∧
      ∀ context, Beside context world (behind.fillSlot id options.compileKey executable).2 := by
  rw [compiles world ⟨rfl, rfl⟩] at evaluated
  simp only [Prod.mk.injEq, Except.ok.injEq] at evaluated
  obtain ⟨isExecutable, isBehind⟩ := evaluated
  have beside (context : ContextId) : Beside context world behind := by
    rw [← isBehind]
    exact .addExecutable world _
  have ages := (beside default).ages
  have descriptors : behind.descriptors = world.descriptors := by rw [← isBehind]; rfl
  have source : behind.source = world.source := by rw [← isBehind]; rfl
  have gets : behind.executables.get executable =
      (world.documentOf id).executable (arrangement.setting options) segments world.clock := by
    rw [← isBehind, ← isExecutable]
    exact Arena.get_add_self ..
  have compiled : Compiled arrangement behind executable options (world.documentOf id) := by
    refine ⟨segments, compiles.of_same ages.adapters, made, ?_, ?_, ?_, ?_, ?_⟩
    · rw [← isBehind, ← isExecutable]
      exact Arena.known_add ..
    all_goals
      rw [gets]
      rfl
  have stocks := serves.stocks.of_same ages descriptors
  have filled : arrangement.Stocks (behind.fillSlot id options.compileKey executable).2 := by
    apply stocks.fillSlot isAllowed
    rw [descriptors]
    exact compiled
  have tends : Tends (fun _ => True) world [] behind := serves.tended.of_same descriptors source
  have fills (context : ContextId) :
      Beside context behind (behind.fillSlot id options.compileKey executable).2 :=
    (Beside.documenting context).fill behind id _ _
  have tendsFilled : Tends (fun _ => True) behind []
      (behind.fillSlot id options.compileKey executable).2 :=
    tends.tended.fillSlot _ _ trivial
  refine ⟨⟨filled, tendsFilled.tended⟩, ?_,
    compiled.ages (fills default).ages, fun context =>
      (Beside.lasting context).trans (beside context) (fills context)⟩
  rw [World.fillSlot, descriptors, slot]

/-- The form of a document that has been fetched is taken from its slot, or made and put
there. -/
theorem obtain (serves : arrangement.Serves world) (strict : arrangement.Strict)
    {options : CompileOptions} (isAllowed : arrangement.allowed options) (name : String) :
    arrangement.Serves ((obtainExecutable (arrangement.setting options) name).eval world).2 ∧
      arrangement.Obtains world options name
        ((obtainExecutable (arrangement.setting options) name).eval world) ∧
      ∀ context, Beside context world
        ((obtainExecutable (arrangement.setting options) name).eval world).2 := by
  obtain ⟨served, gives⟩ := serves.fetch strict name
  have source : world.source.isNone = false := by
    obtain ⟨source, found⟩ := Option.isSome_iff_exists.1 serves.tended.sourced
    rw [found]
    rfl
  have beside (context : ContextId) := (Beside.documenting context).fetchDocument name world
  simp only [HostM.KeepsFrom] at beside
  rcases fetched : (fetchDocument name).eval world with ⟨error | id, between⟩
  · rw [eval_obtainExecutable_of_missing rfl source fetched]
    simp only [fetched] at served gives beside
    exact ⟨served, gives.imp_left offer_of_missing, beside⟩
  simp only [fetched] at served gives beside
  have same : SameAdapters between world := (beside default).ages.adapters.symm
  have found : world.fileDocument arrangement.settings name = .ok (between.documentOf id) := gives
  have ends := serves.stocks.compiles_or_refuses isAllowed found
  rw [eval_obtainExecutable_of_fetched rfl source fetched, setting_options]
  cases slot : (between.descriptors.get id).slots.get? options.compileKey with
  | some present =>
      obtain ⟨others, othersAllowed, sameKey, compiled⟩ := served.stocks.forms id _ present slot
      rw [strict.apart others options othersAllowed isAllowed sameKey] at compiled
      have offered : arrangement.offer world options name = .ok (between.documentOf id) := by
        obtain ⟨segments, compiles, -⟩ := compiled
        exact offer_of_compiles found (compiles.of_same same)
      exact ⟨served, ⟨_, offered, compiled⟩, beside⟩
  | none =>
  dsimp only
  rcases ends with ⟨segments, made, compiles⟩ | ⟨error, refuses⟩
  · have compilesBetween := compiles.of_same same.symm
    rcases evaluated : (newExecutable (arrangement.setting options)
        (between.documentOf id)).eval between with ⟨error | executable, behind⟩
    · rw [compilesBetween between ⟨rfl, rfl⟩] at evaluated
      cases evaluated
    obtain ⟨installed, first, compiled, further⟩ :=
      served.install isAllowed slot made compilesBetween evaluated
    dsimp only
    rw [first]
    exact ⟨installed, ⟨_, offer_of_compiles found compiles, compiled⟩, fun context =>
      (Beside.lasting context).trans (beside context) (further context)⟩
  · rcases refuses between same.symm with failed | failed
    · rw [failed]
      exact ⟨served, .inl (offer_of_refuses found refuses), beside⟩
    · rw [failed]
      exact ⟨served.tick, .inl (offer_of_refuses found refuses), fun context =>
        (Beside.lasting context).trans (beside context) (.tick between)⟩

end Arrangement.Serves

end DocumentHost
