import DocumentHost.Proofs.Descriptor.Growth
import DocumentHost.Proofs.Descriptor.Tending
import DocumentHost.Proofs.Host.Programs
import DocumentHost.Proofs.Language.MiniSegments

/-!
# Planting in-flow code

In-flow code is compiled as one program, under a name that is made from its document and its
number, and put into the source under that name.  Where the source has no document of the name,
a descriptor is made that has the code as its text, and its slot for included documents is
filled with what the code was compiled to.
-/

namespace DocumentHost

open World

/-- The in-flow codes of a document have different names. -/
theorem inFlowDocumentName_injective (document : Document) :
    Function.Injective (inFlowDocumentName document) := by
  intro first second same
  have characters := congrArg String.toList same
  simp only [inFlowDocumentName, String.toList_append] at characters
  have digits := congrArg (fun digits => Nat.ofDigitChars 10 digits 0)
    (List.append_cancel_left characters)
  simpa [Nat.toString_eq_ofList_toDigits] using digits

/-- The names of in-flow codes start with an underscore. -/
theorem inFlowDocumentName_ne (document : Document) (number : Nat) {name : String}
    (other : name.toList.head? ≠ some '_') : inFlowDocumentName document number ≠ name := by
  rintro rfl
  simp [inFlowDocumentName, String.toList_append] at other

/-! ## Names that a source has no document of -/

namespace World

/-- The source has no document of a name: it keeps none, and no file is found by the name. -/
structure Lacks (world : World) (name : String) : Prop where
  kept : world.kept? name = none
  file : ∀ settings, world.source.map Source.kind = some (.files settings) →
    resolve? settings world.files name = none

theorem kept?_eq_none_iff {world : World} {name : String} :
    world.kept? name = none ↔ ∀ id, (name, id) ∉ world.documentEntries := by
  rw [kept?_eq]
  exact NameTable.findEntry_eq_none_iff

theorem exists_of_mem_modifyDocuments {world : World}
    {change : NameTable DescriptorId → NameTable DescriptorId} {entry : String × DescriptorId}
    (member : entry ∈ (world.modifyDocuments change).documentEntries) :
    ∃ documents, world.documentEntries = documents.entries ∧
      entry ∈ (change documents).entries := by
  unfold documentEntries modifyDocuments at *
  cases source : world.source with
  | none =>
      rw [source] at member
      cases member
  | some present =>
      rw [source] at member
      exact ⟨present.documents, rfl, member⟩

/-- No file is found by a name. -/
def Unfiled (world : World) (name : String) : Prop :=
  ∀ settings, world.source.map Source.kind = some (.files settings) →
    resolve? settings world.files name = none

theorem Unfiled.modifyDocuments {world : World} {name : String} (unfiled : world.Unfiled name)
    (change : NameTable DescriptorId → NameTable DescriptorId) :
    (world.modifyDocuments change).Unfiled name := by
  intro settings kind
  rw [World.modifyDocuments, Option.map_map] at kind
  exact unfiled settings kind

/-- If no file is found by a name, the source comes by no document of it. -/
def Dwindling (name : String) (world after : World) : Prop :=
  world.Unfiled name → after.Unfiled name ∧
    ∀ id, (name, id) ∈ after.documentEntries → (name, id) ∈ world.documentEntries

namespace Dwindling

variable {name other : String} {world after : World}

/-- What a source lacks it goes on to lack. -/
theorem lacks (dwindling : Dwindling name world after) (lacks : world.Lacks name) :
    after.Lacks name := by
  obtain ⟨unfiled, fewer⟩ := dwindling lacks.file
  exact ⟨kept?_eq_none_iff.2 fun id member => kept?_eq_none_iff.1 lacks.kept id (fewer id member),
    unfiled⟩

theorem of_same (source : after.source = world.source) (files : after.files = world.files) :
    Dwindling name world after := by
  intro unfiled
  refine ⟨?_, fun id member => ?_⟩
  · rw [Unfiled, source, files]
    exact unfiled
  · rwa [documentEntries_of_source source] at member

theorem lasting : Lasting (Dwindling name) where
  refl _ unfiled := ⟨unfiled, fun _ member => member⟩
  trans first second unfiled := by
    obtain ⟨between, fewer⟩ := first unfiled
    obtain ⟨behind, evenFewer⟩ := second between
    exact ⟨behind, fun id member => fewer id (evenFewer id member)⟩

theorem tolerant : Tolerant (Dwindling name) :=
  .of_contexts lasting (fun outside => of_same outside.source outside.files) fun _ _ _ =>
    of_same rfl rfl

theorem checked (checked : Checked world after) : Dwindling name world after := by
  obtain ⟨_, _, rest⟩ := checked.rest
  refine of_same checked.source ?_
  rw [rest]

/-- No document of the name is added. -/
theorem modifyDocuments (world : World) {change : NameTable DescriptorId → NameTable DescriptorId}
    (adds : ∀ documents id, (name, id) ∈ (change documents).entries →
      (name, id) ∈ documents.entries) : Dwindling name world (world.modifyDocuments change) := by
  intro unfiled
  refine ⟨unfiled.modifyDocuments change, fun id member => ?_⟩
  obtain ⟨documents, entries, changed⟩ := exists_of_mem_modifyDocuments member
  rw [entries]
  exact adds documents id changed

theorem insert (world : World) (id : DescriptorId) (differs : name ≠ other) :
    Dwindling name world (world.modifyDocuments fun documents => documents.insert other id) :=
  modifyDocuments world fun _ _ member =>
    (NameTable.eq_or_mem_of_mem_insertEntry member).resolve_left fun same => differs same.1

theorem sweep (world : World) : Dwindling name world world.sweep :=
  lasting.trans (modifyDocuments world fun _ _ member => (List.mem_filter.1 member).1)
    (tolerant.releaseUnheld _)

theorem forget (world : World) (other : String) : Dwindling name world (world.forget other) :=
  lasting.trans (modifyDocuments world fun _ _ member => (List.mem_filter.1 member).1)
    (tolerant.releaseUnheld _)

/-- A document that is read from a file has another name. -/
theorem reload (kind : world.source.map Source.kind = after.source.map Source.kind)
    (other : String) :
    Dwindling name after ((reloadDocument (world.source.map Source.kind) other).eval after).2 := by
  intro unfiled
  rw [kind]
  by_cases files : ∃ settings, after.source.map Source.kind = some (.files settings)
  · obtain ⟨settings, isFiles⟩ := files
    rw [isFiles, eval_reloadDocument_of_files]
    rcases eval_readDocument settings other after with
      ⟨error, failed⟩ | ⟨path, modified, text, resolved, -, -, read⟩
    · rw [failed]
      exact lasting.refl after unfiled
    rw [read]
    have differs : name ≠ other := by
      rintro rfl
      rw [unfiled settings isFiles] at resolved
      cases resolved
    have made : Dwindling name after (after.tick.addDescriptor
        (after.fileDescriptor settings other path modified text)).2 := of_same rfl rfl
    exact lasting.trans (lasting.trans made (sweep _)) (insert _ _ differs) unfiled
  · rw [eval_reloadDocument_of_memory fun settings isFiles => files ⟨settings, isFiles⟩]
    exact forget after other unfiled

theorem fetchDocument (other : String) :
    (fetchDocument other).Keeps (Dwindling name) := by
  intro world
  rw [HostM.KeepsFrom]
  cases kept : world.kept? other with
  | none =>
      rw [eval_fetchDocument_of_absent kept]
      exact reload rfl other
  | some id =>
      have checks := isValid_keeps id world
      rw [HostM.KeepsFrom] at checks
      rw [eval_fetchDocument_of_kept kept]
      generalize (isValid id).eval world = found at checks
      have still : Dwindling name world found.2 := checked checks
      have kind : world.source.map Source.kind = found.2.source.map Source.kind := by
        rw [checks.source]
      rcases found with ⟨error | _ | _, between⟩
      · exact still
      · exact lasting.trans still (reload kind other)
      · exact still

theorem seedDocument {ε : Type} (text tag : String) (form : Option (String × ExecutableId))
    (differs : name ≠ other) :
    (seedDocument other text tag form : HostM ε _).Keeps (Dwindling name) := by
  intro world
  have fill (start : World) (id : DescriptorId) (form : String × ExecutableId) :
      Dwindling name start (start.fillSlot id form.1 form.2).2 := by
    refine of_same (source_fillSlot ..) ?_
    unfold World.fillSlot
    split <;> rfl
  rw [HostM.KeepsFrom]
  by_cases stands : ∃ id, world.kept? other = some id ∧
      (world.descriptors.get id).invalidated = false
  · obtain ⟨id, kept, unmarked⟩ := stands
    rw [eval_seedDocument_of_standing kept unmarked]
    cases form with
    | none => exact lasting.refl world
    | some form => exact fill world id form
  · have vacant (id : DescriptorId) (kept : world.kept? other = some id) :
        (world.descriptors.get id).invalidated = true :=
      Bool.of_not_eq_false fun unmarked => stands ⟨id, kept, unmarked⟩
    rw [eval_seedDocument_of_vacant vacant]
    have made : Dwindling name world (world.sweep.tick.addDescriptor
        (.ofText other world.sourceIdentifier tag text world.sweep.clock)).2 :=
      lasting.trans (sweep world) (of_same rfl rfl)
    generalize world.sweep.tick.addDescriptor _ = added at made
    cases form with
    | none => exact lasting.trans made (insert _ _ differs)
    | some form =>
        have filled := lasting.trans made (fill added.2 added.1 form)
        exact lasting.trans filled (insert _ _ differs)

theorem linkDependent (world : World) (id dependent : DescriptorId) :
    Dwindling name world (world.linkDependent id dependent) := by
  unfold World.linkDependent
  dsimp only
  split <;> exact of_same rfl rfl

/-- Planting a document of another name. -/
theorem plantInFlow (document : Document) (code tag : String) (form : String × ExecutableId)
    (differs : name ≠ other) :
    (plantInFlow document other code tag form).Keeps (Dwindling name) :=
  tolerant.plantInFlow (seedDocument code tag (some form) differs) fetchDocument linkDependent
    document

end Dwindling

namespace Unfiled

variable {name : String} {world between : World} {id : DescriptorId}

/-- There is nothing that a document could be read from. -/
theorem reload (unfiled : world.Unfiled name) :
    ((reloadDocument (world.source.map Source.kind) name).eval world).1 ≠ .ok id := by
  by_cases files : ∃ settings, world.source.map Source.kind = some (.files settings)
  · obtain ⟨settings, isFiles⟩ := files
    rw [isFiles, eval_reloadDocument_of_files]
    rcases eval_readDocument settings name world with
      ⟨error, failed⟩ | ⟨path, _, _, resolved, -, -, -⟩
    · rw [failed]
      nofun
    · rw [unfiled settings isFiles] at resolved
      cases resolved
  · rw [eval_reloadDocument_of_memory fun settings isFiles => files ⟨settings, isFiles⟩]
    nofun

/-- What is fetched under the name is what the source keeps. -/
theorem kept_of_fetched (unfiled : world.Unfiled name)
    (fetched : (DocumentHost.fetchDocument name).eval world = (.ok id, between)) :
    between.kept? name = some id := by
  cases kept : world.kept? name with
  | none =>
      rw [eval_fetchDocument_of_absent kept] at fetched
      exact absurd (congrArg Prod.fst fetched) unfiled.reload
  | some present =>
      have checks := isValid_keeps present world
      rw [HostM.KeepsFrom] at checks
      rw [eval_fetchDocument_of_kept kept] at fetched
      generalize (isValid present).eval world = found at checks fetched
      rcases found with ⟨error | _ | _, behind⟩
      · cases fetched
      · have kind : world.source.map Source.kind = behind.source.map Source.kind := by
          rw [checks.source]
        dsimp only at fetched
        rw [kind] at fetched
        exact absurd (congrArg Prod.fst fetched) ((Dwindling.checked checks unfiled).1.reload)
      · cases fetched
        rw [kept?_of_source checks.source, kept]

end Unfiled

/-! ## What is planted -/

/-- A descriptor that has been made for a text and has a form in a slot. -/
structure Seeded (world : World) (name text tag key : String) (executable : ExecutableId)
    (id : DescriptorId) : Prop where
  known : id.index < world.descriptors.size
  name : (world.descriptors.get id).name = name
  text : (world.descriptors.get id).text = text
  tag : (world.descriptors.get id).tag = tag
  slot : (world.descriptors.get id).slots.get? key = some executable

theorem Seeded.grow {world after : World} {name text tag key : String} {executable : ExecutableId}
    {id : DescriptorId} (seeded : world.Seeded name text tag key executable id)
    (grows : Grows world after) : after.Seeded name text tag key executable id := by
  have grown := grows.descriptors id seeded.known
  exact ⟨Nat.lt_of_lt_of_le seeded.known grows.size, grown.name.trans seeded.name,
    grown.text.trans seeded.text, grown.tag.trans seeded.tag,
    grown.slots _ _ seeded.slot⟩

/-- The first slot of a descriptor is filled. -/
theorem Seeded.fillSlot {world : World} {id : DescriptorId}
    (known : id.index < world.descriptors.size) {descriptor : Descriptor}
    (found : world.descriptors.get id = descriptor) (empty : descriptor.slots = {}) (key : String)
    (executable : ExecutableId) :
    (world.fillSlot id key executable).2.Seeded descriptor.name descriptor.text descriptor.tag key
      executable id := by
  have filled : (world.fillSlot id key executable).2.descriptors.get id =
      { descriptor with slots := descriptor.slots.insert key executable } := by
    have vacant : (world.descriptors.get id).slots.get? key = none := by
      rw [found, empty]
      rfl
    rw [World.fillSlot, vacant, World.modifyDescriptor, Arena.get_modify_self _ _ known, found]
  refine ⟨by rwa [size_fillSlot], ?_, ?_, ?_, ?_⟩
  all_goals rw [filled]
  exact NameTable.get?_insert_self ..

theorem Lacks.seedDocument {ε : Type} {world : World} {name : String} (lacks : world.Lacks name)
    (text tag key : String) (executable : ExecutableId) :
    ∃ id after, ¬id.index < world.descriptors.size ∧
      (seedDocument name text tag (some (key, executable)) : HostM ε _).eval world =
        (.ok id, after) ∧
      after.Seeded name text tag key executable id := by
  have vacant (id : DescriptorId) (kept : world.kept? name = some id) :
      (world.descriptors.get id).invalidated = true := by
    rw [lacks.kept] at kept
    cases kept
  let descriptor := Descriptor.ofText name world.sourceIdentifier tag text world.sweep.clock
  have keeps (made : World) (id : DescriptorId) (known : id.index < made.descriptors.size)
      (found : made.descriptors.get id = descriptor) :
      Seeded ((made.fillSlot id key executable).2.modifyDocuments fun documents =>
        documents.insert name id) name text tag key executable id :=
    (Seeded.fillSlot known found rfl key executable).grow (.of_descriptors rfl)
  refine ⟨_, _, ?_, eval_seedDocument_of_vacant vacant, keeps _ _ (Arena.known_add ..)
    (Arena.get_add_self ..)⟩
  change ¬world.sweep.descriptors.size < world.descriptors.size
  rw [descriptors_sweep]
  exact Nat.lt_irrefl _

/-- Whether it is made to depend on its document or not, what is planted stays. -/
theorem Lacks.plantInFlow {world : World} {name : String} (lacks : world.Lacks name)
    (document : Document) (code tag key : String) (executable : ExecutableId) :
    ∃ id, ¬id.index < world.descriptors.size ∧
      Seeded ((plantInFlow document name code tag (key, executable)).eval world).2
        name code tag key executable id := by
  obtain ⟨id, between, isNew, seeds, seeded⟩ :=
    lacks.seedDocument (ε := ParsingError) code tag key executable
  have attaches := Grows.tolerant.attachInFlow Grows.documenting.fetchDocument
    (fun start parent => Grows.linkDependent start parent id) document between
  rw [plantInFlow_eq, HostM.eval_bind_of_ok seeds]
  exact ⟨id, isNew, seeded.grow attaches⟩

/-- The segments of a document that is one program in a language. -/
def OneProgram (world : World) (setting : Setting) (language : String) (document : Document)
    (segments : List Segment) : Prop :=
  ∃ adapter ∈ world.declaring setting.registry AdapterProfile.tags language, ∃ program,
    ((world.adapters.get adapter).adapter.compile
      ⟨document.text, document.place .start, false⟩).outcome = .ok program ∧
    segments = [.program document.text language .start adapter program]

theorem OneProgram.of_sameAdapters {world after : World} {setting : Setting} {language : String}
    {document : Document} {segments : List Segment}
    (one : after.OneProgram setting language document segments) (same : SameAdapters world after) :
    world.OneProgram setting language document segments := by
  obtain ⟨adapter, declares, program, compiled, rfl⟩ := one
  refine ⟨adapter, ?_, program, ?_, rfl⟩
  · rw [same.declaring]
    exact declares
  · rw [same.1]
    exact compiled

/-- In-flow code is compiled in its own language, whatever language its document is in. -/
theorem oneProgram_of_programSegments {world after : World} {setting : Setting}
    {language : String} {document : Document} {segments : List Segment}
    (compiled : (programSegments (setting.forInFlow language) document).eval world =
      (.ok segments, after)) : world.OneProgram setting language document segments := by
  rw [programSegments, HostM.eval_bind_of_ok (HostM.eval_get _)] at compiled
  have initial : world.initialTag (setting.forInFlow language) document = some language := rfl
  dsimp only at compiled
  rw [initial, compileSegments] at compiled
  obtain ⟨segment, between, first, rest⟩ := HostM.eval_bind_eq_ok_iff.1 compiled
  cases rest
  rw [compileSegment] at first
  dsimp only at first
  obtain ⟨adapter, _, required, translated⟩ := HostM.eval_bind_eq_ok_iff.1 first
  obtain ⟨found, rfl⟩ := eval_requireAdapter_eq_ok_iff.1 required
  rw [HostM.eval_bind_of_ok (HostM.eval_get _)] at translated
  obtain ⟨program, _, reported, ends⟩ := HostM.eval_bind_eq_ok_iff.1 translated
  cases ends
  rw [HostM.eval_ofReported] at reported
  exact ⟨adapter, mem_declaring_of_adapterForTag found, program, congrArg Prod.fst reported, rfl⟩

end World

/-- In-flow code as a document of its own. -/
def Document.inFlow (document : Document) (name code : String) : Document where
  name := name
  partition := document.partition
  text := code
  timestamp := document.timestamp

/-- In-flow code that has been seeded was compiled as a document of its own, and then planted. -/
theorem exists_of_seedInFlow {world after : World} {setting : Setting} {document : Document}
    {name code language : String}
    (seeds : (seedInFlow setting document name code language).eval world = (.ok (), after)) :
    ∃ segments executable between,
      world.OneProgram setting language (document.inFlow name code) segments ∧
      between.Form executable (setting.forInFlow language) (document.inFlow name code) segments ∧
      (∀ {Related : World → World → Prop}, Tolerant Related → Related world between) ∧
      (plantInFlow document name code language
        (setting.options.forIncludes.compileKey, executable)).eval between = (.ok (), after) := by
  rw [seedInFlow_eq] at seeds
  dsimp only at seeds
  obtain ⟨segments, first, compiled, seeds⟩ := HostM.eval_bind_eq_ok_iff.1 seeds
  obtain ⟨executable, between, made, plants⟩ := HostM.eval_bind_eq_ok_iff.1 seeds
  exact ⟨segments, executable, between, oneProgram_of_programSegments compiled,
    .of_makeExecutable made, fun tolerant =>
      tolerant.lasting.trans ((tolerant.programSegments _ _).leads compiled)
        ((tolerant.makeExecutable _ _ _).leads made), plants⟩

/-- In-flow code is in the source when it has been seeded, and so is what it was compiled to. -/
theorem World.Lacks.seedInFlow {world after : World} {name : String} (lacks : world.Lacks name)
    {setting : Setting} {document : Document} {code language : String}
    (seeds : (seedInFlow setting document name code language).eval world = (.ok (), after)) :
    ∃ id executable segments, ¬id.index < world.descriptors.size ∧
      world.OneProgram setting language (document.inFlow name code) segments ∧
      after.Seeded name code language setting.options.forIncludes.compileKey executable id ∧
      after.Form executable (setting.forInFlow language) (document.inFlow name code) segments := by
  obtain ⟨segments, executable, second, one, form, keeps, plants⟩ := exists_of_seedInFlow seeds
  obtain ⟨id, isNew, seeded⟩ := ((keeps Dwindling.tolerant).lacks lacks).plantInFlow document code
    language setting.options.forIncludes.compileKey executable
  rw [plants] at seeded
  have programs := (SamePrograms.heedless.plantInFlow document name code language _).leads plants
  refine ⟨id, executable, segments, fun known => isNew ?_, one, seeded, form.later programs⟩
  exact Nat.lt_of_lt_of_le known (keeps Grows.tolerant).size

end DocumentHost
