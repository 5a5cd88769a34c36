import DocumentHost.Proofs.Host.InFlow

/-!
# In-flow names that documents share

In-flow code goes into the source under a name that is made from the partition, the name and the
timestamp of its document and from its number.  The text is not part of it, and the first form
that stands under a name and a key stays.  So what a document finds under the name of its code
has been compiled from in-flow code that gives this name, but not always from its own: a document
that is compiled again with another text and the same timestamp runs the code of the first text.
-/

namespace DocumentHost

open World

/-! ## Slots that are filled -/

namespace World

/-- No slot is filled in between. -/
def FillsNone (world after : World) : Prop :=
  ∀ id key executable, after.slot? id key = some executable →
    world.slot? id key = some executable

namespace FillsNone

variable {world after : World}

theorem lasting : Lasting FillsNone where
  refl _ _ _ _ slot := slot
  trans first second id key executable slot :=
    first id key executable (second id key executable slot)

theorem of_slots
    (same : ∀ id, (after.descriptors.get id).slots = (world.descriptors.get id).slots) :
    FillsNone world after := by
  intro id key executable slot
  rwa [slot?, same] at slot

theorem of_descriptors (descriptors : after.descriptors = world.descriptors) :
    FillsNone world after :=
  of_slots fun id => by rw [descriptors]

theorem tolerant : Tolerant FillsNone :=
  .of_asides lasting fun aside => of_descriptors aside.descriptors

theorem checked (checked : Checked world after) : FillsNone world after := by
  refine of_slots fun id => ?_
  obtain ⟨_, _, _, same⟩ := checked.same id
  rw [same]

/-- A descriptor that is made has no forms. -/
theorem addDescriptor (world : World) {name : String} {descriptor : Descriptor}
    (fresh : descriptor.Fresh name) : FillsNone world (world.addDescriptor descriptor).2 :=
  of_slots (Arena.map_get_add Descriptor.slots world.descriptors fresh.slots)

theorem fetching : Fetching FillsNone :=
  .of_descriptors lasting of_descriptors checked fun world settings name path modified text =>
    addDescriptor world.tick (world.fresh_fileDescriptor settings name path modified text)

theorem linkDependent (world : World) (id dependent : DescriptorId) :
    FillsNone world (world.linkDependent id dependent) := by
  obtain ⟨-, -, same⟩ := get_linkDependent world id dependent
  refine of_slots fun other => ?_
  obtain ⟨_, _, changed⟩ := same other
  rw [changed]

theorem attachInFlow (document : Document) (seeded : DescriptorId) :
    (attachInFlow document seeded).Keeps FillsNone :=
  tolerant.attachInFlow fetching.fetchDocument
    (fun world id => linkDependent world id seeded) document

end FillsNone

/-- Filling a slot fills no other one. -/
theorem eq_of_slot?_fillSlot {world : World} {id other : DescriptorId} {key otherKey : String}
    {executable present : ExecutableId}
    (slot : (world.fillSlot id key executable).2.slot? other otherKey = some present) :
    world.slot? other otherKey = some present ∨
      other = id ∧ otherKey = key ∧ present = executable := by
  unfold World.fillSlot at slot
  split at slot
  · exact .inl slot
  rw [slot?, World.modifyDescriptor, Arena.get_modify] at slot
  split at slot
  · rename_i here
    by_cases sameKey : otherKey = key
    · rw [sameKey, NameTable.get?_insert_self] at slot
      exact .inr ⟨here.1, sameKey, (Option.some.inj slot).symm⟩
    · rw [NameTable.get?_insert_of_ne _ _ sameKey] at slot
      rw [here.1]
      exact .inl slot
  · exact .inl slot

theorem known_of_slot? {world : World} {id : DescriptorId} {key : String}
    {executable : ExecutableId} (slot : world.slot? id key = some executable) :
    id.index < world.descriptors.size := by
  refine Arena.known_of_ne_default fun absent => ?_
  rw [slot?, absent] at slot
  cases slot

/-- Slots are filled in between only with what is permitted under the name of the descriptor and
the key, when all is done. -/
structure Fills (permitted : World → String → String → ExecutableId → Prop)
    (world after : World) : Prop where
  grows : Grows world after
  programs : SamePrograms world after
  slots : ∀ id key executable, after.slot? id key = some executable →
    world.slot? id key = some executable ∨
      permitted after (after.descriptors.get id).name key executable

namespace Fills

variable {permitted weaker : World → String → String → ExecutableId → Prop}
  {world between after : World}

theorem none (grows : Grows world after) (programs : SamePrograms world after)
    (fillsNone : FillsNone world after) : Fills permitted world after :=
  ⟨grows, programs, fun id key executable slot => .inl (fillsNone id key executable slot)⟩

theorem refl (world : World) : Fills permitted world world :=
  none (Grows.lasting.refl world) (SamePrograms.lasting.refl world) (FillsNone.lasting.refl world)

theorem mono (fills : Fills permitted world after)
    (weaken : ∀ name key executable, permitted after name key executable →
      weaker after name key executable) : Fills weaker world after :=
  ⟨fills.grows, fills.programs, fun id key executable slot =>
    (fills.slots id key executable slot).imp_right (weaken _ _ _)⟩

/-- What was permitted when a slot was filled has to be permitted as long as programs are what
they are. -/
theorem trans
    (stable : ∀ {world after : World} {name key : String} {executable : ExecutableId},
      SamePrograms world after → permitted world name key executable →
        permitted after name key executable)
    (first : Fills permitted world between) (second : Fills permitted between after) :
    Fills permitted world after := by
  refine ⟨Grows.lasting.trans first.grows second.grows,
    SamePrograms.lasting.trans first.programs second.programs, fun id key executable slot => ?_⟩
  rcases second.slots id key executable slot with before | filled
  · rcases first.slots id key executable before with atFirst | filled
    · exact .inl atFirst
    · rw [(second.grows.descriptors id (known_of_slot? before)).name]
      exact .inr (stable second.programs filled)
  · exact .inr filled

end Fills

end World

/-! ## What a seeding leaves -/

namespace World

/-- There is a form under a name and a key, in a descriptor that was not marked before. -/
structure Filled (world after : World) (name key : String) (executable : ExecutableId)
    (id : DescriptorId) : Prop where
  known : id.index < after.descriptors.size
  named : (after.descriptors.get id).name = name
  slot : after.slot? id key = some executable
  unmarked : (world.descriptors.get id).invalidated = false

namespace Filled

variable {world between after : World} {name key : String} {executable : ExecutableId}
  {id : DescriptorId}

theorem later (filled : Filled world between name key executable id)
    (grows : Grows between after) : Filled world after name key executable id := by
  have grown := grows.descriptors id filled.known
  exact ⟨Nat.lt_of_lt_of_le filled.known grows.size, grown.name.trans filled.named,
    grown.slots _ _ filled.slot, filled.unmarked⟩

theorem earlier (filled : Filled between after name key executable id)
    (progress : Descriptors.Progress world.descriptors between.descriptors) :
    Filled world after name key executable id :=
  { filled with
    unmarked := Bool.of_not_eq_true fun marked =>
      absurd (progress.marked id marked) (Bool.eq_false_iff.1 filled.unmarked) }

theorem seeded (filled : Filled world after name key executable id) :
    after.Seeded name (after.descriptors.get id).text (after.descriptors.get id).tag key
      executable id :=
  ⟨filled.known, filled.named, rfl, rfl, filled.slot⟩

end Filled

/-- Seeding fills one slot, in a descriptor that stands under the name or has just been made. -/
theorem Tended.exists_fillSlot_of_seeds {ε : Type} {world after : World}
    (tended : Tended [] world) {name text tag key : String} {executable : ExecutableId}
    {id : DescriptorId}
    (seeds : (seedDocument name text tag (some (key, executable)) : HostM ε _).eval world =
      (.ok id, after)) :
    ∃ before, FillsNone world before ∧ id.index < before.descriptors.size ∧
      after.descriptors = (before.fillSlot id key executable).2.descriptors := by
  by_cases stands : ∃ standing, world.kept? name = some standing ∧
      (world.descriptors.get standing).invalidated = false
  · obtain ⟨standing, kept, unmarked⟩ := stands
    rw [eval_seedDocument_of_standing kept unmarked] at seeds
    cases seeds
    exact ⟨world, FillsNone.lasting.refl world,
      tended.known name id (mem_documentEntries_of_kept kept), rfl⟩
  · have vacant (standing : DescriptorId) (kept : world.kept? name = some standing) :
        (world.descriptors.get standing).invalidated = true :=
      Bool.of_not_eq_false fun unmarked => stands ⟨standing, kept, unmarked⟩
    rw [eval_seedDocument_of_vacant vacant] at seeds
    cases seeds
    have swept : FillsNone world world.sweep.tick := .of_descriptors (descriptors_sweep world)
    have made : FillsNone world.sweep.tick (world.sweep.tick.addDescriptor _).2 :=
      .addDescriptor world.sweep.tick
        (Descriptor.fresh_ofText name world.sourceIdentifier tag text world.sweep.clock)
    exact ⟨_, FillsNone.lasting.trans swept made, Arena.known_add ..,
      World.descriptors_modifyDocuments ..⟩

/-- Whether there is a document of the name or not, it has a form under the key when one has been
seeded, and no other slot has been filled. -/
theorem Tended.seed_fills {ε : Type} {world after : World} (tended : Tended [] world)
    {name text tag key : String} {executable : ExecutableId} {id : DescriptorId}
    (seeds : (seedDocument name text tag (some (key, executable)) : HostM ε _).eval world =
      (.ok id, after)) :
    (∃ present, Filled world after name key present id) ∧
      Fills (fun _ filledName filledKey filler =>
        filledName = name ∧ filledKey = key ∧ filler = executable) world after := by
  obtain ⟨tends, there, found, -, newly⟩ : Tends (fun _ => True) world [] _ ∧ _ :=
    tended.seed (ε := ε) name text tag (some (key, executable)) trivial
  rw [seeds] at tends found newly
  cases found
  have unmarked : (world.descriptors.get id).invalidated = false :=
    Bool.of_not_eq_true fun marked =>
      absurd (tends.continues.progress.marked id marked) (Bool.eq_false_iff.1 newly.unmarked)
  obtain ⟨before, fillsNone, known, descriptors⟩ := tended.exists_fillSlot_of_seeds seeds
  have slots (other : DescriptorId) (otherKey : String) :
      after.slot? other otherKey =
        (before.fillSlot id key executable).2.slot? other otherKey := by
    rw [slot?, descriptors, slot?]
  refine ⟨⟨_, newly.known, newly.named, (slots id key).trans (slot?_fillSlot _ _ _ known),
    unmarked⟩, (Grows.documenting.seedDocument name text tag _).leads seeds,
    (SamePrograms.heedless.documenting.seedDocument name text tag _).leads seeds, ?_⟩
  intro other otherKey present slot
  rw [slots] at slot
  rcases eq_of_slot?_fillSlot slot with filled | ⟨rfl, rfl, rfl⟩
  · exact .inl (fillsNone other otherKey present filled)
  · exact .inr ⟨newly.named, rfl, rfl⟩

/-- What has been seeded may still become invalid when it is made to depend on its document. -/
theorem Tended.plant_fills {world : World} (tended : Tended [] world) (document : Document)
    (name code tag key : String) (executable : ExecutableId) :
    (∃ id present, Filled world
        ((plantInFlow document name code tag (key, executable)).eval world).2 name key present id) ∧
      Fills (fun _ filledName filledKey filler =>
        filledName = name ∧ filledKey = key ∧ filler = executable) world
        ((plantInFlow document name code tag (key, executable)).eval world).2 := by
  obtain ⟨-, id, found, -, -⟩ : Tends (fun _ => True) world [] _ ∧ _ :=
    tended.seed (ε := ParsingError) name code tag (some (key, executable)) trivial
  rcases seeds : (seedDocument name code tag (some (key, executable)) : HostM ParsingError _).eval
    world with ⟨outcome, between⟩
  rw [seeds] at found
  obtain rfl : outcome = .ok id := found
  rw [plantInFlow_eq, HostM.eval_bind_of_ok seeds]
  obtain ⟨⟨present, filled⟩, fills⟩ := tended.seed_fills seeds
  have grows := Grows.tolerant.attachInFlow Grows.documenting.fetchDocument
    (fun start parent => Grows.linkDependent start parent id) document between
  have programs := SamePrograms.tolerant.attachInFlow SamePrograms.heedless.documenting.fetchDocument
    (fun start parent => SamePrograms.heedless.linkDependent start parent id) document between
  have attaches := FillsNone.attachInFlow document id between
  exact ⟨⟨id, present, filled.later grows⟩,
    fills.trans (fun _ permits => permits) (.none grows programs attaches)⟩

end World

/-! ## One compilation -/

/-- One of some in-flow codes of a document has the name and has been compiled. -/
def StemsFrom (codes : List InFlowCode) (setting : Setting) (document : Document) (world : World)
    (after : World) (name key : String) (executable : ExecutableId) : Prop :=
  ∃ code ∈ codes, code.name document = name ∧ setting.options.forIncludes.compileKey = key ∧
    code.Made setting document world after executable

namespace StemsFrom

variable {codes more : List InFlowCode} {setting : Setting} {document : Document}
  {world between after further : World} {name key : String} {executable : ExecutableId}

theorem later (stems : StemsFrom codes setting document world after name key executable)
    (programs : SamePrograms after further) :
    StemsFrom codes setting document world further name key executable := by
  obtain ⟨code, member, named, isKey, segments, one, form⟩ := stems
  exact ⟨code, member, named, isKey, segments, one, form.later programs⟩

theorem earlier (stems : StemsFrom codes setting document between after name key executable)
    (adapters : SameAdapters world between) (included : codes ⊆ more) :
    StemsFrom more setting document world after name key executable := by
  obtain ⟨code, member, named, isKey, segments, one, form⟩ := stems
  exact ⟨code, included member, named, isKey, segments, one.of_sameAdapters adapters, form⟩

end StemsFrom

section OneCompilation

variable {setting : Setting} {document : Document} {world after : World}

/-- Whatever stands under the name of in-flow code, there is a form under it when the code has
been seeded. -/
theorem fills_of_seedInFlow (tended : Tended [] world) (code : InFlowCode)
    (seeds : (seedInFlow setting document (code.name document) code.text code.language).eval
      world = (.ok (), after)) :
    (∃ id present, Filled world after (code.name document)
        setting.options.forIncludes.compileKey present id) ∧
      Fills (StemsFrom [code] setting document world) world after := by
  obtain ⟨segments, executable, second, one, form, keeps, plants⟩ := exists_of_seedInFlow seeds
  have changes : Changes (fun _ => False) world second := keeps Changes.tolerant
  have tends := tended.changes changes
  obtain ⟨⟨id, present, filled⟩, fills⟩ := tends.tended.plant_fills document
    (code.name document) code.text code.language setting.options.forIncludes.compileKey executable
  rw [plants] at filled fills
  refine ⟨⟨id, present, filled.earlier tends.continues.progress⟩, ?_⟩
  have before : Fills (StemsFrom [code] setting document world) world second :=
    .none (keeps Grows.tolerant) (keeps SamePrograms.tolerant) (keeps FillsNone.tolerant)
  refine before.trans (fun programs stems => StemsFrom.later stems programs) (fills.mono ?_)
  rintro _ _ _ ⟨rfl, rfl, rfl⟩
  exact ⟨code, List.mem_singleton_self _, rfl, rfl, segments, one, form.later fills.programs⟩

/-- For a scriptlet that is not in-flow code in another language nothing is done. -/
theorem eq_of_inFlowCode?_eq_none {tag nextTag : Option String} {number : Nat}
    {body : List Char} {position : Position} {segment : Option RawSegment}
    (noCode : inFlowCode? setting.options.markers tag number body = none)
    (treated : (scriptletSegment setting document tag number body position).eval world =
      (.ok (segment, nextTag), after)) : after = world := by
  rw [inFlowCode?] at noCode
  rw [scriptletSegment] at treated
  dsimp only at noCode treated
  split at treated
  · cases treated
    rfl
  split at treated
  · cases treated
  rename_i language chosen
  rw [chosen] at noCode
  dsimp only at noCode
  obtain ⟨_, _, required, further⟩ := HostM.eval_bind_eq_ok_iff.1 treated
  obtain ⟨-, rfl⟩ := eval_requireAdapter_eq_ok_iff.1 required
  rw [HostM.eval_bind_of_ok (HostM.eval_get _)] at further
  split at further
  · obtain ⟨_, _, coded, ends⟩ := HostM.eval_bind_eq_ok_iff.1 further
    cases ends
    rw [codeForExpression, HostM.eval_bind_of_ok (HostM.eval_get _), HostM.eval_ofExcept] at coded
    exact (congrArg Prod.snd coded).symm
  · obtain ⟨_, _, coded, ends⟩ := HostM.eval_bind_eq_ok_iff.1 further
    cases ends
    rw [codeForInclude, HostM.eval_bind_of_ok (HostM.eval_get _), HostM.eval_ofExcept] at coded
    exact (congrArg Prod.snd coded).symm
  · split at further
    · cases further
      rfl
    · rename_i isInFlow differs
      rw [if_pos ⟨isInFlow, differs⟩] at noCode
      cases noCode
  · cases further
    rfl

/-- By induction on the pieces: what one piece fills stays filled when those behind it are
treated. -/
theorem fills_of_segmentsOfPieces {closing : String} {pieces : List Piece} {tag : Option String}
    {number : Nat} {raw : List RawSegment} (tended : Tended [] world)
    (split : (segmentsOfPieces setting document closing tag number pieces).eval world =
      (.ok raw, after)) :
    (∀ code ∈ inFlowCodesOfPieces setting document tag number pieces world,
        setting.sourced = true ∧ ∃ id present, Filled world after (code.name document)
          setting.options.forIncludes.compileKey present id) ∧
      Fills (StemsFrom (inFlowCodesOfPieces setting document tag number pieces world) setting
        document world) world after := by
  induction pieces generalizing tag number raw world with
  | nil =>
      cases split
      exact ⟨nofun, .refl _⟩
  | cons piece rest ih =>
      cases piece with
      | literal text position =>
          obtain ⟨others, between, ends, others⟩ := HostM.eval_bind_eq_ok_iff.1 split
          cases others
          exact ih tended ends
      | unclosed position => cases split
      | scriptlet body position =>
          obtain ⟨⟨segment, nextTag⟩, between, treated, further⟩ :=
            HostM.eval_bind_eq_ok_iff.1 split
          obtain ⟨others, ends⟩ : ∃ others,
              (segmentsOfPieces setting document closing nextTag (number + segment.toList.length)
                rest).eval between = (.ok others, after) := by
            cases segment with
            | none => exact ⟨raw, further⟩
            | some first =>
                obtain ⟨others, _, ends, isRaw⟩ := HostM.eval_bind_eq_ok_iff.1 further
                cases isRaw
                exact ⟨others, ends⟩
          rw [inFlowCodesOfPieces, treated]
          dsimp only
          cases isCode : inFlowCode? setting.options.markers tag number body with
          | none =>
              obtain rfl := eq_of_inFlowCode?_eq_none isCode treated
              exact ih tended ends
          | some code =>
              obtain ⟨sourced, -, seeds⟩ := seedInFlow_of_scriptletSegment isCode treated
              obtain ⟨⟨id, present, filled⟩, fills⟩ := fills_of_seedInFlow tended code seeds
              have changes : Changes (fun _ => False) world between :=
                (Changes.tolerant.scriptletSegment
                  (fun code tag form _ => .single (.plant document _ code tag form))
                  setting _ _ _).leads treated
              have tends := tended.changes changes
              have adapters : SameAdapters world between :=
                (SameAdapters.tolerant.scriptletSegment (SameAdapters.heedless.plantInFlow document _)
                  setting _ _ _).leads treated
              obtain ⟨found, behind⟩ := ih tends.tended ends
              refine ⟨fun other member => ?_, ?_⟩
              · rcases List.mem_cons.1 member with rfl | inRest
                · exact ⟨sourced, id, present, filled.later behind.grows⟩
                · obtain ⟨-, otherId, form, there⟩ := found other inRest
                  exact ⟨sourced, otherId, form, there.earlier tends.continues.progress⟩
              · refine (fills.mono fun _ _ _ stems => ?_).trans
                  (fun programs stems => StemsFrom.later stems programs)
                  (behind.mono fun _ _ _ stems => ?_)
                · exact stems.earlier (SameAdapters.lasting.refl world) (by simp)
                · exact stems.earlier adapters (by simp)

/-- A document with scriptlets is compiled: there is a form for each of its in-flow codes, and
all slots that were filled hold what the codes were compiled to. -/
theorem fills_of_newExecutable {executable : ExecutableId} (tended : Tended [] world)
    (parser : setting.options.parser = scriptletsParser)
    (made : (newExecutable setting document).eval world = (.ok executable, after)) :
    (∃ segments, after.Form executable setting document segments) ∧
      (∀ code ∈ world.inFlowCodes setting document,
        setting.sourced = true ∧ ∃ id present, Filled world after (code.name document)
          setting.options.forIncludes.compileKey present id) ∧
      Fills (StemsFrom (world.inFlowCodes setting document) setting document world) world
        after := by
  simp only [newExecutable, parser] at made
  rw [if_neg (by decide), if_neg (by decide), if_pos trivial] at made
  obtain ⟨segments, compiled, done, makes⟩ := HostM.eval_bind_eq_ok_iff.1 made
  refine ⟨⟨segments, .of_makeExecutable makes⟩, ?_⟩
  obtain ⟨raw, split, splits, merged⟩ := HostM.eval_bind_eq_ok_iff.1 done
  rw [HostM.eval_bind_of_ok (HostM.eval_get _)] at merged
  have keeps {Related : World → World → Prop} (tolerant : Tolerant Related) :
      Related split after :=
    tolerant.lasting.trans ((tolerant.compileSegments _ _ _ _).leads merged)
      ((tolerant.makeExecutable _ _ _).leads makes)
  rw [World.inFlowCodes]
  rw [splitDocument, HostM.eval_bind_of_ok (HostM.eval_get _)] at splits
  dsimp only at splits
  have onward {codes : List InFlowCode}
      (fills : Fills (StemsFrom codes setting document world) world split) :
      Fills (StemsFrom codes setting document world) world after :=
    fills.trans (fun programs stems => StemsFrom.later stems programs)
      (.none (keeps Grows.tolerant) (keeps SamePrograms.tolerant) (keeps FillsNone.tolerant))
  cases found : Fence.ofDocument? setting.options.delimiters document.text.toList with
  | none =>
      rw [found] at splits
      cases splits
      exact ⟨List.forall_mem_nil _, onward (.refl _)⟩
  | some fence =>
      rw [found] at splits
      obtain ⟨forms, fills⟩ := fills_of_segmentsOfPieces tended splits
      refine ⟨fun code member => ?_, onward fills⟩
      obtain ⟨sourced, id, present, filled⟩ := forms code member
      exact ⟨sourced, id, present, filled.later (keeps Grows.tolerant)⟩

end OneCompilation

/-! ## One compilation after the other -/

/-- A document with scriptlets that has been compiled. -/
structure Compilation where
  setting : Setting
  document : Document
  /-- The state in which it was begun. -/
  world : World
  executable : ExecutableId

namespace Compilation

/-- The in-flow codes of the document. -/
def codes (compilation : Compilation) : List InFlowCode :=
  compilation.world.inFlowCodes compilation.setting compilation.document

/-- The key of what the document includes. -/
def key (compilation : Compilation) : String :=
  compilation.setting.options.forIncludes.compileKey

end Compilation

/-- Documents with scriptlets are compiled one after the other. -/
inductive Compilations : World → List Compilation → World → Prop where
  | none (world : World) : Compilations world [] world
  | cons {setting : Setting} {document : Document} {executable : ExecutableId}
      {world between after : World} {rest : List Compilation}
      (parser : setting.options.parser = scriptletsParser)
      (made : (newExecutable setting document).eval world = (.ok executable, between))
      (further : Compilations between rest after) :
      Compilations world (⟨setting, document, world, executable⟩ :: rest) after

/-- An in-flow code of one of some compilations has the name and goes under the key. -/
def Stems (history : List Compilation) (after : World) (name key : String)
    (executable : ExecutableId) : Prop :=
  ∃ made ∈ history,
    StemsFrom made.codes made.setting made.document made.world after name key executable

theorem Stems.later {history : List Compilation} {after further : World} {name key : String}
    {executable : ExecutableId} (stems : Stems history after name key executable)
    (programs : SamePrograms after further) : Stems history further name key executable := by
  obtain ⟨made, member, from_⟩ := stems
  exact ⟨made, member, StemsFrom.later from_ programs⟩

namespace Compilations

variable {allowed : Bond → Prop} {world after : World} {history : List Compilation}

theorem changes (compilations : Compilations world history after) :
    Changes allowed world after := by
  induction compilations with
  | none world => exact .refl
  | @cons setting document _ world _ _ _ _ made _ ih =>
      have compiles : Acts allowed world ((newExecutable setting document).eval world).2 :=
        .compile setting document
      rw [made] at compiles
      exact compiles.changes.trans ih

/-- By induction on the compilations: what one of them fills stays filled, and those behind it
fill slots only with what their own codes are compiled to. -/
theorem fills (compilations : Compilations world history after) (tended : Tended [] world) :
    (∀ made ∈ history,
      (∃ segments, after.Form made.executable made.setting made.document segments) ∧
        ∀ code ∈ made.codes, made.setting.sourced = true ∧
          ∃ id present, Filled world after (code.name made.document) made.key present id) ∧
      Fills (Stems history) world after := by
  induction compilations with
  | none world => exact ⟨List.forall_mem_nil _, .refl world⟩
  | @cons setting document executable world between after rest parser made further ih =>
      have compiles : Acts (fun _ => False) world ((newExecutable setting document).eval world).2 :=
        .compile setting document
      rw [made] at compiles
      have tends := tended.changes compiles.changes
      obtain ⟨⟨segments, form⟩, found, filled⟩ := fills_of_newExecutable tended parser made
      obtain ⟨others, behind⟩ := ih tends.tended
      refine ⟨fun compilation member => ?_, ?_⟩
      · rcases List.mem_cons.1 member with rfl | inRest
        · refine ⟨⟨segments, form.later behind.programs⟩, fun code stands => ?_⟩
          obtain ⟨sourced, id, present, there⟩ := found code stands
          exact ⟨sourced, id, present, there.later behind.grows⟩
        · obtain ⟨isForm, forms⟩ := others compilation inRest
          refine ⟨isForm, fun code stands => ?_⟩
          obtain ⟨sourced, id, present, there⟩ := forms code stands
          exact ⟨sourced, id, present, there.earlier tends.continues.progress⟩
      · refine (filled.mono fun _ _ _ stems => ?_).trans
          (fun programs stems => Stems.later stems programs)
          (behind.mono fun _ _ _ stems => ?_)
        · exact ⟨_, List.mem_cons_self, stems⟩
        · obtain ⟨source, member, stemsFrom⟩ := stems
          exact ⟨source, List.mem_cons_of_mem _ member, stemsFrom⟩

end Compilations

/-- What was there under the names of in-flow codes before has been compiled from none of them:
so the names have to be free, and then every form that is found stems from the history. -/
theorem Stems.of_filled {world after : World} {history : List Compilation} {name key : String}
    {executable : ExecutableId} {id : DescriptorId} (tended : Tended [] world)
    (lacks : world.Lacks name) (filled : Filled world after name key executable id)
    (fills : Fills (Stems history) world after) : Stems history after name key executable := by
  rcases fills.slots id key executable filled.slot with before | stems
  · have known := known_of_slot? before
    have named := (fills.grows.descriptors id known).name.symm.trans filled.named
    have kept := (tended.kept id known filled.unmarked).resolve_right List.not_mem_nil
    rw [named, lacks.kept] at kept
    cases kept
  · rwa [filled.named] at stems

/-- Documents with scriptlets are compiled one after the other.  For each in-flow code of one of
them whose name was not in use before there is a form then, and it has been compiled from in-flow
code of one of them that gives the same name; so it is that of the code itself if no other document
gives the name.  From then on its descriptor is the one under
the name until it is marked, and for as long as it is valid, an include of the name by the
document runs the form. -/
theorem inFlow_run_as_compiled_among {allowed : Bond → Prop} {origin world after : World}
    (unused : origin.Unused) (run : ActsOn allowed origin world) {history : List Compilation}
    (compilations : Compilations world history after) {made : Compilation}
    (member : made ∈ history) {code : InFlowCode} (stands : code ∈ made.codes)
    (lacks : world.Lacks (code.name made.document)) :
    ∃ id inFlow, ∃ source ∈ history, ∃ like ∈ source.codes,
      like.name source.document = code.name made.document ∧ source.key = made.key ∧
      ((∀ other ∈ history, ∀ number,
          inFlowDocumentName other.document number = code.name made.document → other = made) →
        source = made ∧ like = code) ∧
      ∀ later, Proceeds allowed after later →
        like.Made source.setting source.document source.world later inFlow ∧
        ((later.descriptors.get id).invalidated = false →
          later.kept? (code.name made.document) = some id) ∧
        ∀ levels context,
          ((isValid id).eval { later with includeDepth := later.includeDepth + 1 }).1 = .ok true →
          (includeWithin (levels + 1) made.executable (code.name made.document) context).eval
              later =
            (asInclude (code.name made.document) do
              let _ ← (isValid id).convert ExecutionError.ofDocument
              runObtained levels (later.executables.get made.executable)
                (code.name made.document) inFlow context).eval later := by
  have tended : Tended [] world := (unused.tended.changes run.changes).tended
  obtain ⟨forms, fills⟩ := compilations.fills tended
  obtain ⟨⟨segments, form⟩, codes⟩ := forms made member
  obtain ⟨sourced, id, inFlow, filled⟩ := codes code stands
  obtain ⟨source, isSource, like, isLike, named, isKey, isMade⟩ :=
    Stems.of_filled tended lacks filled fills
  refine ⟨id, inFlow, source, isSource, like, isLike, named, isKey, fun alone => ?_,
    fun later proceeds => ?_⟩
  · obtain rfl := alone source isSource like.number named
    exact ⟨rfl, List.inj_on_of_nodup_map (source.world.nodup_inFlowCodes ..) isLike stands named⟩
  · obtain ⟨segments, one, isForm⟩ := isMade
    have tendedLater : Tended [] later :=
      (unused.tended.changes
        ((run.changes.trans compilations.changes).trans proceeds.changes)).tended
    have seeded := (filled.later (.changes proceeds.changes)).seeded
    have same := (form.later proceeds.programs).setting
    refine ⟨⟨segments, one, isForm.later proceeds.programs⟩, seeded.kept tendedLater,
      fun levels context valid => ?_⟩
    rw [Compilation.key, ← same] at seeded
    rw [← same] at sourced
    exact eval_includeWithin_of_seeded levels context seeded tendedLater sourced valid

section Pages

/-- A page whose text is one word of in-flow code. -/
def pageOf (word : String) : Document where
  name := "page"
  partition := "m"
  text := "<%:echo " ++ word ++ "%>"
  timestamp := ⟨0⟩

def pageCompiled : World :=
  ((newExecutable flowingSetting (pageOf "one")).eval flowingHost).2

/-- The page has been compiled again with another text. -/
def pageCompiledAgain : World :=
  ((newExecutable flowingSetting (pageOf "two")).eval pageCompiled).2

def pageHistory : List Compilation :=
  [⟨flowingSetting, pageOf "one", flowingHost, ⟨1⟩⟩, ⟨flowingSetting, pageOf "two", pageCompiled, ⟨3⟩⟩]

/-- Both texts are compiled, and one document is kept for their in-flow codes. -/
theorem pageHistory_compiled :
    (((newExecutable flowingSetting (pageOf "one")).eval flowingHost).1 = .ok ⟨1⟩ ∧
      ((newExecutable flowingSetting (pageOf "two")).eval pageCompiled).1 = .ok ⟨3⟩) ∧
      pageCompiled.inFlowCodes flowingSetting (pageOf "two") = [⟨0, "echo", "two"⟩] ∧
      pageCompiledAgain.kept? (inFlowDocumentName (pageOf "two") 0) = some ⟨0⟩ ∧
      (pageCompiledAgain.descriptors.size = 1 ∧
        (pageCompiledAgain.descriptors.get ⟨0⟩).invalidated = false) ∧
      ((isValid ⟨0⟩).eval
        { pageCompiledAgain with includeDepth := pageCompiledAgain.includeDepth + 1 }).1 =
          .ok true := by
  decide +kernel

/-- The second text is compiled and its in-flow code is found in the source, but what is run is
the code of the first text. -/
theorem inFlow_run_of_another_text :
    ((newExecutable flowingSetting (pageOf "one")).eval flowingHost).1 = .ok ⟨1⟩ ∧
      ((newExecutable flowingSetting (pageOf "two")).eval pageCompiled).1 = .ok ⟨3⟩ ∧
      pageCompiled.inFlowCodes flowingSetting (pageOf "two") = [⟨0, "echo", "two"⟩] ∧
      let ready := ((newContext ⟨0⟩ ⟨1⟩ : HostM Empty ContextId).eval pageCompiledAgain).2
      ((fetchDocument (inFlowDocumentName (pageOf "two") 0)).eval ready).1 = .ok ⟨0⟩ ∧
        ((execute ⟨3⟩ ⟨0⟩).eval ready).1 = .ok () ∧
        ((((execute ⟨3⟩ ⟨0⟩).eval ready).2).sinks.get ⟨0⟩).text = "one" := by
  decide +kernel

theorem inFlow_run_as_compiled_among_pages :
    flowingHost.Unused ∧ Compilations flowingHost pageHistory pageCompiledAgain ∧
      flowingHost.Lacks (inFlowDocumentName (pageOf "two") 0) ∧
      ∃ inFlow, ∀ levels,
        (includeWithin (levels + 1) ⟨3⟩ (inFlowDocumentName (pageOf "two") 0) ⟨0⟩).eval
            pageCompiledAgain =
          (asInclude (inFlowDocumentName (pageOf "two") 0) do
            let _ ← (isValid ⟨0⟩).convert ExecutionError.ofDocument
            runObtained levels (pageCompiledAgain.executables.get ⟨3⟩)
              (inFlowDocumentName (pageOf "two") 0) inFlow ⟨0⟩).eval pageCompiledAgain := by
  have unused : flowingHost.Unused := ⟨rfl, rfl, rfl⟩
  have lacks : flowingHost.Lacks (inFlowDocumentName (pageOf "two") 0) := ⟨rfl, nofun⟩
  obtain ⟨⟨first, second⟩, codes, kept, ⟨size, unmarked⟩, valid⟩ := pageHistory_compiled
  have compilations : Compilations flowingHost pageHistory pageCompiledAgain :=
    .cons rfl (Prod.fst_eq_iff.1 first) (.cons rfl (Prod.fst_eq_iff.1 second) (.none _))
  have member : (⟨flowingSetting, pageOf "two", pageCompiled, ⟨3⟩⟩ : Compilation) ∈ pageHistory := by
    simp [pageHistory]
  have stands : ⟨0, "echo", "two"⟩ ∈ pageCompiled.inFlowCodes flowingSetting (pageOf "two") := by
    simp [codes]
  obtain ⟨⟨place⟩, inFlow, _, -, _, -, -, -, -, onward⟩ :=
    inFlow_run_as_compiled_among unused .refl compilations member stands lacks
  obtain ⟨-, keptWhile, runs⟩ := onward pageCompiledAgain ((Proceeds.lasting fun _ => False).refl _)
  -- no descriptor is marked, so it is the one that is kept
  have stillUnmarked : (pageCompiledAgain.descriptors.get ⟨place⟩).invalidated = false := by
    cases place with
    | zero => exact unmarked
    | succ place =>
        rw [Arena.get_of_unknown _ (by rw [size]; exact Nat.not_lt.2 (Nat.le_add_left ..))]
        rfl
  cases (keptWhile stillUnmarked).symm.trans kept
  exact ⟨unused, compilations, lacks, inFlow, fun levels => runs levels ⟨0⟩ valid⟩

end Pages

end DocumentHost
