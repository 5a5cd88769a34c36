import DocumentHost.Proofs.Descriptor.Tending
import DocumentHost.Proofs.Host.Beside

/-!
# The entries of a source

A source keeps its documents under distinct names, whatever is fetched, put, seeded, planted and
forgotten, and apart from its documents it stays what it is.
-/

namespace DocumentHost

namespace World

/-- No name has two entries in the source. -/
def Distinct (world : World) : Prop :=
  (world.documentEntries.map Prod.fst).Nodup

/-- The source stays the same apart from its documents, and it goes on to keep them under
distinct names. -/
structure Filing (world after : World) : Prop where
  source : after.source.map Source.emptied = world.source.map Source.emptied
  distinct : world.Distinct → after.Distinct

/-- What a source is made for does not depend on the documents in it. -/
theorem kind_of_emptied {world after : World}
    (same : after.source.map Source.emptied = world.source.map Source.emptied) :
    after.source.map Source.kind = world.source.map Source.kind := by
  have kinds (source : Option Source) :
      source.map Source.kind = (source.map Source.emptied).map Source.kind := by
    cases source <;> rfl
  rw [kinds, same, ← kinds]

namespace Filing

variable {world after : World}

theorem lasting : Lasting Filing where
  refl _ := ⟨rfl, fun distinct => distinct⟩
  trans first second :=
    ⟨second.source.trans first.source, fun distinct => second.distinct (first.distinct distinct)⟩

theorem of_source (same : after.source = world.source) : Filing world after := by
  refine ⟨by rw [same], fun distinct => ?_⟩
  rwa [Distinct, documentEntries_of_source same]

theorem aside (aside : Aside world after) : Filing world after :=
  of_source aside.source

theorem tolerant : Tolerant Filing :=
  .of_asides lasting aside

theorem checked (checked : Checked world after) : Filing world after :=
  of_source checked.source

theorem modifyDocuments (world : World)
    {change : NameTable DescriptorId → NameTable DescriptorId}
    (keeps : ∀ documents : NameTable DescriptorId, documents.names.Nodup →
      (change documents).names.Nodup) : Filing world (world.modifyDocuments change) := by
  cases source : world.source with
  | none =>
      refine of_source ?_
      rw [World.modifyDocuments, source, Option.map_none]
  | some present =>
      refine ⟨by rw [World.modifyDocuments, source]; rfl, fun distinct => ?_⟩
      rw [Distinct, documentEntries, source] at distinct
      rw [Distinct, documentEntries, World.modifyDocuments, source]
      exact keeps present.documents distinct

theorem insert (world : World) (name : String) (id : DescriptorId) :
    Filing world (world.modifyDocuments fun documents => documents.insert name id) :=
  modifyDocuments world fun _ distinct => NameTable.nodup_insert distinct name id

theorem sweep (world : World) : Filing world world.sweep :=
  lasting.trans (modifyDocuments world fun _ distinct => NameTable.nodup_retain distinct _)
    (aside (.releaseUnheld _))

theorem forget (world : World) (name : String) : Filing world (world.forget name) :=
  lasting.trans (modifyDocuments world fun _ distinct => NameTable.nodup_erase distinct name)
    (aside (.releaseUnheld _))

theorem addDescriptor (world : World) (descriptor : Descriptor) :
    Filing world (world.tick.addDescriptor descriptor).2 :=
  of_source rfl

theorem fillSlot (world : World) (id : DescriptorId) (key : String) (executable : ExecutableId) :
    Filing world (world.fillSlot id key executable).2 :=
  of_source (source_fillSlot ..)

theorem fetching : Fetching Filing where
  lasting := lasting
  checked := checked
  read world _ _ _ _ _ := addDescriptor world _
  sweep := sweep
  insert := insert
  forget := forget

theorem put {ε : Type} (name text tag : String) :
    (putDocument name text tag : HostM ε _).Keeps Filing := by
  intro world
  rw [HostM.KeepsFrom, eval_putDocument]
  dsimp only
  have makes := addDescriptor world (.ofText name world.sourceIdentifier tag text world.clock)
  cases world.kept? name with
  | none => exact lasting.trans makes (insert ..)
  | some old => exact lasting.trans (lasting.trans makes (insert ..)) (checked (.invalidate _ old))

theorem seed {ε : Type} (name text tag : String) (form : Option (String × ExecutableId)) :
    (seedDocument name text tag form : HostM ε _).Keeps Filing := by
  intro world
  rw [HostM.KeepsFrom]
  by_cases stands : ∃ id, world.kept? name = some id ∧
      (world.descriptors.get id).invalidated = false
  · obtain ⟨id, kept, unmarked⟩ := stands
    rw [eval_seedDocument_of_standing kept unmarked]
    cases form with
    | none => exact lasting.refl world
    | some form => exact fillSlot ..
  · have vacant (id : DescriptorId) (kept : world.kept? name = some id) :
        (world.descriptors.get id).invalidated = true := by
      rw [← Bool.not_eq_false]
      exact fun unmarked => stands ⟨id, kept, unmarked⟩
    rw [eval_seedDocument_of_vacant vacant]
    dsimp only
    have makes : Filing world (world.sweep.tick.addDescriptor
        (.ofText name world.sourceIdentifier tag text world.sweep.clock)).2 :=
      lasting.trans (sweep world) (addDescriptor world.sweep _)
    cases form with
    | none => exact lasting.trans makes (insert ..)
    | some form => exact lasting.trans (lasting.trans makes (fillSlot ..)) (insert ..)

theorem plant (document : Document) (name code tag : String) (form : String × ExecutableId) :
    (plantInFlow document name code tag form).Keeps Filing := by
  rw [plantInFlow_eq]
  refine lasting.bind (seed name code tag _) fun seeded => ?_
  exact tolerant.attachInFlow fetching.fetchDocument (fun world id =>
    of_source (get_linkDependent world id seeded).1) document

theorem reclaim (world : World) : Filing world world.reclaim :=
  lasting.reclaim (fun _ _ => of_source rfl) (fun _ => aside (.releaseUnheld _)) world

theorem change {allowed : Bond → Prop} (change : Change allowed world after) :
    Filing world after := by
  cases change with
  | aside beside => exact aside beside
  | fetch name => exact fetching.fetchDocument name world
  | plant document name code tag form => exact plant document name code tag form world
  | put name text tag => exact put name text tag world
  | seed name text tag form => exact seed name text tag form world
  | check id => exact checked (isValid_keeps id world)
  | invalidate id => exact checked (.invalidate world id)
  | fill id key executable => exact fillSlot world id key executable
  | depend id dependency => exact of_source rfl
  | reclaim => exact reclaim world
  | bind bond known free unbound permitted => exact of_source rfl
  | unbind executable key => exact of_source rfl

/-- By induction on the chain. -/
theorem changes {allowed : Bond → Prop} (changes : Changes allowed world after) :
    Filing world after := by
  induction changes with
  | refl => exact lasting.refl world
  | tail _ step ih => exact lasting.trans ih (change step)

end Filing

end World

end DocumentHost
