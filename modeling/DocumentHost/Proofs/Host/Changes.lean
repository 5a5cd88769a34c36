import DocumentHost.Proofs.Descriptor.Sources
import DocumentHost.Proofs.Host.Entering
import DocumentHost.Proofs.Host.Execution

/-!
# The changes of a host

However documents are compiled, run, entered and released, and whatever is done with the
source meanwhile: what happens to a host is a chain of changes of a few kinds.  What every
change preserves, every use of a host preserves.  A controller may interfere with a run, and
is lawful if it does nothing but changes of these kinds as well.
-/

namespace DocumentHost

/-- The document of in-flow code may be fetched, and is linked to it then. -/
theorem Tolerant.attachInFlow {Related : World → World → Prop} (tolerant : Tolerant Related)
    (fetch : ∀ name, (fetchDocument name).Keeps Related) {seeded : DescriptorId}
    (link : ∀ (world : World) (id : DescriptorId), Related world (world.linkDependent id seeded))
    (document : Document) : (attachInFlow document seeded).Keeps Related := by
  have lasting := tolerant.lasting
  unfold DocumentHost.attachInFlow
  refine tolerant.keeping _ (Lasting.get fun world => ?_)
  split
  · refine lasting.bind (Lasting.attempt (Lasting.convert _ (fetch _))) (fun parent => ?_) world
    cases parent with
    | ok parent => exact Lasting.modify fun world => link world parent
    | error error => exact lasting.pure _
  · exact lasting.pure _ world

theorem Tolerant.plantInFlow {Related : World → World → Prop} (tolerant : Tolerant Related)
    {name code tag : String} {form : String × ExecutableId}
    (seed : (seedDocument name code tag (some form) : HostM ParsingError _).Keeps Related)
    (fetch : ∀ name, (fetchDocument name).Keeps Related)
    (link : ∀ (world : World) (id dependent : DescriptorId),
      Related world (world.linkDependent id dependent))
    (document : Document) : (plantInFlow document name code tag form).Keeps Related := by
  rw [plantInFlow_eq]
  exact tolerant.lasting.bind seed fun seeded =>
    tolerant.attachInFlow fetch (fun world id => link world id seeded) document

theorem Storing.plantInFlow {Related : World → World → Prop} (storing : Storing Related)
    (tolerant : Tolerant Related) (fetch : ∀ name, (DocumentHost.fetchDocument name).Keeps Related)
    (link : ∀ (world : World) (id dependent : DescriptorId),
      Related world (world.linkDependent id dependent))
    (document : Document) (name code tag : String) (form : String × ExecutableId) :
    (plantInFlow document name code tag form).Keeps Related :=
  tolerant.plantInFlow (storing.seedDocument name code tag (some form)) fetch link document

theorem Documenting.plantInFlow {Related : World → World → Prop}
    (documenting : Documenting Related) (tolerant : Tolerant Related)
    (link : ∀ (world : World) (id dependent : DescriptorId),
      Related world (world.linkDependent id dependent))
    (document : Document) (name code tag : String) (form : String × ExecutableId) :
    (plantInFlow document name code tag form).Keeps Related :=
  documenting.storing.plantInFlow tolerant documenting.fetchDocument link document name code tag
    form

/-- Descriptors are dropped one by one, and then contexts are released. -/
theorem Lasting.reclaim {Related : World → World → Prop} (lasting : Lasting Related)
    (drop : ∀ (world : World) (id : DescriptorId), Related world
      (world.modifyDescriptor id fun descriptor => { descriptor with dropped := true }))
    (release : ∀ world : World, Related world world.releaseUnheld) (world : World) :
    Related world world.reclaim := by
  have drops (ids : List DescriptorId) (start : World) :
      Related start (ids.foldl (fun marked id => marked.modifyDescriptor id fun descriptor =>
        { descriptor with dropped := true }) start) := by
    induction ids generalizing start with
    | nil => exact lasting.refl start
    | cons id rest ih => exact lasting.trans (drop start id) (ih _)
  exact lasting.trans (drops _ world) (release _)

/-- A relation lasts through executions if every step of a source keeps it, and every link. -/
theorem Executing.of_documenting {Related : World → World → Prop} (tolerant : Tolerant Related)
    (documenting : Documenting Related)
    (link : ∀ (world : World) (id dependent : DescriptorId),
      Related world (world.linkDependent id dependent))
    (depend : ∀ (world : World) (id dependency : DescriptorId),
      Related world (world.linkDependency id dependency)) : Executing Related where
  tolerant := tolerant
  fetch := documenting.fetchDocument
  obtains := tolerant.obtainExecutable documenting.fetchDocument
    (documenting.plantInFlow tolerant link) documenting.fill
  depend := depend

/-- A relation that heeds neither descriptors nor the source nor the clock. -/
structure Heedless (Related : World → World → Prop) : Prop where
  tolerant : Tolerant Related
  documents : ∀ (world : World) (descriptors : Descriptors) (source : Option Source)
    (clock : Instant), Related world { world with descriptors, source, clock }

namespace Heedless

variable {Related : World → World → Prop}

theorem modifyDescriptor (heedless : Heedless Related) (world : World) (id : DescriptorId)
    (change : Descriptor → Descriptor) : Related world (world.modifyDescriptor id change) :=
  heedless.documents world _ _ _

theorem documenting (heedless : Heedless Related) : Documenting Related where
  lasting := heedless.tolerant.lasting
  checked checked := by
    obtain ⟨descriptors, clock, rest⟩ := checked.rest
    rw [rest]
    exact heedless.documents _ descriptors _ clock
  add world _ _ := heedless.documents world _ _ _
  fill world id key executable := by
    unfold World.fillSlot
    split
    · exact heedless.tolerant.lasting.refl world
    · exact heedless.modifyDescriptor world id _
  documents world _ := heedless.documents world _ _ _
  release := heedless.tolerant.releaseUnheld

theorem linkDependent (heedless : Heedless Related) (world : World)
    (id dependent : DescriptorId) : Related world (world.linkDependent id dependent) := by
  unfold World.linkDependent
  dsimp only
  split <;> exact heedless.documents world _ _ _

theorem plantInFlow (heedless : Heedless Related) (document : Document)
    (name code tag : String) (form : String × ExecutableId) :
    (plantInFlow document name code tag form).Keeps Related :=
  heedless.documenting.plantInFlow heedless.tolerant heedless.linkDependent document name code
    tag form

theorem executing (heedless : Heedless Related) : Executing Related :=
  .of_documenting heedless.tolerant heedless.documenting heedless.linkDependent
    fun world id _ => heedless.modifyDescriptor world id _

theorem reclaim (heedless : Heedless Related) (world : World) : Related world world.reclaim :=
  heedless.tolerant.lasting.reclaim (fun world id => heedless.modifyDescriptor world id _)
    heedless.tolerant.releaseUnheld world

end Heedless

namespace World

/-! ## Bindings under changes of documents -/

theorem SameBindings.heedless : Heedless SameBindings where
  tolerant := .of_asides SameBindings.lasting Aside.toSameBindings
  documents _ _ _ _ := .of_eq rfl rfl

/-! ## Changes -/

/-- One change.  Of the bindings only those are made that are allowed. -/
inductive Change (allowed : Bond → Prop) (world : World) : World → Prop where
  | aside {after : World} (aside : Aside world after) : Change allowed world after
  | fetch (name : String) : Change allowed world ((fetchDocument name).eval world).2
  | plant (document : Document) (name code tag : String) (form : String × ExecutableId) :
      Change allowed world ((plantInFlow document name code tag form).eval world).2
  | put (name text tag : String) :
      Change allowed world ((putDocument name text tag : HostM Empty _).eval world).2
  | seed (name text tag : String) (form : Option (String × ExecutableId)) :
      Change allowed world ((seedDocument name text tag form : HostM Empty _).eval world).2
  | check (id : DescriptorId) : Change allowed world ((isValid id).eval world).2
  | invalidate (id : DescriptorId) : Change allowed world (world.invalidate id)
  | fill (id : DescriptorId) (key : String) (executable : ExecutableId) :
      Change allowed world (world.fillSlot id key executable).2
  | depend (id dependency : DescriptorId) :
      Change allowed world (world.linkDependency id dependency)
  | reclaim : Change allowed world world.reclaim
  | bind (bond : Bond) (known : bond.context.index < world.contexts.size)
      (free : world.bound? bond.executable bond.key = none)
      (unbound : (world.contexts.get bond.context).enterableFor = none)
      (permitted : allowed bond) : Change allowed world (world.bind bond)
  | unbind (executable : ExecutableId) (key : String) :
      Change allowed world (world.unbind executable key)

/-- What a change can do to bindings. -/
theorem Change.bindings {allowed : Bond → Prop} {world after : World}
    (change : Change allowed world after) :
    SameBindings world after ∨
      (∃ bond, bond.context.index < world.contexts.size ∧
        world.bound? bond.executable bond.key = none ∧
        (world.contexts.get bond.context).enterableFor = none ∧ allowed bond ∧
        after = world.bind bond) ∨
      ∃ executable key, after = world.unbind executable key := by
  have heedless : Heedless SameBindings := SameBindings.heedless
  have documenting : Documenting SameBindings := heedless.documenting
  cases change with
  | aside aside => exact .inl aside.toSameBindings
  | fetch name => exact .inl (documenting.fetchDocument name world)
  | plant document name code tag form =>
      exact .inl (heedless.plantInFlow document name code tag form world)
  | put name text tag => exact .inl (documenting.putDocument name text tag world)
  | seed name text tag form => exact .inl (documenting.seedDocument name text tag form world)
  | check id => exact .inl (documenting.isValid id world)
  | invalidate id => exact .inl (.of_eq rfl rfl)
  | fill id key executable => exact .inl (documenting.fill world id key executable)
  | depend id dependency => exact .inl (.of_eq rfl rfl)
  | reclaim => exact .inl (heedless.reclaim world)
  | bind bond known free unbound permitted =>
      exact .inr (.inl ⟨bond, known, free, unbound, permitted, rfl⟩)
  | unbind executable key => exact .inr (.inr ⟨executable, key, rfl⟩)

/-- A chain of changes. -/
abbrev Changes (allowed : Bond → Prop) : World → World → Prop :=
  Relation.ReflTransGen (Change allowed)

namespace Changes

variable {allowed : Bond → Prop}

theorem tolerant : Tolerant (Changes allowed) :=
  .of_asides ⟨fun _ => .refl, fun first second => first.trans second⟩ fun aside =>
    .single (.aside aside)

theorem executing : Executing (Changes allowed) where
  tolerant := tolerant
  fetch name _ := .single (.fetch name)
  obtains := tolerant.obtainExecutable (fun name _ => .single (.fetch name))
    (fun document name code tag form _ => .single (.plant document name code tag form))
    fun _ id key executable => .single (.fill id key executable)
  depend _ id dependency := .single (.depend id dependency)

/-- Contexts are made, and none is taken away. -/
theorem contexts_size {world after : World} (changes : Changes allowed world after) :
    world.contexts.size ≤ after.contexts.size := by
  induction changes with
  | refl => exact Nat.le_refl _
  | @tail between after _ change ih =>
      refine Nat.le_trans ih ?_
      obtain same | ⟨bond, -, -, -, -, rfl⟩ | ⟨executable, key, rfl⟩ := change.bindings
      · exact same.contexts
      · exact Nat.le_of_eq (Arena.size_modify ..).symm
      · exact Nat.le_refl _

end Changes

/-! ## Controllers -/

/-- A chain of changes, if there is such a context. -/
def Onward (allowed : Bond → Prop) (context : ContextId) (world after : World) : Prop :=
  context.index < world.contexts.size → Changes allowed world after

theorem Onward.of_changes {allowed : Bond → Prop} {context : ContextId} {world after : World}
    (changes : Changes allowed world after) : Onward allowed context world after :=
  fun _ => changes

theorem Onward.tolerant (allowed : Bond → Prop) (context : ContextId) :
    Tolerant (Onward allowed context) := by
  refine .of_asides ⟨fun _ _ => .refl, fun first second known => ?_⟩ fun aside =>
    .of_changes (.single (.aside aside))
  have changes := first known
  exact changes.trans (second (Nat.lt_of_lt_of_le known changes.contexts_size))

theorem Onward.executing (allowed : Bond → Prop) (context : ContextId) :
    Executing (Onward allowed context) where
  tolerant := tolerant allowed context
  fetch name := (Changes.executing.fetch name).mono .of_changes
  obtains setting name := (Changes.executing.obtains setting name).mono .of_changes
  depend world id dependency := .of_changes (Changes.executing.depend world id dependency)

end World

open World

/-- Around a run in any context, a controller makes only changes of the kinds above. -/
def Controller.Lawful (allowed : Bond → Prop) (controller : Controller) : Prop :=
  ∀ context, controller.Keeps (Onward allowed context) context

/-- No controller, or a lawful one. -/
def LawfulWhere (allowed : Bond → Prop) (controller : Option Controller) : Prop :=
  ∀ present, controller = some present → present.Lawful allowed

section Uses

variable {allowed : Bond → Prop} {executable : ExecutableId} {key : String}
  {context : ContextId} {container : Option Service} {controller : Option Controller}
  {world : World}

theorem execute_changes (known : context.index < world.contexts.size)
    (lawful : LawfulWhere allowed controller) :
    Changes allowed world ((execute executable context container controller).eval world).2 :=
  (Onward.executing allowed context).execute executable context container
    (fun present chosen => lawful present chosen context) world known

theorem bindEnterable_changes (known : context.index < world.contexts.size)
    (lawful : LawfulWhere allowed controller)
    (permitted : ((bindEnterable executable key context container controller).eval world).1 =
      .ok true → allowed ⟨executable, key, context⟩) :
    Changes allowed world
      ((bindEnterable executable key context container controller).eval world).2 := by
  cases found : world.bound? executable key with
  | some present =>
      rw [eval_bindEnterable_of_taken (by simp [found])]
  | none =>
  cases unbound : (world.contexts.get context).enterableFor with
  | some owner =>
      rw [eval_bindEnterable_of_bound found (by simp [unbound])]
  | none =>
  have changes : Changes allowed world
      ((execute executable context container controller).eval world).2 :=
    execute_changes known lawful
  rcases executed : (execute executable context container controller).eval world with
    ⟨error | ⟨⟩, after⟩
  · rw [eval_bindEnterable_of_failed found unbound executed]
    rwa [executed] at changes
  rw [executed] at changes
  rw [eval_bindEnterable_of_executed found unbound executed] at permitted ⊢
  split
  · exact changes
  split
  · exact changes
  split
  · exact changes
  · rename_i free _ unboundAfter
    rw [if_neg free, if_neg ‹_›, if_neg unboundAfter] at permitted
    refine changes.tail (.bind ⟨executable, key, context⟩ ?_ ?_ ?_ (permitted rfl))
    · exact Nat.lt_of_lt_of_le known changes.contexts_size
    · simpa using free
    · simpa using unboundAfter

theorem releaseBound_changes (executable : ExecutableId) (key : String) (world : World) :
    Changes allowed world ((releaseBound executable key).eval world).2 := by
  cases found : world.bound? executable key with
  | none =>
      rw [eval_releaseBound_of_unbound found]
  | some context =>
      rw [eval_releaseBound_of_bound found]
      have tolerant : Tolerant (Changes allowed) := Changes.tolerant
      have released := tolerant.release context (world.unbind executable key)
      rw [HostM.KeepsFrom] at released
      rcases outcome : (release context).eval (world.unbind executable key) with
        ⟨error | value, after⟩
      all_goals
        rw [outcome] at released
        exact .head (.unbind executable key) released

end Uses

/-! ## What is done with a host -/

namespace World

/-- One operation on documents, executables or contexts, however it ends, or something that
has to do with neither documents nor bindings.  A context that is made enterable without
being allowed to is not bound in the end. -/
inductive Acts (allowed : Bond → Prop) (world : World) : World → Prop where
  | fetch (name : String) : Acts allowed world ((fetchDocument name).eval world).2
  | list : Acts allowed world (listDocuments.eval world).2
  | put (name text tag : String) :
      Acts allowed world ((putDocument name text tag : HostM Empty _).eval world).2
  | seed (name text tag : String) (form : Option (String × ExecutableId)) :
      Acts allowed world ((seedDocument name text tag form : HostM Empty _).eval world).2
  | check (id : DescriptorId) : Acts allowed world ((isValid id).eval world).2
  | invalidate (id : DescriptorId) : Acts allowed world (world.invalidate id)
  | offer (id : DescriptorId) (key : String) (executable : ExecutableId) :
      Acts allowed world (world.fillSlot id key executable).2
  | compile (setting : Setting) (document : Document) :
      Acts allowed world ((newExecutable setting document).eval world).2
  | create (setting : Setting) (name : String) :
      Acts allowed world ((obtainExecutable setting name).eval world).2
  | execute (executable : ExecutableId) (context : ContextId) (container : Option Service)
      (controller : Option Controller) (known : context.index < world.contexts.size)
      (lawful : LawfulWhere allowed controller) :
      Acts allowed world ((execute executable context container controller).eval world).2
  | makeEnterable (executable : ExecutableId) (key : String) (context : ContextId)
      (container : Option Service) (controller : Option Controller)
      (known : context.index < world.contexts.size) (lawful : LawfulWhere allowed controller)
      (permitted : ((bindEnterable executable key context container controller).eval world).1 =
        .ok true → allowed ⟨executable, key, context⟩) :
      Acts allowed world
        ((bindEnterable executable key context container controller).eval world).2
  | enter (executable : ExecutableId) (key entry : String) (arguments : List Json) :
      Acts allowed world ((enter executable key entry arguments).eval world).2
  | releaseEnterable (executable : ExecutableId) (key : String) :
      Acts allowed world ((releaseBound executable key).eval world).2
  | freeze (context : ContextId) :
      Acts allowed world ((onContext context Context.freeze).eval world).2
  | release (context : ContextId) : Acts allowed world ((release context).eval world).2
  /-- Those outside hold from now on what is in a list. -/
  | letGo (held : Holdings) : Acts allowed world { world with holdings := held }.reclaim
  | aside {after : World} (aside : Aside world after) : Acts allowed world after

theorem Acts.changes {allowed : Bond → Prop} {world after : World}
    (acts : Acts allowed world after) : Changes allowed world after := by
  have executing : Executing (Changes allowed) := Changes.executing
  cases acts with
  | fetch name => exact executing.fetch name world
  | list => exact executing.tolerant.lasting.listDocuments executing.fetch world
  | put name text tag => exact .single (.put name text tag)
  | seed name text tag form => exact .single (.seed name text tag form)
  | check id => exact .single (.check id)
  | invalidate id => exact .single (.invalidate id)
  | offer id key executable => exact .single (.fill id key executable)
  | compile setting document =>
      exact executing.tolerant.newExecutable
        (fun _ code tag form _ => .single (.plant document _ code tag form)) setting world
  | create setting name => exact executing.obtains setting name world
  | execute executable context container controller known lawful =>
      exact execute_changes known lawful
  | makeEnterable executable key context container controller known lawful permitted =>
      exact bindEnterable_changes known lawful permitted
  | enter executable key entry arguments =>
      exact executing.enter executable key entry arguments world
  | releaseEnterable executable key => exact releaseBound_changes executable key world
  | freeze context => exact executing.tolerant.onContext context .freeze world
  | release context => exact executing.tolerant.release context world
  | letGo held =>
      have lets : Aside world { world with holdings := held } := .of_eq rfl rfl rfl rfl
      exact .head (.aside lets) (.single .reclaim)
  | aside aside => exact .single (.aside aside)

/-- A run: one thing done after the other. -/
abbrev ActsOn (allowed : Bond → Prop) : World → World → Prop :=
  Relation.ReflTransGen (Acts allowed)

theorem ActsOn.changes {allowed : Bond → Prop} {world after : World}
    (run : ActsOn allowed world after) : Changes allowed world after := by
  induction run with
  | refl => exact .refl
  | tail _ acts ih => exact ih.trans acts.changes

end World

end DocumentHost
