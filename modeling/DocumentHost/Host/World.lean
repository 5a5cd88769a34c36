import DocumentHost.Arena
import DocumentHost.Files.Settings
import DocumentHost.Files.Tree
import DocumentHost.Language.Index
import DocumentHost.NameTable
import DocumentHost.Options.Basic
import DocumentHost.Segment.Compiled

/-!
# The state of a host

Everything that the operations of a host can see or change: the adapters and
their registries, compiled documents, execution contexts, document descriptors
and their source, output sinks, the file tree, global values, the current
context, and a journal of what happened.  An operation is a state transformer
that may fail; what it did before it failed stays done.
-/

namespace DocumentHost

/-- A destination of program output. -/
structure Sink where
  text : String := ""
  /-- The most bytes the sink takes. -/
  limit : Option Nat := none
  flushFails : Bool := false
deriving Repr, Inhabited

/-- The state that a run of a document works on. -/
structure Context where
  attributes : NameTable Json := {}
  services : NameTable Service := {}
  /-- The distinct adapters that have run in the context, in order. -/
  adapters : List AdapterId := []
  /-- The adapter that ran most recently. -/
  lastAdapter : Option AdapterId := none
  output : SinkId := default
  errorOutput : SinkId := default
  frozen : Bool := false
  released : Bool := false
  /-- Whether the release has begun. -/
  releasing : Bool := false
  /-- The executable that the context can be entered for. -/
  enterableFor : Option ExecutableId := none
deriving Inhabited

/-- When the file behind a descriptor is looked at again. -/
structure RecheckPolicy where
  enabled : Bool
  /-- The least number of milliseconds between two looks. -/
  interval : Nat
deriving DecidableEq, Repr, Inhabited

/-- The file behind a descriptor. -/
structure Backing where
  path : String
  /-- The time of modification when the file was read. -/
  modified : Instant
  policy : RecheckPolicy
  lastChecked : Instant
deriving DecidableEq, Repr, Inhabited

/-- A document: its text, its compiled forms, and what it depends on. -/
structure Descriptor where
  name : String
  /-- The identifier of the source the document came from. -/
  partition : String
  tag : String
  text : String
  timestamp : Instant
  /-- The compiled forms under their compile keys. -/
  slots : NameTable ExecutableId := {}
  dependencies : List DescriptorId := []
  /-- The descriptors that become invalid together with this one. -/
  dependents : List DescriptorId := []
  invalidated : Bool := false
  backing : Option Backing := none
  /-- Whether nobody holds the descriptor any longer. -/
  dropped : Bool := false
deriving Inhabited

/-- Where a source has its documents from. -/
inductive SourceKind where
  /-- Documents are only what was put in. -/
  | memory
  | files (settings : FileSettings)
deriving DecidableEq, Repr, Inhabited

/-- A document source and the descriptors it keeps. -/
structure Source where
  identifier : String
  kind : SourceKind
  documents : NameTable DescriptorId := {}
deriving Inhabited

/-- What a document is compiled with. -/
structure Setting where
  registry : RegistryId
  /-- Whether documents can be taken from the source of the host. -/
  sourced : Bool
  options : CompileOptions
deriving Inhabited

/-- A compiled document. -/
structure Executable where
  documentName : String
  partition : String
  timestamp : Instant
  setting : Setting
  segments : List Segment
  attributes : NameTable Json := {}
  lastUsed : Instant
  /-- The contexts that can be entered, under their keys. -/
  enterable : NameTable ContextId := {}
deriving Inhabited

/-- What is held by nobody but those who use the host. -/
structure Holdings where
  executables : List ExecutableId := []
  contexts : List ContextId := []
  descriptors : List DescriptorId := []
deriving Inhabited

/-- What two parties hold. -/
def Holdings.union (first second : Holdings) : Holdings where
  executables := first.executables ++ second.executables
  contexts := first.contexts ++ second.contexts
  descriptors := first.descriptors ++ second.descriptors

/-- Something that happened. -/
inductive Event where
  /-- A report of an adapter or a controller. -/
  | note (text : String)
  /-- An adapter was told that a context is released. -/
  | releaseHook (context : ContextId) (adapter : AdapterId)
deriving DecidableEq, Repr

/-- The state of a host. -/
structure World extends Languages where
  executables : Arena .executable Executable := {}
  contexts : Arena .context Context := {}
  descriptors : Arena .descriptor Descriptor := {}
  sinks : Arena .sink Sink := {}
  source : Option Source := none
  files : FileTree := {}
  globals : NameTable Json := {}
  current : Option ContextId := none
  /-- What is held from outside and by operations that have not ended. -/
  holdings : Holdings := {}
  /-- The number of includes that are active. -/
  includeDepth : Nat := 0
  journal : List Event := []
  clock : Instant := ⟨0⟩
deriving Inhabited

/-- Operations of a host that may fail with an error of a kind. -/
abbrev HostM (ε : Type) : Type → Type := ExceptT ε (StateM World)

namespace HostM

variable {ε ε' α : Type}

/-- Rephrase the failure of an operation. -/
def convert (rephrase : ε → ε') (action : HostM ε α) : HostM ε' α :=
  ExceptT.adapt rephrase action

/-- An outcome as an operation. -/
def ofExcept : Except ε α → HostM ε α
  | .ok value => pure value
  | .error error => throw error

/-- Carry out an operation and look at its outcome. -/
def attempt (action : HostM ε α) : HostM ε' (Except ε α) :=
  ExceptT.mk do return .ok (← action.run)

end HostM

namespace World

/-- Note a report. -/
def note (world : World) (text : String) : World :=
  { world with journal := world.journal ++ [.note text] }

/-- Note several reports. -/
def noteAll (world : World) (texts : List String) : World :=
  { world with journal := world.journal ++ texts.map .note }

/-- The reports among the events that followed a number of earlier ones. -/
def reportsSince (world : World) (count : Nat) : List String :=
  (world.journal.drop count).filterMap fun event =>
    match event with
    | .note text => some text
    | .releaseHook _ _ => none

/-- Change a context. -/
def modifyContext (world : World) (id : ContextId) (change : Context → Context) : World :=
  { world with contexts := world.contexts.modify id change }

/-- Change a descriptor. -/
def modifyDescriptor (world : World) (id : DescriptorId) (change : Descriptor → Descriptor) :
    World :=
  { world with descriptors := world.descriptors.modify id change }

/-- Change a compiled document. -/
def modifyExecutable (world : World) (id : ExecutableId) (change : Executable → Executable) :
    World :=
  { world with executables := world.executables.modify id change }

/-- The time between two readings of the clock, in nanoseconds. -/
def clockStep : Int := 1000

/-- The clock behind one reading. -/
def tick (world : World) : World :=
  { world with clock := ⟨world.clock.nanoseconds + clockStep⟩ }

/-- Let time pass. -/
def pass (world : World) (milliseconds : Nat) : World :=
  { world with clock := world.clock.plusMilliseconds milliseconds }

end World

/-- Read the clock.  No two readings agree. -/
def readClock {ε : Type} : HostM ε Instant := do
  let now := (← get).clock
  modify World.tick
  return now

/-- Note the reports of a piece of work and take over its outcome. -/
def HostM.ofReported {ε α : Type} (work : Reported ε α) : HostM ε α := do
  modify fun world => world.noteAll work.reports
  HostM.ofExcept work.outcome

end DocumentHost
