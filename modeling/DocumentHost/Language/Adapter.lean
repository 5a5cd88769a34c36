import DocumentHost.Script

/-!
# Language adapters

An adapter brings one language into the host.  It describes itself, writes code
of its language for the shapes the host needs, compiles fragments to programs,
runs entry points, and may react when a context it ran in is released.  What an
adapter reports while it works is noted in the journal of the host.
-/

namespace DocumentHost

/-- The version of the host, and of the adapters that come with it. -/
def hostVersion : String := "0.1.0"

/-- What an adapter says about itself. -/
structure AdapterProfile where
  name : String
  version : String := hostVersion
  languageName : String
  /-- The tags the adapter answers to, the default first. -/
  tags : List String
  /-- The filename extensions the adapter answers to, the default first. -/
  extensions : List String := []
  /-- Decides among adapters that answer to the same tag or extension. -/
  priority : Int := 0
  threadSafe : Bool := false
  /-- Tags of an ephemeral adapter do not stay in effect. -/
  ephemeral : Bool := false
deriving DecidableEq, Repr, Inhabited

namespace AdapterProfile

/-- The description of an adapter that answers to one tag. -/
def ofTag (name tag : String) : AdapterProfile :=
  { name, languageName := name, tags := [tag] }

/-- The tag that stands for the adapter where none was given. -/
def defaultTag (profile : AdapterProfile) : String :=
  profile.tags.headD ""

/-- The extension that stands for the adapter where none was given. -/
def defaultExtension? (profile : AdapterProfile) : Option String :=
  profile.extensions.head?

end AdapterProfile

/-- A piece of a document that is to be compiled. -/
structure Fragment where
  text : String
  place : Place
  /-- Whether the fragment stands in a document with literal text around it. -/
  isScriptlet : Bool
deriving Repr, Inhabited

/-- Reports, and the outcome of the work they are about. -/
structure Reported (ε α : Type) where
  reports : List String := []
  outcome : Except ε α

/-- The compiled form of a fragment. -/
structure Program where
  /-- Check ahead of running whether the program can run. -/
  prepare : Reported PreparationError Unit
  run : Script Unit

instance : Inhabited Program := ⟨⟨⟨[], .ok ()⟩, default⟩⟩

/-- A language adapter. -/
structure Adapter where
  profile : AdapterProfile
  /-- Code that writes a text as it stands. -/
  codeForLiteral : String → Option String
  /-- Code that writes the value of an expression. -/
  codeForExpression : String → Option String
  /-- Code that includes the document that an expression names. -/
  codeForInclude : String → Option String
  /-- Code that calls an entry point. -/
  codeForEntry : String → Option String
  compile : Fragment → Reported ParsingError Program
  /-- Run an entry point with arguments. -/
  enter : String → List Json → Script Json
  /-- The reports about the release of a context; the argument says whether the
  context is marked as released already. -/
  onRelease : Bool → List String

instance : Inhabited Adapter :=
  ⟨{ profile := default
     codeForLiteral := fun _ => none
     codeForExpression := fun _ => none
     codeForInclude := fun _ => none
     codeForEntry := fun _ => none
     compile := fun _ => ⟨[], .ok default⟩
     enter := fun _ _ => default
     onRelease := fun _ => [] }⟩

end DocumentHost
