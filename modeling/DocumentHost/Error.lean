import DocumentHost.Mini.Mistake
import DocumentHost.Text.Quoted

/-!
# Errors

Each concern of the host has its own causes of failure, and each cause one
wording.  An error that runs into another concern keeps its cause: an execution
error knows what it wraps and which documents it passed through.
-/

namespace DocumentHost

/-- Why a file could not be used. -/
inductive FileError where
  | notFound
  | notDirectory
  | isDirectory
  /-- What would have to move is in use as a place. -/
  | busy
  | nameTooLong
  | nullCharacter
  | invalidText
  /-- A reason of the drive's own. -/
  | refused (reason : String)
deriving DecidableEq, Repr, Inhabited

/-- The wording of a file error. -/
def FileError.message : FileError → String
  | .notFound => "No such file or directory (os error 2)"
  | .notDirectory => "Not a directory (os error 20)"
  | .isDirectory => "Is a directory (os error 21)"
  | .busy => "Device or resource busy (os error 16)"
  | .nameTooLong => "File name too long (os error 36)"
  | .nullCharacter => "file name contained an unexpected NUL byte"
  | .invalidText => "stream did not contain valid UTF-8"
  | .refused reason => reason

/-- Why a sink refused. -/
inductive SinkError where
  | full
  | flushRefused
deriving DecidableEq, Repr, Inhabited

/-- The wording of a sink error. -/
def SinkError.message : SinkError → String
  | .full => "sink full"
  | .flushRefused => "flush refused"

/-- Why a document source failed. -/
inductive DocumentError where
  | notFound (name : String)
  /-- The dependencies of a document, or its includes, are nested too deeply. -/
  | dependencyLoop (name : String)
  | file (path : String) (reason : FileError)
deriving DecidableEq, Repr, Inhabited

/-- The wording of a document error. -/
def DocumentError.message : DocumentError → String
  | .notFound name => "Document '" ++ name ++ "' not found"
  | .dependencyLoop name => "Dependency loop detected at document '" ++ name ++ "'"
  | .file path reason =>
      "IO error for " ++ Text.quoted path ++ ": " ++ reason.message

/-- Misuse of an execution context. -/
inductive ContextError where
  | released
  | frozen
  | alreadyReleased
  | alreadyEnterable
  | notEnterable (key : String)
  | foreignExecutable (key : String)
  | noAdapter
  | output (reason : SinkError)
deriving DecidableEq, Repr, Inhabited

/-- The wording of a context error. -/
def ContextError.message : ContextError → String
  | .released => "Execution context has been released"
  | .frozen => "Execution context is immutable"
  | .alreadyReleased => "Execution context was already released"
  | .alreadyEnterable => "Execution context is already enterable"
  | .notEnterable key => "No enterable execution context for key '" ++ key ++ "'"
  | .foreignExecutable key =>
      "Execution context for key '" ++ key ++ "' is bound to another executable"
  | .noAdapter => "Execution context has no language adapter to enter"
  | .output reason => "Output error: " ++ reason.message

/-- A language adapter can belong to one registry only. -/
inductive LanguageError where
  | alreadyRegistered (name : String)
deriving DecidableEq, Repr, Inhabited

/-- The wording of a language error. -/
def LanguageError.message : LanguageError → String
  | .alreadyRegistered name => "Language adapter '" ++ name ++ "' is already registered"

/-- A place in a named document. -/
structure Place where
  document : String
  position : Position
deriving DecidableEq, Repr, Inhabited

/-- The written form: document, line and column. -/
def Place.render (place : Place) : String :=
  place.document ++ ":" ++ place.position.render

/-- A language rejected a program before it ran. -/
structure PreparationError where
  place : Place
  description : String
  cause : Option Mini.SyntaxError
deriving DecidableEq, Repr, Inhabited

/-- The wording of a preparation error. -/
def PreparationError.message (error : PreparationError) : String :=
  error.place.render ++ ": " ++ error.description

/-- What an adapter is asked to write code for. -/
inductive CodeKind where
  | expressionOutput
  | documentInclude
deriving DecidableEq, Repr, Inhabited

/-- The wording of a kind of code. -/
def CodeKind.message : CodeKind → String
  | .expressionOutput => "expression output"
  | .documentInclude => "include"

/-- Why a document could not be compiled. -/
inductive ParsingError where
  | malformed (place : Place) (description : String)
  | noAdapter (place : Place) (tag : String)
  | unsupported (place : Place) (adapter : String) (code : CodeKind)
  | unknownParser (name : String)
  | needsSource (name : String)
  | preparation (error : PreparationError)
  | document (error : DocumentError)
deriving DecidableEq, Repr, Inhabited

/-- The wording of a parsing error. -/
def ParsingError.message : ParsingError → String
  | .malformed place description => place.render ++ ": " ++ description
  | .noAdapter place tag => place.render ++ ": no language adapter for tag '" ++ tag ++ "'"
  | .unsupported place adapter code =>
      place.render ++ ": adapter '" ++ adapter ++ "' cannot generate " ++ code.message
  | .unknownParser name => "Parser '" ++ name ++ "' not found"
  | .needsSource name => "Document '" ++ name ++ "' requires a document source"
  | .preparation error => error.message
  | .document error => error.message

/-- The place of a parsing error, if it has one. -/
def ParsingError.position? : ParsingError → Option Position
  | .malformed place _ | .noAdapter place _ | .unsupported place _ _ => some place.position
  | .preparation error => some error.place.position
  | _ => none

/-- What an execution error wraps. -/
inductive Cause where
  | context (error : ContextError)
  | parsing (error : ParsingError)
  | preparation (error : PreparationError)
  | document (error : DocumentError)
deriving DecidableEq, Repr, Inhabited

/-- The wording of a cause. -/
def Cause.message : Cause → String
  | .context error => error.message
  | .parsing error => error.message
  | .preparation error => error.message
  | .document error => error.message

/-- A program failed while it ran.  The frames name the segments that the error
passed through, innermost first. -/
structure ExecutionError where
  description : String
  frames : List Place := []
  cause : Option Cause := none
deriving DecidableEq, Repr, Inhabited

namespace ExecutionError

/-- A failure without a cause. -/
def ofDescription (description : String) : ExecutionError :=
  { description }

/-- The failure that wraps a cause. -/
def ofCause (cause : Cause) : ExecutionError :=
  { description := cause.message, cause := some cause }

/-- The failure that wraps a context error. -/
def ofContext (error : ContextError) : ExecutionError :=
  ofCause (.context error)

/-- The failure that wraps a parsing error. -/
def ofParsing (error : ParsingError) : ExecutionError :=
  ofCause (.parsing error)

/-- The failure that wraps a preparation error. -/
def ofPreparation (error : PreparationError) : ExecutionError :=
  ofCause (.preparation error)

/-- The failure that wraps a document error. -/
def ofDocument (error : DocumentError) : ExecutionError :=
  ofCause (.document error)

/-- Add the segment that the error passes through. -/
def passedThrough (error : ExecutionError) (place : Place) : ExecutionError :=
  { error with frames := error.frames ++ [place] }

/-- The written form of a frame. -/
def frameText (place : Place) : String :=
  "at " ++ place.render

/-- The wording of an execution error: its description, then a line for each frame. -/
def message (error : ExecutionError) : String :=
  error.description ++ String.join (error.frames.map fun place => "\n  " ++ frameText place)

end ExecutionError

/-- Any failure of the host. -/
inductive HostError where
  | parsing (error : ParsingError)
  | preparation (error : PreparationError)
  | execution (error : ExecutionError)
  | document (error : DocumentError)
  | context (error : ContextError)
  | language (error : LanguageError)
deriving DecidableEq, Repr, Inhabited

/-- The wording of a failure: its concern, then the error itself. -/
def HostError.message : HostError → String
  | .parsing error => "Parsing error: " ++ error.message
  | .preparation error => "Preparation error: " ++ error.message
  | .execution error => "Execution error: " ++ error.message
  | .document error => "Document error: " ++ error.message
  | .context error => "Context error: " ++ error.message
  | .language error => "Language error: " ++ error.message

/-! ## Chains of causes

Below each error stand the causes that led to it.  A parsing error that only
passes on another error stands for that error, so its causes are the causes of
that error. -/

/-- The wordings of what lies below a document error. -/
def DocumentError.causes : DocumentError → List String
  | .file _ reason => [reason.message]
  | _ => []

/-- The wordings of what lies below a context error. -/
def ContextError.causes : ContextError → List String
  | .output reason => [reason.message]
  | _ => []

/-- The wordings of what lies below a preparation error. -/
def PreparationError.causes (error : PreparationError) : List String :=
  (error.cause.map Mini.SyntaxError.render).toList

/-- The wordings of what lies below a parsing error. -/
def ParsingError.causes : ParsingError → List String
  | .preparation error => error.causes
  | .document error => error.causes
  | _ => []

/-- The wordings of what lies below a cause. -/
def Cause.causes : Cause → List String
  | .context error => error.causes
  | .parsing error => error.causes
  | .preparation error => error.causes
  | .document error => error.causes

/-- The wordings of what lies below an execution error. -/
def ExecutionError.causes (error : ExecutionError) : List String :=
  match error.cause with
  | some cause => cause.message :: cause.causes
  | none => []

/-- The wordings of what lies below a failure. -/
def HostError.causes : HostError → List String
  | .parsing error => error.message :: error.causes
  | .preparation error => error.message :: error.causes
  | .execution error => error.message :: error.causes
  | .document error => error.message :: error.causes
  | .context error => error.message :: error.causes
  | .language error => [error.message]

end DocumentHost
