import DocumentHost.Error
import DocumentHost.Json.Value

/-!
# Error reports

A report shows a failure as a value: the kind of the failure, its wording, and
what else is known of it, such as its place, the documents it passed through,
and the kind of its cause.
-/

namespace DocumentHost

/-- A report of a kind of failure, its wording and further members. -/
def errorReport (kind message : String) (more : List (String × Json)) : Json :=
  .object ([("error", .text kind), ("message", .text message)] ++ more)

/-- A position as a pair of line and column. -/
def Position.toValue (position : Position) : Json :=
  .array [.integer position.line, .integer position.column]

/-- The kind of a document error. -/
def DocumentError.kind : DocumentError → String
  | .notFound _ => "Document.NotFound"
  | .dependencyLoop _ => "Document.DependencyLoop"
  | .file _ _ => "Document.Io"

/-- The report of a document error. -/
def DocumentError.report (error : DocumentError) : Json :=
  errorReport error.kind error.message []

/-- The kind of a context error. -/
def ContextError.kind : ContextError → String
  | .released => "Context.Released"
  | .frozen => "Context.Immutable"
  | .alreadyReleased => "Context.AlreadyReleased"
  | .alreadyEnterable => "Context.AlreadyEnterable"
  | .notEnterable _ => "Context.NotEnterable"
  | .foreignExecutable _ => "Context.ForeignExecutable"
  | .noAdapter => "Context.NoAdapter"
  | .output _ => "Context.Output"

/-- The report of a context error. -/
def ContextError.report (error : ContextError) : Json :=
  errorReport error.kind error.message []

/-- The report of a language error. -/
def LanguageError.report (error : LanguageError) : Json :=
  errorReport "Language.AlreadyRegistered" error.message []

/-- The kind of a parsing error. -/
def ParsingError.kind : ParsingError → String
  | .malformed _ _ => "Parsing.Syntax"
  | .noAdapter _ _ => "Parsing.AdapterNotFound"
  | .unsupported _ _ _ => "Parsing.Unsupported"
  | .unknownParser _ => "Parsing.ParserNotFound"
  | .needsSource _ => "Parsing.MissingDocumentSource"
  | .preparation _ => "Parsing.Preparation"
  | .document error => "Parsing." ++ error.kind

/-- The report of a parsing error. -/
def ParsingError.report (error : ParsingError) : Json :=
  errorReport error.kind error.message
    [("position", error.position?.elim .null Position.toValue)]

/-- The kind of the cause of a preparation error: a mistake with its place in the
program text. -/
def PreparationError.causeKind? (error : PreparationError) : Option String :=
  error.cause.map fun mistake => "Syntax " ++ mistake.render

/-- The report of a preparation error. -/
def PreparationError.report (error : PreparationError) : Json :=
  errorReport "Preparation" error.message
    [("position", error.place.position.toValue), ("cause", .ofOption error.causeKind?)]

/-- The kind of a cause. -/
def Cause.kind : Cause → String
  | .context error => error.kind
  | .parsing error => error.kind
  | .preparation error => "Preparation(" ++ error.causeKind?.getD "none" ++ ")"
  | .document error => error.kind

/-- The report of an execution error.  Its frames are reported apart from its
wording. -/
def ExecutionError.report (error : ExecutionError) : Json :=
  errorReport "Execution" error.description
    [("frames", .array (error.frames.map fun place => .text (frameText place))),
      ("cause", .ofOption (error.cause.map Cause.kind))]

end DocumentHost
