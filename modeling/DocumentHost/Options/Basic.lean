/-!
# Parsing options

The options say how documents are taken apart and compiled: which parser
handles top-level and included documents, which language untagged code is in,
how scriptlets are delimited and marked, and under which name the caller's
container is found.
-/

namespace DocumentHost

/-- The texts that open and close a scriptlet. -/
structure Delimiters where
  opening : String
  closing : String
deriving DecidableEq, Repr, Inhabited

/-- The texts at the start of a scriptlet that change its treatment. -/
structure Markers where
  /-- The scriptlet is dropped. -/
  comment : String := "--"
  /-- The value of the scriptlet is written to the output. -/
  expression : String := "="
  /-- The document that the scriptlet names is included. -/
  documentInclude : String := "&"
  /-- The scriptlet is compiled as a document of its own and included. -/
  inFlow : String := ":"
deriving DecidableEq, Repr, Inhabited

/-- The parser of whole programs. -/
def programParser : String := "program"

/-- The parser of literal texts. -/
def textParser : String := "text"

/-- The parser of literal text mixed with scriptlets. -/
def scriptletsParser : String := "scriptlets"

/-- The parsers in the order of their names. -/
def parserNames : List String :=
  [programParser, scriptletsParser, textParser]

/-- How documents are parsed and compiled. -/
structure CompileOptions where
  /-- The parser of top-level documents. -/
  parser : String := programParser
  /-- The parser of documents that are included by name. -/
  includeParser : String := scriptletsParser
  /-- The language of untagged code; otherwise the filename extension decides. -/
  defaultTag : Option String := none
  /-- Whether programs are checked when they are compiled. -/
  prepare : Bool := false
  /-- The pairs of delimiters; a document uses the pair that opens first. -/
  delimiters : List Delimiters := [⟨"<%", "%>"⟩, ⟨"<?", "?>"⟩]
  markers : Markers := {}
  /-- The name under which the caller's container is installed. -/
  containerService : String := "container"
deriving DecidableEq, Repr, Inhabited

namespace CompileOptions

/-- The options under which the documents included by a document are compiled. -/
def forIncludes (options : CompileOptions) : CompileOptions :=
  { options with parser := options.includeParser }

end CompileOptions

end DocumentHost
