import DocumentHost.CommandLine.Explanation
import DocumentHost.Config.Storage
import DocumentHost.Host.Execute
import DocumentHost.Mini.Language

/-!
# Performing commands

A command works on a file tree and leaves an exit code, what was written to the
two outputs, and the file tree as it is then.  A failure is reported with the
chain of its causes.
-/

namespace DocumentHost.CommandLine

/-- What a command leaves. -/
structure Outcome where
  code : Nat
  output : String := ""
  errorOutput : String := ""
  files : FileTree
deriving Inhabited

/-- A failure: what is said of it, what lies below it, and whether the line is ended. -/
structure Failure where
  message : String
  causes : List String := []
  endsLine : Bool := true
deriving Repr, Inhabited

namespace Failure

/-- The failure of the host. -/
def ofHost (error : HostError) : Failure :=
  { message := error.message, causes := error.causes }

/-- The failure of a configuration.  What is wrong with a malformed one is not said
further. -/
def ofConfig (error : ConfigError) : Failure :=
  { message := error.message, causes := error.causes, endsLine := error != .malformed }

/-- A failure seen from what was to be done. -/
def within (message : String) (failure : Failure) : Failure :=
  { failure with message, causes := failure.message :: failure.causes }

/-- Lines behind a first beginning and a beginning for the others. -/
def indented (first others text : String) : String :=
  first ++ String.intercalate ("\n" ++ others) (text.splitOn "\n")

/-- Causes with their numbers. -/
def numbered (number : Nat) : List String → String
  | [] => ""
  | cause :: rest =>
      let digits := toString number
      let start := String.ofList (List.replicate (5 - digits.length) ' ') ++ digits ++ ": "
      "\n" ++ indented start "       " cause ++ numbered (number + 1) rest

/-- The report of a failure: a single cause is indented, several are numbered. -/
def report (failure : Failure) : String :=
  let below :=
    match failure.causes with
    | [] => ""
    | [cause] => "\n\nCaused by:\n" ++ indented "    " "    " cause
    | causes => "\n\nCaused by:" ++ numbered 0 causes
  "Error: " ++ failure.message ++ below ++ (if failure.endsLine then "\n" else "")

end Failure

/-- Commands work on a host and may fail. -/
abbrev Work : Type → Type := HostM Failure

/-- The configuration to work with: the one that is named, else the one in the root,
else the default for the root. -/
def chooseConfig (invocation : Invocation) (files : FileTree) : Except Failure Configuration :=
  let standard := Path.join invocation.root configFileName
  match invocation.config with
  | some path => (files.readConfig path).mapError Failure.ofConfig
  | none =>
      if files.isFile standard then (files.readConfig standard).mapError Failure.ofConfig
      else .ok (Configuration.ofRoot invocation.root)

/-- Set up a host with the standard language and documents from files. -/
def setUp (config : Configuration) : Work Setting := do
  let (adapter, world) := (← get).addAdapter Mini.standard
  let (registry, world) := world.addRegistry
  set { world with source := some (Source.ofFiles config.files) }
  (register registry adapter).convert fun error => Failure.ofHost (.language error)
  return ⟨registry, true, config.parsing⟩

/-- Load a document. -/
def load (setting : Setting) (name : String) (parser : Option String) : Work ExecutableId :=
  let options :=
    match parser with
    | some parser => { setting.options with parser }
    | none => setting.options
  (obtainExecutable { setting with options } name).convert fun error =>
    (Failure.ofHost (.parsing error)).within ("Failed to load document '" ++ name ++ "'")

/-- An argument of an entry point: a written value, or else a text. -/
def argumentValue (word : String) : Json :=
  (Json.parse? word).getD (.text word)

/-- Execute a document, and run an entry point if one is named. -/
def performRun (setting : Setting) (name : String) (parser entry : Option String)
    (arguments : List String) (context : ContextId) : Work String := do
  let executable ← load setting name parser
  match entry with
  | none => do
      (execute executable context).convert fun error => Failure.ofHost (.execution error)
      return ""
  | some entry => do
      let _ ← (bindEnterable executable "cli" context).convert fun error =>
        Failure.ofHost (.execution error)
      let value ← (enter executable "cli" entry (arguments.map argumentValue)).convert
        fun error => Failure.ofHost (.execution error)
      match value with
      | .null => return ""
      | value => return "\n=> " ++ value.compact ++ "\n"

/-- The line of a segment. -/
def segmentLine (number : Nat) : Segment → String
  | .literal text position =>
      "  [" ++ toString number ++ "] literal at " ++ position.render ++ ": " ++
        Text.quoted text ++ "\n"
  | .program text tag position _ _ =>
      "  [" ++ toString number ++ "] " ++ tag ++ " at " ++ position.render ++ ": " ++
        Text.quoted text ++ "\n"

/-- The lines of segments, numbered from a number on. -/
def segmentLines (number : Nat) : List Segment → String
  | [] => ""
  | segment :: rest => segmentLine number segment ++ segmentLines (number + 1) rest

/-- Show the segments of a document. -/
def performSegments (setting : Setting) (name : String) (parser : Option String) :
    Work String := do
  let id ← load setting name parser
  let executable := (← get).executables.get id
  return executable.documentName ++ " (" ++ toString executable.segments.length ++
    " segments)\n" ++ segmentLines 0 executable.segments

/-- The line of a document. -/
def documentLine (descriptor : Descriptor) : String :=
  descriptor.name ++ "\t" ++ descriptor.tag ++ "\t" ++ descriptor.timestamp.render ++ "\n"

/-- List the documents. -/
def performList : Work String := do
  let ids ← listDocuments.convert fun error => Failure.ofHost (.document error)
  let world ← get
  return String.join (ids.map fun id => documentLine (world.descriptors.get id))

/-- Store a default configuration. -/
def performInitConfig (invocation : Invocation) (force : Bool) : Work String := do
  let path := invocation.config.getD (Path.join invocation.root configFileName)
  let world ← get
  if world.files.exists? path && !force then
    throw { message := Text.quoted path ++ " already exists (use --force to overwrite)" }
  let (stored, files) :=
    world.files.storeConfig path (Configuration.ofRoot invocation.root) world.clock
  set { world with files }
  HostM.ofExcept (stored.mapError Failure.ofConfig)
  return "Wrote default configuration to " ++ Text.quoted path ++ "\n"

/-- Perform a command; the context is the one that documents run against. -/
def performCommand (invocation : Invocation) (context : ContextId) : Work String := do
  let configured : Work Configuration := do
    HostM.ofExcept (chooseConfig invocation (← get).files)
  match invocation.command with
  | .run name parser defaultTag entry arguments => do
      let config ← configured
      let parsing :=
        if defaultTag.isSome then { config.parsing with defaultTag } else config.parsing
      let setting ← setUp { config with parsing }
      performRun setting name parser entry arguments context
  | .segments name parser => do performSegments (← setUp (← configured)) name parser
  | .list => do
      let _ ← setUp (← configured)
      performList
  | .initConfig force => performInitConfig invocation force

/-- Perform a command line on a file tree at a time. -/
def perform (words : List String) (files : FileTree) (now : Instant) : Outcome :=
  match understand words with
  | .error .usage => { code := 2, files }
  | .error (.explain topic) => { code := 0, output := topic.text, files }
  | .ok invocation =>
      let work : Work (ContextId × Except Failure String) := do
        let context ← newContext (← newSink {}) (← newSink {})
        let outcome ←
          (holding { contexts := [context] } (performCommand invocation context)).attempt
        return (context, outcome)
      match work.run { files, clock := now } with
      | (.error failure, world) =>
          { code := 1, errorOutput := failure.report, files := world.files }
      | (.ok (id, outcome), world) =>
          let context := world.contexts.get id
          let output := (world.sinks.get context.output).text
          let errorOutput := (world.sinks.get context.errorOutput).text
          match outcome with
          | .ok text => { code := 0, output := output ++ text, errorOutput, files := world.files }
          | .error failure =>
              { code := 1, output, errorOutput := errorOutput ++ failure.report
                files := world.files }

end DocumentHost.CommandLine
