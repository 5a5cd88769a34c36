/-!
# Arguments of the command line

The command line names a root directory, possibly a configuration file, and a
command.  An option takes its value from the same word or from the next one,
and may be given once.  A word that begins with a dash is an option unless two
dashes alone came before.
-/

namespace DocumentHost.CommandLine

/-- What is to be done. -/
inductive Command where
  | run (name : String) (parser defaultTag entry : Option String) (arguments : List String)
  | segments (name : String) (parser : Option String)
  | list
  | initConfig (force : Bool)
deriving DecidableEq, Repr

/-- The topics that can be explained. -/
inductive Topic where
  | host
  | run
  | segments
  | list
  | initConfig
  | help
deriving DecidableEq, Repr

/-- A command line that has been understood. -/
structure Invocation where
  root : String := "."
  config : Option String := none
  command : Command
deriving DecidableEq, Repr

/-- Why there is nothing to be done. -/
inductive Refusal where
  | usage
  | explain (topic : Topic)
deriving DecidableEq, Repr

/-- An option: its long name, its letter, and whether it takes a value. -/
structure OptionShape where
  long : String
  short : Option Char := none
  takesValue : Bool := true
  /-- Whether the value may be empty. -/
  allowsEmpty : Bool := true
deriving DecidableEq, Repr

/-- What has been read of the words of a command. -/
structure Gathered where
  options : List (String × String) := []
  positionals : List String := []
  /-- An option whose value is the word behind it.  It is looked at when the next option
  comes, or at the end. -/
  pending : Option (OptionShape × String) := none
deriving Repr

/-- How a word begins. -/
inductive WordShape where
  | plain
  | separator
  | long (name : String) (value : Option String)
  | short (letter : Char) (rest : List Char)
deriving DecidableEq, Repr

/-- Take a word apart.  A single dash is a plain word. -/
def wordShape (word : String) : WordShape :=
  match word.toList with
  | ['-', '-'] => .separator
  | '-' :: '-' :: rest =>
      match rest.dropWhile (· != '=') with
      | [] => .long (String.ofList rest) none
      | _ :: value =>
          .long (String.ofList (rest.takeWhile (· != '='))) (some (String.ofList value))
  | '-' :: letter :: rest => .short letter rest
  | _ => .plain

/-- Record an option.  It may be given once, and its value may have to be there. -/
def Gathered.addOption (gathered : Gathered) (shape : OptionShape) (value : String) :
    Except Refusal Gathered :=
  if gathered.options.any fun known => known.1 = shape.long then .error .usage
  else if value = "" && shape.takesValue && !shape.allowsEmpty then .error .usage
  else .ok { gathered with options := gathered.options ++ [(shape.long, value)] }

/-- Record the option that has not been looked at. -/
def Gathered.settle (gathered : Gathered) : Except Refusal Gathered :=
  match gathered.pending with
  | some (shape, value) => { gathered with pending := none }.addOption shape value
  | none => .ok gathered

/-- The value of an option. -/
def Gathered.option? (gathered : Gathered) (name : String) : Option String :=
  gathered.options.lookup name

/-- Take the value of an option from the words behind it. -/
def Gathered.takeValue (gathered : Gathered) (shape : OptionShape) (words : List String) :
    Except Refusal (Gathered × List String) :=
  match words with
  | [] => .error .usage
  | word :: rest =>
      if wordShape word = .plain then
        .ok ({ gathered with pending := some (shape, word) }, rest)
      else .error .usage

/-- The letter that asks for an explanation. -/
def helpLetter : Char := 'h'

/-- One step over a word that is an option.  The option before it is looked at first. -/
def readOption (shapes : List OptionShape) (topic : Topic) (gathered : Gathered)
    (word : WordShape) (rest : List String) : Except Refusal (Gathered × List String) := do
  let gathered ← gathered.settle
  match word with
  | .long name value =>
      if name = "help" then .error (if value.isNone then .explain topic else .usage)
      else
        match shapes.find? fun shape => shape.long = name with
        | none => .error .usage
        | some shape =>
            match value with
            | some value =>
                if shape.takesValue then return (← gathered.addOption shape value, rest)
                else .error .usage
            | none =>
                if shape.takesValue then gathered.takeValue shape rest
                else return (← gathered.addOption shape "", rest)
  | .short letter attached =>
      if letter = helpLetter then .error (.explain topic)
      else
        match shapes.find? fun shape => shape.short = some letter with
        | none => .error .usage
        | some shape =>
            match attached with
            | [] => gathered.takeValue shape rest
            | '=' :: value => return (← gathered.addOption shape (String.ofList value), rest)
            | value => return (← gathered.addOption shape (String.ofList value), rest)
  | _ => .error .usage

/-- Read the words of a command: options and at most `limit` other words. -/
def gather (shapes : List OptionShape) (topic : Topic) (limit : Option Nat) :
    Nat → Gathered → List String → Except Refusal Gathered
  | 0, gathered, _ => .ok gathered
  | _, gathered, [] => .ok gathered
  | fuel + 1, gathered, word :: rest =>
      let addPositionals (words : List String) : Except Refusal Gathered :=
        let positionals := gathered.positionals ++ words
        if limit.all fun most => positionals.length ≤ most then
          .ok { gathered with positionals }
        else .error .usage
      match wordShape word with
      | .plain => do gather shapes topic limit fuel (← addPositionals [word]) rest
      | .separator => addPositionals rest
      | shape => do
          let (gathered, rest) ← readOption shapes topic gathered shape rest
          gather shapes topic limit fuel gathered rest

/-- Read all words of a command. -/
def gatherAll (shapes : List OptionShape) (topic : Topic) (limit : Option Nat)
    (words : List String) : Except Refusal Gathered := do
  (← gather shapes topic limit (words.length + 1) {} words).settle

/-- The options in front of the command. -/
def hostOptions : List OptionShape :=
  [{ long := "root", short := some 'r', allowsEmpty := false },
    { long := "config", short := some 'c', allowsEmpty := false }]

/-- The option that names a parser. -/
def parserOption : OptionShape := { long := "parser" }

/-- Understand the words of a command. -/
def readCommand (name : String) (words : List String) : Except Refusal Command :=
  if name = "run" then do
    let gathered ← gatherAll [parserOption, { long := "default-tag" }, { long := "enter" }]
      .run none words
    match gathered.positionals with
    | [] => .error .usage
    | document :: arguments =>
        return .run document (gathered.option? "parser") (gathered.option? "default-tag")
          (gathered.option? "enter") arguments
  else if name = "segments" then do
    let gathered ← gatherAll [parserOption] .segments (some 1) words
    match gathered.positionals with
    | [document] => return .segments document (gathered.option? "parser")
    | _ => .error .usage
  else if name = "list" then do
    let _ ← gatherAll [] .list (some 0) words
    return .list
  else if name = "init-config" then do
    let gathered ← gatherAll [{ long := "force", takesValue := false }] .initConfig (some 0) words
    return .initConfig (gathered.option? "force").isSome
  else .error .usage

/-- The topic of a command's name. -/
def topicOf? (name : String) : Option Topic :=
  if name = "run" then some .run
  else if name = "segments" then some .segments
  else if name = "list" then some .list
  else if name = "init-config" then some .initConfig
  else if name = "help" then some .help
  else none

/-- Understand the request for an explanation. -/
def readHelp : List String → Refusal
  | [] => .explain .host
  | [name] => (topicOf? name).elim .usage .explain
  | _ => .usage

/-- Read the options in front of the command, then the command.  The last option is
looked at behind the command, so that a question for an explanation goes before it. -/
def readWords : Nat → Gathered → List String → Except Refusal Invocation
  | 0, _, _ => .error .usage
  | _, _, [] => .error .usage
  | fuel + 1, gathered, word :: rest =>
      match wordShape word with
      | .plain =>
          if word = "help" then .error (readHelp rest)
          else do
            let command ← readCommand word rest
            let gathered ← gathered.settle
            return {
              root := (gathered.option? "root").getD "."
              config := gathered.option? "config"
              command }
      | .separator => .error .usage
      | shape => do
          let (gathered, rest) ← readOption hostOptions .host gathered shape rest
          readWords fuel gathered rest

/-- Understand a command line. -/
def understand (words : List String) : Except Refusal Invocation :=
  readWords (words.length + 1) {} words

end DocumentHost.CommandLine
