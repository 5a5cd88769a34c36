import DocumentHost.Language.Adapter

/-!
# The echo language

Echo is a language for watching the host at work.  Every step of a program is
reported, and a program writes its own text unless the text is one of a few
commands.  It is chosen which kinds of code the language can generate.
-/

namespace DocumentHost.Echo

/-- Which kinds of code the language generates. -/
structure Abilities where
  literal : Bool := true
  expression : Bool := true
  documentInclude : Bool := true
deriving Repr, Inhabited

/-- A text without the spaces at both ends. -/
def stripped (text : String) : String :=
  let isSpace (character : Char) : Bool := character = ' '
  String.ofList
    (((text.toList.dropWhile isSpace).reverse.dropWhile isSpace).reverse)

/-- What is left of a command behind its first word. -/
def operand? (word : String) (command : String) : Option String :=
  if (word ++ " ").toList.isPrefixOf command.toList then
    some (String.ofList (command.toList.drop (word.length + 1)))
  else none

/-- The meaning of a program text. -/
def perform (text : String) : Script Unit := do
  let command := stripped text
  match operand? "include" command, operand? "tag" command with
  | some name, _ => Script.request (.includeDocument name)
  | none, some tag => do
      let found ← Script.request (.adapterName tag)
      Script.request (.write .output (found.getD "-"))
  | none, none =>
      if command = "fail" then Script.fail (.ofDescription "echo failure")
      else if command = "immutable" then Script.request .freeze
      else if command = "release" then Script.request .release
      else if command = "current" then do
        let current ← Script.request .isCurrent
        Script.request (.write .output (if current then "current" else "other"))
      else Script.request (.write .output text)

/-- The reported form of a truth value. -/
def truth (value : Bool) : String :=
  if value then "true" else "false"

/-- The program of a fragment. -/
def programOf (name : String) (fragment : Fragment) : Program where
  prepare :=
    ⟨["prepare " ++ name],
      if stripped fragment.text = "unprepared" then
        .error ⟨fragment.place, "not preparable", none⟩
      else .ok ()⟩
  run := do
    Script.request (.note ("run " ++ name))
    perform fragment.text

/-- The adapter of the language. -/
def adapter (profile : AdapterProfile) (abilities : Abilities) : Adapter where
  profile := profile
  codeForLiteral text := if abilities.literal then some ("[L:" ++ text ++ "]") else none
  codeForExpression text := if abilities.expression then some ("[E:" ++ text ++ "]") else none
  codeForInclude text := if abilities.documentInclude then some ("[I:" ++ text ++ "]") else none
  codeForEntry _ := none
  compile fragment :=
    ⟨["compile " ++ profile.name ++ (if fragment.isScriptlet then " scriptlet" else " program")],
      if stripped fragment.text = "reject" then .error (.malformed fragment.place "rejected")
      else .ok (programOf profile.name fragment)⟩
  enter entry arguments := do
    Script.request (.note ("enter " ++ profile.name))
    if entry = "missing" then Script.fail (.ofDescription "echo has no such entry")
    else pure (.text (entry ++ "/" ++ toString arguments.length))
  onRelease released := ["release " ++ profile.name ++ " released=" ++ truth released]

end DocumentHost.Echo
