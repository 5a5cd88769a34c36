import DocumentHost.Language.Adapter
import DocumentHost.Mini.Code
import DocumentHost.Mini.Interpreter
import DocumentHost.Mini.Reader

/-!
# Mini as a language of the host

A Mini fragment is compiled whatever it says; it is parsed when it is prepared
or run.  A mistake is reported at its place in the document.
-/

namespace DocumentHost.Mini

/-- The tag and the extension of Mini. -/
def miniTag : String := "mini"

/-- The description of the standard adapter. -/
def standardProfile : AdapterProfile :=
  { AdapterProfile.ofTag "Mini" miniTag with extensions := [miniTag], threadSafe := true }

/-- A mistake in a fragment, reported at its place in the document. -/
def preparationError (place : Place) (error : SyntaxError) : PreparationError :=
  { place := ⟨place.document, place.position.within error.position⟩
    description := error.mistake.message
    cause := some error }

/-- The statements of a fragment. -/
def statementsOf (fragment : Fragment) : Except PreparationError (List Statement) :=
  (parse fragment.text).mapError (preparationError fragment.place)

/-- The program of a fragment. -/
def programOf (fragment : Fragment) : Program where
  prepare := ⟨[], (statementsOf fragment).map fun _ => ()⟩
  run :=
    match statementsOf fragment with
    | .ok statements => runProgram statements
    | .error error => .fail (.ofPreparation error)

/-- Mini under a description of one's own. -/
def adapter (profile : AdapterProfile) : Adapter where
  profile := profile
  codeForLiteral text := some (Mini.codeForLiteral text)
  codeForExpression expression := some (Mini.codeForExpression expression)
  codeForInclude expression := some (Mini.codeForInclude expression)
  codeForEntry name := some (Mini.codeForEntry name)
  compile fragment := ⟨[], .ok (programOf fragment)⟩
  enter := enter
  onRelease _ := []

/-- The standard adapter. -/
def standard : Adapter :=
  adapter standardProfile

end DocumentHost.Mini
