import DocumentHost.Proofs.Running.Work
import Mathlib.Computability.StateTransition

/-!
# A run, moment by moment

A moment of a run is the work that is left, the calls and includes that are open, and the state of
the host.  One step does the first bit of work.  An entry point or a document that is to be run is
looked at only then: if too many calls are open in the run of its program, or too many includes
are active, it fails, else it becomes open and what it does is put in front of the work.
-/

namespace DocumentHost

/-- What has been begun and has not come to its end. -/
inductive Opened where
  | call (name : String)
  | document (name : String)

namespace Opened

/-- The number of calls that are open in the innermost run of a program. -/
def calls : List Opened → Nat
  | .call _ :: outer => calls outer + 1
  | _ => 0

/-- The number of includes that are open. -/
def documents : List Opened → Nat
  | [] => 0
  | .call _ :: outer => documents outer
  | .document _ :: outer => documents outer + 1

end Opened

/-- A moment of a run. -/
structure Moment (ω : Type) where
  work : Work ω
  /-- What is open, the innermost first. -/
  opened : List Opened
  world : World

namespace Moment

variable {ω : Type}

/-- Some work is about to be done, and nothing is open yet. -/
def starting (work : Work ω) (world : World) : Moment ω :=
  ⟨work, [], world⟩

/-- The moment behind one step, unless the run is over. -/
def next? : Moment ω → Option (Moment ω)
  | ⟨.finish _, _, _⟩ => none
  | ⟨.act change next, opened, world⟩ => some ⟨next world, opened, change world⟩
  | ⟨.call site name arguments next, opened, world⟩ =>
      if Mini.callLimit ≤ Opened.calls opened then
        some ⟨next (.error (.ofDescription (Mini.Fault.callDepth name).message)), opened, world⟩
      else
        some
          { work := (site.entryPoint name arguments).andThen fun outcome => .close (next outcome)
            opened := .call name :: opened
            world }
  | ⟨.includeDocument site name next, opened, world⟩ =>
      if includeLimit < world.includeDepth + 1 then
        some ⟨next (.error (.ofDocument (.dependencyLoop name))), opened, world⟩
      else
        some
          { work := (site.inclusion name).andThen fun outcome => .close (next outcome)
            opened := .document name :: opened
            world := { world with includeDepth := world.includeDepth + 1 } }
  | ⟨.close next, .call _ :: opened, world⟩ => some ⟨next, opened, world⟩
  | ⟨.close next, .document _ :: opened, world⟩ =>
      some ⟨next, opened, { world with includeDepth := world.includeDepth - 1 }⟩
  | ⟨.close _, [], _⟩ => none

/-- A moment is reached from another one, and all moments on the way are of a kind. -/
inductive Through (Kind : Moment ω → Prop) : Moment ω → Moment ω → Prop
  | here {moment : Moment ω} (isKind : Kind moment) : Through Kind moment moment
  | step {moment next last : Moment ω} (isKind : Kind moment)
      (steps : moment.next? = some next) (rest : Through Kind next last) :
      Through Kind moment last

namespace Through

variable {Kind : Moment ω → Prop} {first middle last moment : Moment ω}

theorem trans (front : Through Kind first middle) (back : Through Kind middle last) :
    Through Kind first last := by
  induction front with
  | here => exact back
  | step isKind steps _ ih => exact .step isKind steps (ih back)

theorem reaches (through : Through Kind first last) : StateTransition.Reaches next? first last := by
  induction through with
  | here => exact .refl
  | step _ steps _ ih => exact .head steps ih

/-- Where a run has ended, all its moments have been on the way. -/
theorem forall_of_ended (through : Through Kind first last) (ended : last.next? = none)
    (reached : StateTransition.Reaches next? first moment) : Kind moment := by
  induction through with
  | here isKind =>
      rcases reached.cases_head with rfl | ⟨next, steps, -⟩
      · exact isKind
      · exact absurd (ended.symm.trans steps) nofun
  | step isKind steps _ ih =>
      rcases reached.cases_head with rfl | ⟨next, otherSteps, rest⟩
      · exact isKind
      · obtain rfl := Option.some.inj (steps.symm.trans otherSteps)
        exact ih ended rest

end Through

end Moment

end DocumentHost
