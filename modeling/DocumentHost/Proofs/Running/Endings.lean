import DocumentHost.Proofs.Running.Documents

/-!
# Mini executions end

Whatever the documents of a Mini host include, and whatever entry points are defined, redefined and
called, every execution, every entry and every include comes to its end, with no more calls and
includes open at any moment than there may be.
-/

namespace DocumentHost

open Mini (callLimit)

/-- The run of some work comes to the end that an operation comes to.  At every moment of it the
limits are kept, what would go beyond them fails, and behind it as many includes are active as
before. -/
structure EndsAs {ω : Type} (world : World) (work : Work ω) (action : HostM ExecutionError ω) :
    Prop where
  ends : ⟨.finish (action.eval world).1, [], (action.eval world).2⟩ ∈
    StateTransition.eval Moment.next? (.starting work world)
  within : ∀ moment, StateTransition.Reaches Moment.next? (.starting work world) moment →
    moment.Fits world.includeDepth
  refused : ∀ moment, StateTransition.Reaches Moment.next? (.starting work world) moment →
    (∀ site name next, moment.work = .includeDocument site name next →
      includeLimit ≤ moment.world.includeDepth →
      moment.next? =
        some { moment with work := next (.error (.ofDocument (.dependencyLoop name))) }) ∧
    ∀ site name arguments next, moment.work = .call site name arguments next →
      callLimit ≤ Opened.calls moment.opened →
      moment.next? =
        some { moment with
          work := next (.error (.ofDescription (Mini.Fault.callDepth name).message)) }
  unwound : (action.eval world).2.includeDepth = world.includeDepth
  mini : (action.eval world).2.MiniOnly

theorem Fits.start {world : World} (mini : world.MiniOnly) : Fits world.includeDepth [] world where
  depth := rfl
  documents := Nat.le_max_left _ _
  calls outer suffix := by
    obtain rfl := List.suffix_nil.1 suffix
    exact Nat.zero_le _
  mini := mini

/-- Work that carries out an operation with all calls and includes left ends as it does. -/
theorem CarriesOut.endsAs {ω : Type} {world : World} {work : Work ω}
    {action : HostM ExecutionError ω}
    (carries : CarriesOut (includeLimit + 1) callLimit world work action) (mini : world.MiniOnly) :
    EndsAs world work action := by
  obtain ⟨through, stays⟩ := carries ω world.includeDepth [] .finish (.start mini) (Nat.zero_add _)
    (by omega)
  rw [Work.andThen_finish] at through
  have ends := StateTransition.mem_eval.2 ⟨through.reaches, rfl⟩
  refine ⟨ends, fun moment => through.forall_of_ended rfl, fun moment _ => ⟨?_, ?_⟩, stays.depth,
    stays.mini⟩
  · obtain ⟨work, opened, behind⟩ := moment
    rintro site name next rfl full
    exact if_pos (Nat.lt_succ_of_le full)
  · obtain ⟨work, opened, behind⟩ := moment
    rintro site name arguments next rfl full
    exact if_pos full

/-- In a Mini host every execution, every entry and every include ends, and the limits are kept.  A
controller may do what it likes, as long as the host remains a Mini host and as many includes are
active behind it as before. -/
theorem mini_runs_end {world : World} (mini : world.MiniOnly) :
    (∀ (site : Site) container controller,
      (∀ present, controller = some present → present.Keeps World.Stays site.context) →
      EndsAs world (site.execution container controller)
        (execute site.executable site.context container controller)) ∧
    (∀ executable key entry arguments,
      EndsAs world (entering executable key entry arguments)
        (enter executable key entry arguments)) ∧
    (∀ (site : Site) name,
      EndsAs world (.includeDocument site name .finish)
        (includeDocument site.executable name site.context)) := by
  have includes := Site.includes_carriedOut (includeLimit + 1)
  refine ⟨fun site container controller controlled => ?_, fun executable key entry arguments => ?_,
    fun site name => ?_⟩
  · exact (site.execution_carriedOut includes container controlled).endsAs mini
  · exact (entering_carriedOut executable key entry arguments mini).endsAs mini
  · exact (includes site name world callLimit).endsAs mini

section Recursion

/-- A host with the standard adapter and with one context. -/
def recursionStart : World where
  toLanguages := .of [⟨Mini.standard, true⟩] [[⟨0⟩]]
  contexts := ⟨[{ output := ⟨0⟩, errorOutput := ⟨1⟩ }]⟩
  sinks := ⟨[{}, {}]⟩
  source := some (.inMemory "m")

/-- A page calls an entry point that calls itself. -/
def recursionHost : World :=
  ((putDocument "page" "<% def f { call f; } call f; %>" "" : HostM Empty _).eval
    recursionStart).2

def recursionSetting : Setting where
  registry := ⟨0⟩
  sourced := true
  options := { parser := scriptletsParser, defaultTag := some Mini.miniTag }

/-- The page has been compiled. -/
def recursionCompiled : World :=
  ((obtainExecutable recursionSetting "page").eval recursionHost).2

theorem miniOnly_recursionHost : recursionHost.MiniOnly := by
  refine .of_unused ?_ rfl ?_
  · rintro ⟨_ | _⟩ id member
    · obtain rfl := List.mem_singleton.1 member
      exact ⟨_, rfl⟩
    · cases member
  · rintro ⟨_ | _⟩ <;> rfl

theorem mini_runs_end_recursion :
    recursionCompiled.MiniOnly ∧
      ((execute ⟨0⟩ ⟨0⟩).eval recursionCompiled).1 =
        .error ⟨"call depth exceeded while calling 'f'", [⟨"page", .start⟩], none⟩ ∧
      EndsAs recursionCompiled (Site.execution ⟨⟨0⟩, ⟨0⟩⟩ none none) (execute ⟨0⟩ ⟨0⟩) := by
  have mini : recursionCompiled.MiniOnly :=
    (World.Stays.obtainExecutable recursionSetting "page" recursionHost
      miniOnly_recursionHost).mini
  have fails : ((execute ⟨0⟩ ⟨0⟩).eval recursionCompiled).1 =
      .error ⟨"call depth exceeded while calling 'f'", [⟨"page", .start⟩], none⟩ := by
    decide +kernel
  exact ⟨mini, fails, (mini_runs_end mini).1 ⟨⟨0⟩, ⟨0⟩⟩ none none nofun⟩

end Recursion

end DocumentHost
