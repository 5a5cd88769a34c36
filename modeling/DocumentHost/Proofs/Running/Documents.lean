import DocumentHost.Proofs.Host.Lockstep
import DocumentHost.Proofs.Running.Carrying

/-!
# Documents carried out step by step

What scripts, statements, entry points, programs and documents do is carried out step by step.  The
proofs follow the nesting: statements by the list, entry points by the number of calls that can
still be opened, documents by the number of includes that can still be nested.
-/

namespace DocumentHost

open Mini (callLimit Statement)

variable {levels remaining : Nat} {world : World}

namespace Site

variable {α : Type}

/-- Requests of a program for a site, while some number of levels is left for includes. -/
def serveWithin (levels : Nat) (site : Site) (request : Request) :
    HostM ExecutionError request.Reply :=
  serveRequest (includeWithin levels) site.executable site.context request

/-- Includes are carried out with some number of levels left. -/
def Includes (levels : Nat) : Prop :=
  ∀ (site : Site) name world remaining,
    CarriesOut levels remaining world (.includeDocument site name .finish)
      (includeWithin levels site.executable name site.context)

/-- Calls are carried out with some number of levels left for includes, and while some number of
calls can still be opened. -/
def Calls (levels remaining : Nat) : Prop :=
  ∀ (site : Site) name arguments world,
    CarriesOut levels remaining world (.call site name arguments .finish)
      (runScript (site.serveWithin levels) (Mini.call remaining name arguments))

theorem script_ask (site : Site) (request : Request)
    (next : Except ExecutionError request.Reply → Script α)
    (plain : ∀ name, request ≠ .includeDocument name) :
    site.script (.ask request next) =
      (Work.lift (site.serve request)).andThen fun reply => site.script (next reply) := by
  cases request with
  | includeDocument name => exact absurd rfl (plain name)
  | _ => rfl

/-- What is no include is served in one way. -/
theorem serve_eq_serveWithin (site : Site) (request : Request)
    (plain : ∀ name, request ≠ .includeDocument name) :
    site.serve request = site.serveWithin levels request := by
  cases request with
  | includeDocument name => exact absurd rfl (plain name)
  | _ => rfl

/-- By induction on the script. -/
theorem script_carriedOut (includes : Includes levels) (site : Site) (script : Script α) :
    CarriesOut levels remaining world (site.script script)
      (runScript (site.serveWithin levels) script) := by
  induction script generalizing world with
  | done outcome => exact .of_eval_eq (HostM.eval_ofExcept outcome world).symm (.finish outcome)
  | ask request next ih =>
      have shape : runScript (site.serveWithin levels) (.ask request next) =
          (site.serveWithin levels request).attempt >>= fun reply =>
            runScript (site.serveWithin levels) (next reply) := rfl
      rw [shape]
      by_cases plain : ∀ name, request ≠ .includeDocument name
      · rw [script_ask site request next plain, ← serve_eq_serveWithin site request plain]
        have stays : (site.serve request).Keeps World.Stays :=
          World.Stays.serveRequest site.executable site.context request plain
        exact .andThen _ (.lift (stays world)) fun _ => ih _
      · push Not at plain
        obtain ⟨name, rfl⟩ := plain
        exact .andThen _ (includes site name world remaining) fun _ => ih _

/-- A statement that is no call does not invoke anything. -/
theorem statement_carriedOut (includes : Includes levels) (calls : Calls levels remaining)
    (site : Site) (arguments : List Json) (statement : Statement) :
    CarriesOut levels remaining world (site.statement arguments statement)
      (runScript (site.serveWithin levels)
        (Mini.step (Mini.call remaining) arguments statement)) := by
  cases statement with
  | call name values =>
      rw [Site.statement, Mini.step, runScript_bind]
      refine .bind (site.script_carriedOut includes _) fun values between _ _ => ?_
      rw [runScript_bind]
      exact .bind (calls site name values between) fun _ _ _ _ => .pure _
  | _ => exact site.script_carriedOut includes _

/-- By induction on the statements. -/
theorem statements_carriedOut (includes : Includes levels) (calls : Calls levels remaining)
    (site : Site) (arguments : List Json) (statements : List Statement) :
    CarriesOut levels remaining world (site.statements arguments statements)
      (runScript (site.serveWithin levels)
        (Mini.runStatements (Mini.call remaining) arguments statements)) := by
  induction statements generalizing world with
  | nil => exact .pure _
  | cons statement rest ih =>
      rw [Site.statements, Mini.runStatements, runScript_bind]
      refine .bind (site.statement_carriedOut includes calls arguments statement)
        fun ending between _ _ => ?_
      cases ending with
      | returned value => exact .pure _
      | completed => exact ih

/-- By induction on the calls that can still be opened. -/
theorem calls_carriedOut (includes : Includes levels) (remaining : Nat) :
    Calls levels remaining := by
  induction remaining with
  | zero => exact fun site name arguments world => .call_refused site name arguments rfl
  | succ remaining ih =>
      intro site name arguments world
      refine .call_opened ?_
      rw [Site.entryPoint, Mini.call, runScript_bind]
      refine .bind (site.script_carriedOut includes _) fun found between _ _ => ?_
      cases found with
      | none => exact site.script_carriedOut includes _
      | some service =>
          cases service with
          | text message => exact site.script_carriedOut includes _
          | routine kept body =>
              dsimp only
              rw [runScript_bind]
              refine .bind (site.statements_carriedOut includes ih arguments body)
                fun ending behind _ _ => ?_
              cases ending <;> exact .pure _

theorem program_carriedOut (includes : Includes levels) (site : Site) (fragment : Fragment) :
    CarriesOut levels callLimit world (site.program fragment)
      (runScript (site.serveWithin levels) (Mini.programOf fragment).run) := by
  simp only [Site.program, Mini.programOf]
  cases Mini.statementsOf fragment with
  | error error => exact .throw _
  | ok statements =>
      dsimp only
      rw [Mini.runProgram, runScript_bind]
      exact .bind (site.statements_carriedOut includes (calls_carriedOut includes callLimit) [] _)
        fun _ _ _ _ => .pure _

/-- By induction on the segments. -/
theorem walk_carriedOut (includes : Includes levels) (site : Site) (documentName : String)
    {segments : List Segment} (written : world.WrittenInMini documentName segments) :
    CarriesOut levels callLimit world (site.walk documentName segments)
      (walkSegments (fun program => runScript (site.serveWithin levels) program.run) documentName
        site.context segments) := by
  induction segments generalizing world with
  | nil => exact .pure _
  | cons segment rest ih =>
      have restWritten : world.WrittenInMini documentName rest :=
        fun text tag position adapter program member =>
          written text tag position adapter program (List.mem_cons_of_mem _ member)
      cases segment with
      | literal text position =>
          have writes : (site.serve (.write .output text)).Keeps World.Stays :=
            World.Stays.serveRequest site.executable site.context _ nofun
          exact .bind (.convert _ (.lift (writes world))) fun _ between _ stays =>
            ih (restWritten.of_same stays.adapters)
      | program text tag position adapter program =>
          obtain ⟨isMini, isScriptlet, rfl⟩ := written text tag position adapter program (by simp)
          refine .bind (.lift (World.Stays.inContext site.context (.addAdapter adapter) ?_))
            fun _ between _ stays => ?_
          · rintro _ ⟨⟩
            exact isMini
          refine .bind (.convert _ ?_) fun _ behind _ further => ?_
          · exact site.program_carriedOut includes ⟨text, ⟨documentName, position⟩, isScriptlet⟩
          · exact ih ((restWritten.of_same stays.adapters).of_same further.adapters)

/-- The execution of a document that has been compiled in a Mini host. -/
theorem execution_carriedOut (includes : Includes levels) (site : Site)
    (container : Option Service) {controller : Option Controller}
    (controlled : ∀ present, controller = some present →
      present.Keeps World.Stays site.context) :
    CarriesOut levels callLimit world (site.execution container controller)
      (executeWith
        (fun executable context program =>
          runScript (serveRequest (includeWithin levels) executable context) program.run)
        site.executable site.context container controller) := by
  refine .get ?_
  dsimp only
  split
  · exact .throw _
  refine .withCurrent site.context fun entered => ?_
  refine .get ?_
  refine .bind (.withContainer _ _ _ (fun installed stays => ?_) entered.mini)
    fun _ behind _ _ => .lift (World.Stays.noteUse behind site.executable)
  refine .withController (fun present chosen => ?_) (fun begun further => ?_) stays.mini
  · split at chosen
    · cases chosen
    · exact controlled present chosen
  · refine site.walk_carriedOut includes _ ?_
    have written := entered.mini.compiled site.executable
    exact (written.of_same stays.adapters).of_same further.adapters

/-- The document that is included has been compiled in a Mini host, if it was compiled at all. -/
theorem inclusion_carriedOut (includes : Includes levels) (site : Site) (name : String) :
    CarriesOut levels callLimit world (site.inclusion name) (do
      let world ← get
      let document := world.executables.get site.executable
      if !document.setting.sourced || world.source.isNone then
        throw (.ofParsing (.needsSource name))
      let setting : Setting :=
        { document.setting with options := document.setting.options.forIncludes }
      let included ← (obtainExecutable setting name).convert ExecutionError.ofParsing
      keeping { executables := [included] } do
        recordDependency document name
        executeWith
          (fun executable context program =>
            runScript (serveRequest (includeWithin levels) executable context) program.run)
          included site.context none none) := by
  refine .get ?_
  dsimp only
  split
  · exact .throw _
  have obtains (setting : Setting) := Lasting.convert ExecutionError.ofParsing
    (World.Stays.obtainExecutable setting name)
  refine .bind (.lift (obtains _ world)) fun included between _ _ => ?_
  refine .keeping _ fun _ => ?_
  refine .bind (.lift (World.Stays.recordDependency _ name _)) fun _ _ _ _ => ?_
  exact execution_carriedOut includes ⟨included, site.context⟩ none nofun

/-- By induction on the levels that are left. -/
theorem includes_carriedOut (levels : Nat) : Includes levels := by
  induction levels with
  | zero => exact fun site name world remaining => .include_refused site name
  | succ levels ih =>
      intro site name world remaining
      exact .include_opened (site.inclusion_carriedOut ih name)

/-- What has run last in a context of a Mini host has the entry points of Mini. -/
theorem entry_carriedOut (site : Site) (name : String) (arguments : List Json)
    (mini : world.MiniOnly) :
    CarriesOut (includeLimit + 1) callLimit world (site.entry name arguments)
      (enterContext site.executable site.context name arguments) := by
  refine .bind (.lift (World.Stays.inContext site.context .lastAdapter? nofun))
    fun last between evaluated stays => ?_
  cases last with
  | none => exact .throw _
  | some id =>
      refine .withCurrent site.context fun entered => ?_
      have ran : (world.contexts.get site.context).lastAdapter = some id := by
        rw [inContext, HostM.eval_convert, HostM.eval_onContext] at evaluated
        cases done : Context.Operation.lastAdapter?.run (world.contexts.get site.context) with
        | error error =>
            rw [show Context.lastAdapter? _ = _ from done] at evaluated
            cases evaluated
        | ok result =>
            obtain ⟨-, -, answered, -⟩ := Context.Operation.permitted_of_run done
            rw [show Context.lastAdapter? _ = _ from done] at evaluated
            exact answered.symm.trans (Except.ok.inj (congrArg Prod.fst evaluated))
      obtain ⟨profile, isMini⟩ : (between.entering site.context).IsMini id :=
        ((mini.ran site.context id ran).of_same stays.adapters).of_same entered.adapters
      refine .of_eval_eq ?_
        (calls_carriedOut (includes_carriedOut (includeLimit + 1)) callLimit site name arguments _)
      rw [HostM.eval_bind_of_ok (HostM.eval_get _), isMini]
      rfl

end Site

/-- To enter a document takes a call of the entry point. -/
theorem entering_carriedOut (executable : ExecutableId) (key entry : String)
    (arguments : List Json) (mini : world.MiniOnly) :
    CarriesOut (includeLimit + 1) callLimit world (entering executable key entry arguments)
      (enter executable key entry arguments) := by
  refine .get ?_
  dsimp only
  cases (world.executables.get executable).enterable.get? key with
  | none => exact .throw _
  | some context =>
      dsimp only
      split
      · exact .throw _
      refine .bind (Site.entry_carriedOut ⟨executable, context⟩ entry arguments mini)
        fun value between _ _ => ?_
      exact .bind (.lift (World.Stays.noteUse between executable)) fun _ _ _ _ => .pure value

end DocumentHost
