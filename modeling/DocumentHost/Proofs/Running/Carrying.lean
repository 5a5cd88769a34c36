import DocumentHost.Proofs.Running.MiniHosts
import DocumentHost.Proofs.Running.Moments

/-!
# Operations carried out step by step

Some work carries out an operation of the host from a state if the run of it, whatever comes behind
it and whatever is open around it, comes to the outcome of the operation and to the state
that the operation leaves, and never has more calls or includes open than there may be.  Work that
is built as an operation is built carries it out as soon as its parts do.
-/

namespace DocumentHost

open Mini (callLimit)

/-- What is open, in a Mini host in which some includes were active at the start. -/
structure Fits (base : Nat) (opened : List Opened) (world : World) : Prop where
  depth : world.includeDepth = base + Opened.documents opened
  documents : world.includeDepth ≤ max base includeLimit
  calls : ∀ outer, outer <:+ opened → Opened.calls outer ≤ callLimit
  mini : world.MiniOnly

theorem Fits.of_staysMini {base : Nat} {opened : List Opened} {world after : World}
    (fits : Fits base opened world) (stays : world.StaysMini after) : Fits base opened after where
  depth := stays.depth.trans fits.depth
  documents := stays.depth ▸ fits.documents
  calls := fits.calls
  mini := stays.mini

/-- Nothing has gone too deep at a moment. -/
def Moment.Fits {ω : Type} (base : Nat) (moment : Moment ω) : Prop :=
  DocumentHost.Fits base moment.opened moment.world

/-- Work carries out an operation from a state, while some number of levels is left for includes
and some number of calls can still be opened in the program at work. -/
def CarriesOut {α : Type} (levels remaining : Nat) (world : World) (work : Work α)
    (action : HostM ExecutionError α) : Prop :=
  ∀ (ω : Type) (base : Nat) (opened : List Opened) (next : Except ExecutionError α → Work ω),
    Fits base opened world → Opened.calls opened + remaining = callLimit →
    includeLimit < world.includeDepth + levels →
    Moment.Through (Moment.Fits base) ⟨work.andThen next, opened, world⟩
        ⟨next (action.eval world).1, opened, (action.eval world).2⟩ ∧
      world.StaysMini (action.eval world).2

namespace CarriesOut

variable {α β : Type} {levels remaining : Nat} {world : World}

theorem finish (outcome : Except ExecutionError α) :
    CarriesOut levels remaining world (.finish outcome) (HostM.ofExcept outcome) := by
  intro ω base opened next fits _ _
  rw [HostM.eval_ofExcept]
  exact ⟨.here fits, World.Stays.lasting.refl world fits.mini⟩

/-- What is done in one step. -/
theorem lift {action : HostM ExecutionError α} (stays : action.KeepsFrom World.Stays world) :
    CarriesOut levels remaining world (Work.lift action) action := by
  intro ω base opened next fits _ _
  have behind := stays fits.mini
  exact ⟨.step fits rfl (.here (fits.of_staysMini behind)), behind⟩

/-- Work that goes on with an outcome, as an operation that looks at it. -/
theorem andThen {work : Work α} {action : HostM ExecutionError α}
    {onward : Except ExecutionError α → Work β}
    (following : Except ExecutionError α → HostM ExecutionError β)
    (first : CarriesOut levels remaining world work action)
    (second : world.StaysMini (action.eval world).2 →
      CarriesOut levels remaining (action.eval world).2 (onward (action.eval world).1)
        (following (action.eval world).1)) :
    CarriesOut levels remaining world (work.andThen onward)
      (action.attempt >>= following) := by
  intro ω base opened next fits calls room
  obtain ⟨front, stays⟩ :=
    first ω base opened (fun outcome => (onward outcome).andThen next) fits calls room
  obtain ⟨back, staysToo⟩ := second stays ω base opened next (fits.of_staysMini stays) calls
    (stays.depth ▸ room)
  rw [HostM.eval_bind_of_ok (HostM.eval_attempt _ _), Work.andThen_andThen]
  exact ⟨front.trans back, World.Stays.lasting.trans (fun _ => stays) (fun _ => staysToo) fits.mini⟩

/-- What an operation does is all that counts. -/
theorem of_eval_eq {work : Work α} {action other : HostM ExecutionError α}
    (same : other.eval world = action.eval world)
    (carries : CarriesOut levels remaining world work action) :
    CarriesOut levels remaining world work other := by
  intro ω base opened next fits calls room
  rw [same]
  exact carries ω base opened next fits calls room

theorem bind {work : Work α} {action : HostM ExecutionError α} {onward : α → Work β}
    {following : α → HostM ExecutionError β}
    (first : CarriesOut levels remaining world work action)
    (second : ∀ value between, action.eval world = (.ok value, between) →
      world.StaysMini between →
      CarriesOut levels remaining between (onward value) (following value)) :
    CarriesOut levels remaining world (work >>= onward) (action >>= following) := by
  refine of_eval_eq ?_
    (andThen (fun outcome => HostM.ofExcept outcome >>= following) first fun stays => ?_)
  · rw [HostM.eval_bind, HostM.eval_bind_of_ok (HostM.eval_attempt _ _), HostM.eval_bind,
      HostM.eval_ofExcept]
  · rcases evaluated : action.eval world with ⟨error | value, between⟩
    · refine of_eval_eq ?_ (finish (.error error))
      rw [HostM.eval_bind, HostM.eval_ofExcept, HostM.eval_ofExcept]
    · rw [evaluated] at stays
      exact of_eval_eq (HostM.eval_bind_of_ok (HostM.eval_ofExcept _ _))
        (second value between evaluated stays)

theorem pure (value : α) :
    CarriesOut levels remaining world (Pure.pure value) (Pure.pure value) :=
  finish (.ok value)

theorem throw (error : ExecutionError) :
    CarriesOut levels remaining world (.finish (.error error) : Work α)
      (MonadExcept.throw error) :=
  finish (.error error)

/-- A reading of the state goes on with that state. -/
theorem get {onward : World → Work α} {following : World → HostM ExecutionError α}
    (carries : CarriesOut levels remaining world (onward world) (following world)) :
    CarriesOut levels remaining world (Work.lift MonadState.get >>= onward)
      (MonadState.get >>= following) := by
  have reads : (MonadState.get : HostM ExecutionError World).KeepsFrom World.Stays world :=
    World.Stays.lasting.refl world
  refine bind (lift reads) fun value between evaluated _ => ?_
  cases evaluated
  exact carries

theorem convert {work : Work α} {action : HostM ExecutionError α}
    (rephrase : ExecutionError → ExecutionError)
    (carries : CarriesOut levels remaining world work action) :
    CarriesOut levels remaining world (work.convert rephrase) (action.convert rephrase) := by
  refine of_eval_eq ?_ (andThen (fun outcome => HostM.ofExcept (outcome.mapError rephrase)) carries
    fun _ => finish _)
  rw [HostM.eval_convert, HostM.eval_bind_of_ok (HostM.eval_attempt _ _), HostM.eval_ofExcept]

/-- Work that is tidied up after, as an operation that is. -/
theorem tidied {work : Work α} {action bracketed : HostM ExecutionError α} {tidy : World → World}
    (carries : CarriesOut levels remaining world work action)
    (shape : bracketed.eval world = ((action.eval world).1, tidy (action.eval world).2))
    (stays : World.Stays (action.eval world).2 (tidy (action.eval world).2)) :
    CarriesOut levels remaining world (work.tidied tidy) bracketed := by
  refine of_eval_eq ?_ (andThen (fun outcome => do modify tidy; HostM.ofExcept outcome) carries
    fun _ => ?_)
  · rw [shape, HostM.eval_bind_of_ok (HostM.eval_attempt _ _),
      HostM.eval_bind_of_ok (HostM.eval_modify _ _), HostM.eval_ofExcept]
  · have tidies : (modify tidy : HostM ExecutionError Unit).KeepsFrom World.Stays
        (action.eval world).2 := stays
    exact bind (lift tidies) fun _ _ _ _ => finish _

theorem between {work : Work α} {action bracketed : HostM ExecutionError α}
    {prepare : World → World} {tidy : World → World → World}
    (carries : World.StaysMini world (prepare world) →
      CarriesOut levels remaining (prepare world) work action)
    (shape : bracketed.eval world =
      ((action.eval (prepare world)).1, tidy world (action.eval (prepare world)).2))
    (begins : World.Stays world (prepare world))
    (ends : ∀ behind, World.Stays behind (tidy world behind)) :
    CarriesOut levels remaining world (work.between prepare tidy) bracketed := by
  intro ω base opened next fits calls room
  have begun := begins fits.mini
  let ending : HostM ExecutionError α := ExceptT.mk fun _ => bracketed.eval world
  have inside : CarriesOut levels remaining (prepare world) (work.tidied (tidy world)) ending :=
    tidied (carries begun) shape (ends _)
  obtain ⟨onward, stays⟩ :=
    inside ω base opened next (fits.of_staysMini begun) calls (begun.depth ▸ room)
  exact ⟨.step fits rfl onward,
    World.Stays.lasting.trans (fun _ => begun) (fun _ => stays) fits.mini⟩

theorem keeping (more : Holdings) {work : Work α} {action : HostM ExecutionError α}
    (carries : World.StaysMini world (world.holdingMore more) →
      CarriesOut levels remaining (world.holdingMore more) work action) :
    CarriesOut levels remaining world (work.keeping more) (keeping more action) := by
  refine between carries (HostM.eval_keeping _ _ _) (.of_eq rfl rfl rfl rfl rfl) fun behind => ?_
  have letGo : World.Stays behind { behind with holdings := world.holdings } :=
    .of_eq rfl rfl rfl rfl rfl
  exact World.Stays.lasting.trans letGo (.releaseUnheld _)

theorem withCurrent (context : ContextId) {work : Work α} {action : HostM ExecutionError α}
    (carries : World.StaysMini world (world.entering context) →
      CarriesOut levels remaining (world.entering context) work action) :
    CarriesOut levels remaining world (work.withCurrent context) (withCurrent context action) :=
  between carries (HostM.eval_withCurrent _ _ _) (.of_eq rfl rfl rfl rfl rfl) fun _ =>
    .of_eq rfl rfl rfl rfl rfl

theorem withContainer (name : String) (container : Option Service) (context : ContextId)
    {work : Work α} {action : HostM ExecutionError α}
    (carries : ∀ between, world.StaysMini between →
      CarriesOut levels remaining between work action) (mini : world.MiniOnly) :
    CarriesOut levels remaining world (work.withContainer name container context)
      (withContainer name container context action) := by
  cases container with
  | none => exact carries world (World.Stays.lasting.refl world mini)
  | some container =>
      refine bind (lift (World.Stays.inContext context (.setService name container) nofun))
        fun previous between _ stays => ?_
      refine tidied (carries between stays) ?_ ?_
      · let restore := restoreContainer name previous context
        rw [HostM.eval_bind_of_ok (HostM.eval_attempt _ _)]
        refine (HostM.eval_bind_of_ok (HostM.eval_attempt restore _)).trans ?_
        exact HostM.eval_ofExcept _ _
      · cases previous with
        | some service => exact World.Stays.onContext context (.setService name service) nofun
        | none => exact World.Stays.onContext context (.removeService name) nofun

theorem withController {controller : Option Controller} {context : ContextId}
    (controlled : ∀ present, controller = some present → present.Keeps World.Stays context)
    {work : Work α} {action : HostM ExecutionError α}
    (carries : ∀ between, world.StaysMini between →
      CarriesOut levels remaining between work action) (mini : world.MiniOnly) :
    CarriesOut levels remaining world (work.withController controller context)
      (withController controller context action) := by
  cases controller with
  | none => exact carries world (World.Stays.lasting.refl world mini)
  | some controller =>
      obtain ⟨opening, closing⟩ := controlled controller rfl
      refine bind (lift (opening world)) fun _ between _ stays => ?_
      refine tidied (carries between stays) ?_ (closing _)
      have closes (after : World) :
          (liftM (controller.closing context) : HostM ExecutionError Unit).eval after =
            (.ok (), ((controller.closing context).run after).2) := rfl
      rw [HostM.eval_bind_of_ok (HostM.eval_attempt _ _), HostM.eval_bind_of_ok (closes _),
        HostM.eval_ofExcept]

/-! ## Calls and includes -/

/-- At the limit, a call fails. -/
theorem call_refused (site : Site) (name : String) (arguments : List Json)
    {action : HostM ExecutionError Json}
    (fails : action.eval world =
      (.error (.ofDescription (Mini.Fault.callDepth name).message), world)) :
    CarriesOut levels 0 world (.call site name arguments .finish) action := by
  intro ω base opened next fits calls _
  have full : callLimit ≤ Opened.calls opened := Nat.le_of_eq calls.symm
  rw [fails]
  exact ⟨.step fits (if_pos full) (.here fits), World.Stays.lasting.refl world fits.mini⟩

/-- Within the limit, a call runs the entry point with one call less left. -/
theorem call_opened {site : Site} {name : String} {arguments : List Json}
    {action : HostM ExecutionError Json}
    (body : CarriesOut levels remaining world (site.entryPoint name arguments) action) :
    CarriesOut levels (remaining + 1) world (.call site name arguments .finish) action := by
  intro ω base opened next fits calls room
  have free : ¬callLimit ≤ Opened.calls opened := by omega
  have inside : Fits base (.call name :: opened) world := by
    refine ⟨fits.depth, fits.documents, fun outer suffix => ?_, fits.mini⟩
    rcases List.suffix_cons_iff.1 suffix with rfl | suffix
    · simp only [Opened.calls]
      omega
    · exact fits.calls outer suffix
  obtain ⟨through, stays⟩ := body ω base (.call name :: opened)
    (fun outcome => .close (next outcome)) inside (by simp only [Opened.calls]; omega) room
  refine ⟨.step fits (if_neg free) (through.trans ?_), stays⟩
  exact .step (inside.of_staysMini stays) rfl (.here (fits.of_staysMini stays))

/-- At the limit, an include fails. -/
theorem include_refused (site : Site) (name : String) :
    CarriesOut 0 remaining world (.includeDocument site name .finish)
      (MonadExcept.throw (.ofDocument (.dependencyLoop name))) := by
  intro ω base opened next fits _ room
  have full : includeLimit < world.includeDepth + 1 := Nat.lt_succ_of_lt room
  exact ⟨.step fits (if_pos full) (.here fits), World.Stays.lasting.refl world fits.mini⟩

/-- Within the limit, an include runs the document with one level less left, and with no call
open in its program. -/
theorem include_opened {site : Site} {name : String} {action : HostM ExecutionError Unit}
    (body : CarriesOut levels callLimit { world with includeDepth := world.includeDepth + 1 }
      (site.inclusion name) action) :
    CarriesOut (levels + 1) remaining world (.includeDocument site name .finish)
      (asInclude name action) := by
  intro ω base opened next fits _ room
  rw [HostM.eval_asInclude]
  by_cases full : includeLimit < world.includeDepth + 1
  · rw [if_pos full]
    exact ⟨.step fits (if_pos full) (.here fits), World.Stays.lasting.refl world fits.mini⟩
  rw [if_neg full]
  have inside : Fits base (.document name :: opened)
      { world with includeDepth := world.includeDepth + 1 } := by
    have depth := fits.depth
    refine ⟨by simp only [Opened.documents]; omega, by dsimp only; omega, fun outer suffix => ?_,
      fits.mini.registries, fits.mini.compiled, fits.mini.ran⟩
    rcases List.suffix_cons_iff.1 suffix with rfl | suffix
    · exact Nat.zero_le _
    · exact fits.calls outer suffix
  obtain ⟨through, stays⟩ := body ω base (.document name :: opened)
    (fun outcome => .close (next outcome)) inside (Nat.zero_add _) (by dsimp only; omega)
  rcases evaluated : action.eval { world with includeDepth := world.includeDepth + 1 } with
    ⟨outcome, behind⟩
  rw [evaluated] at through stays
  have back : world.StaysMini { behind with includeDepth := behind.includeDepth - 1 } :=
    ⟨stays.adapters, by rw [stays.depth]; rfl, stays.mini.registries, stays.mini.compiled,
      stays.mini.ran⟩
  refine ⟨.step fits (if_neg full) (through.trans ?_), back⟩
  exact .step (inside.of_staysMini stays) rfl (.here (fits.of_staysMini back))

end CarriesOut

end DocumentHost
