import DocumentHost.Host.Observer
import DocumentHost.Proofs.Host.Changes

/-!
# Observers are lawful

What an observer does around a run, however it interferes, is a chain of the changes that a
host undergoes anyhow.
-/

namespace DocumentHost.Observer

open World

variable {context : ContextId} {world : World}

theorem note_changes (text : String) (world : World) :
    Changes (fun _ => True) world (world.note text) :=
  Changes.tolerant.noteAll world [text]

/-- Whoever binds again must name a context that there is. -/
theorem bindAgain_changes (executable : ExecutableId) (key : String)
    (known : context.index < world.contexts.size) :
    (bindAgain executable key context).KeepsFrom (Changes fun _ => True) world := by
  refine Changes.tolerant.lasting.bindFrom ?_ fun bound between _ => ?_
  · exact bindEnterable_changes known nofun fun _ => trivial
  · exact note_changes _ between

theorem bindFresh_changes (executable : ExecutableId) (key : String) :
    (bindFresh executable key).Keeps (Changes fun _ => True) := by
  have tolerant : Tolerant (Changes fun _ => True) := Changes.tolerant
  have sinks (world : World) :
      (newSink {} : HostM ExecutionError SinkId).KeepsFrom (Changes fun _ => True) world :=
    tolerant.outside (.of_eq rfl rfl rfl rfl rfl rfl rfl rfl)
  intro world
  refine tolerant.lasting.bindFrom (sinks world) fun output between _ => ?_
  refine tolerant.lasting.bindFrom (sinks between) fun errorOutput between _ => ?_
  refine tolerant.lasting.bindFrom ?_ fun fresh behind made => ?_
  · exact .single (.aside (.addContext between rfl))
  -- the fresh context is known where it is bound
  have known : fresh.index < behind.contexts.size := by
    cases made
    exact Arena.known_add between.contexts _
  refine tolerant.lasting.bindFrom (bindAgain_changes executable key known) fun outcome _ _ => ?_
  refine Lasting.getFrom ?_
  split
  · exact tolerant.lasting.bind (Lasting.modify fun world => tolerant.dropContext world fresh)
      (fun _ => tolerant.lasting.ofExcept outcome) _
  · exact tolerant.lasting.ofExcept outcome _

theorem interfere_onward (binding : Option Binding) (context : ContextId)
    (interference : Interference) :
    (interfere binding context interference).Keeps (Onward (fun _ => True) context) := by
  have tolerant : Tolerant (Onward (fun _ => True) context) := Onward.tolerant _ context
  cases interference with
  | refuse => exact tolerant.lasting.throw _
  | freeze => exact tolerant.inContext context .freeze
  | release => exact Lasting.convert _ (tolerant.release context)
  | leaveTrace =>
      exact tolerant.lasting.bind (tolerant.inContext context (.setAttribute _ _)) fun _ =>
        tolerant.lasting.pure _
  | rebind =>
      cases binding with
      | none => exact tolerant.lasting.pure _
      | some binding => exact (bindFresh_changes _ _).mono .of_changes
  | rebindSame =>
      cases binding with
      | none => exact tolerant.lasting.pure _
      | some binding => exact fun world known => bindAgain_changes _ _ known
  | nothing => exact tolerant.lasting.pure _

theorem controller_lawful (containerName : String) (binding : Option Binding)
    (interference : Interference) :
    (controller containerName binding interference).Lawful fun _ => True := by
  intro context
  refine ⟨?_, fun world => .of_changes (note_changes _ world)⟩
  refine (Onward.tolerant _ context).lasting.bind ?_ fun _ =>
    interfere_onward binding context interference
  exact Lasting.modify fun world => .of_changes (note_changes _ world)

end DocumentHost.Observer
