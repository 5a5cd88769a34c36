import DocumentHost.Host.Context
import DocumentHost.Host.Reclaim
import DocumentHost.Proofs.Host.Evaluation

/-!
# What operations keep

A relation between states may be kept by an operation: whatever the state it is carried out
in, and however it ends, the state that it leaves is related to that one.  Where the
relation goes from states to later ones, operations that are built of such operations keep
it as well.
-/

namespace DocumentHost

/-- A relation that goes from states to later ones. -/
structure Lasting (Related : World → World → Prop) : Prop where
  refl : ∀ world, Related world world
  trans : ∀ {world between after}, Related world between → Related between after →
    Related world after

namespace HostM

/-- Carried out in a state, an operation leads to a related one. -/
def KeepsFrom {ε α : Type} (Related : World → World → Prop) (world : World)
    (action : HostM ε α) : Prop :=
  Related world (action.eval world).2

/-- An operation leads from every state to a related one. -/
def Keeps {ε α : Type} (Related : World → World → Prop) (action : HostM ε α) : Prop :=
  ∀ world, KeepsFrom Related world action

theorem Keeps.mono {ε α : Type} {Related Weaker : World → World → Prop} {action : HostM ε α}
    (kept : action.Keeps Related) (weaken : ∀ {world after}, Related world after →
      Weaker world after) : action.Keeps Weaker :=
  fun world => weaken (kept world)

theorem Keeps.leads {ε α : Type} {Related : World → World → Prop} {action : HostM ε α}
    (kept : action.Keeps Related) {world after : World} {outcome : Except ε α}
    (done : action.eval world = (outcome, after)) : Related world after := by
  have related := kept world
  rw [KeepsFrom, done] at related
  exact related

end HostM

namespace Lasting

variable {ε ε' α β : Type} {Related : World → World → Prop} {world : World}

theorem pure (lasting : Lasting Related) (value : α) :
    (pure value : HostM ε α).Keeps Related :=
  lasting.refl

theorem throw (lasting : Lasting Related) (error : ε) :
    (throw error : HostM ε α).Keeps Related :=
  lasting.refl

theorem ofExcept (lasting : Lasting Related) (outcome : Except ε α) :
    (HostM.ofExcept outcome).Keeps Related := by
  intro world
  rw [HostM.KeepsFrom, HostM.eval_ofExcept]
  exact lasting.refl world

/-- What comes next need only keep the relation after the values that were given. -/
theorem bindFrom (lasting : Lasting Related) {action : HostM ε α} {next : α → HostM ε β}
    (first : action.KeepsFrom Related world)
    (nexts : ∀ value between, action.eval world = (.ok value, between) →
      (next value).KeepsFrom Related between) :
    (action >>= next).KeepsFrom Related world := by
  rw [HostM.KeepsFrom, HostM.eval_bind]
  rcases evaluated : action.eval world with ⟨error | value, between⟩
  · rw [HostM.KeepsFrom, evaluated] at first
    exact first
  · rw [HostM.KeepsFrom, evaluated] at first
    exact lasting.trans first (nexts value between evaluated)

theorem bind (lasting : Lasting Related) {action : HostM ε α} {next : α → HostM ε β}
    (first : action.Keeps Related) (nexts : ∀ value, (next value).Keeps Related) :
    (action >>= next).Keeps Related :=
  fun world => lasting.bindFrom (first world) fun value between _ => nexts value between

/-- What comes next after a reading of the state may depend on that state. -/
theorem getFrom {next : World → HostM ε α} (nexts : (next world).KeepsFrom Related world) :
    (MonadState.get >>= next).KeepsFrom Related world := by
  rw [HostM.KeepsFrom, HostM.eval_bind_of_ok (HostM.eval_get _)]
  exact nexts

theorem get {next : World → HostM ε α}
    (nexts : ∀ world, (next world).KeepsFrom Related world) :
    (MonadState.get >>= next).Keeps Related :=
  fun world => getFrom (nexts world)

theorem modify {change : World → World} (kept : ∀ world, Related world (change world)) :
    (modify change : HostM ε Unit).Keeps Related :=
  kept

theorem convert (rephrase : ε → ε') {action : HostM ε α} (kept : action.Keeps Related) :
    (action.convert rephrase).Keeps Related := by
  intro world
  rw [HostM.KeepsFrom, HostM.eval_convert]
  exact kept world

theorem attempt {action : HostM ε α} (kept : action.Keeps Related) :
    (action.attempt : HostM ε' (Except ε α)).Keeps Related :=
  kept

theorem ofReported (lasting : Lasting Related) (work : Reported ε α)
    (notes : ∀ world : World, Related world (world.noteAll work.reports)) :
    (HostM.ofReported work).Keeps Related :=
  lasting.bind (modify notes) fun _ => lasting.ofExcept _

theorem readClock (ticks : ∀ world : World, Related world world.tick) :
    (readClock : HostM ε Instant).Keeps Related :=
  ticks

end Lasting

end DocumentHost
