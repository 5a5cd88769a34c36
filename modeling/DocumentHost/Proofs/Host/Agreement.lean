import DocumentHost.Host.Context
import DocumentHost.Proofs.Host.Evaluation

/-!
# Operations that agree

Two operations agree under a relation between states if, begun in related states, they
end alike and leave related states.  The rules follow the ways in which operations are
built, so that two operations of one shape agree as soon as their parts do.  An
operation may be excused: it has failed, and has left a state that is told apart.
-/

namespace DocumentHost

/-- Begun in two states, two operations end alike and leave related states. -/
def AgreeFrom {ε α : Type} (Related : World → World → Prop) (world other : World)
    (first second : HostM ε α) : Prop :=
  (first.eval world).1 = (second.eval other).1 ∧
    Related (first.eval world).2 (second.eval other).2

/-- Begun in related states, two operations end alike and leave related states. -/
def Agree {ε α : Type} (Related : World → World → Prop) (first second : HostM ε α) : Prop :=
  ∀ world other, Related world other → AgreeFrom Related world other first second

variable {ε ε' α β : Type} {Related : World → World → Prop} {Excuse : World → Prop}
  {world other : World}

namespace AgreeFrom

theorem pure (related : Related world other) (value : α) :
    AgreeFrom Related world other (pure value : HostM ε α) (pure value) :=
  ⟨rfl, related⟩

theorem throw (related : Related world other) (error : ε) :
    AgreeFrom Related world other (throw error : HostM ε α) (throw error) :=
  ⟨rfl, related⟩

theorem ofExcept (related : Related world other) (outcome : Except ε α) :
    AgreeFrom Related world other (HostM.ofExcept outcome) (HostM.ofExcept outcome) := by
  rw [AgreeFrom, HostM.eval_ofExcept, HostM.eval_ofExcept]
  exact ⟨rfl, related⟩

theorem modify {change otherChange : World → World}
    (related : Related (change world) (otherChange other)) :
    AgreeFrom Related world other (modify change : HostM ε Unit) (modify otherChange) :=
  ⟨rfl, related⟩

theorem set {next otherNext : World} (related : Related next otherNext) :
    AgreeFrom Related world other (set next : HostM ε Unit) (set otherNext) :=
  ⟨rfl, related⟩

/-- What comes next has to agree in the states in which it is begun. -/
theorem bind_from {first second : HostM ε α} {next otherNext : α → HostM ε β}
    (firsts : AgreeFrom Related world other first second)
    (nexts : ∀ value behind otherBehind, first.eval world = (.ok value, behind) →
      second.eval other = (.ok value, otherBehind) → Related behind otherBehind →
      AgreeFrom Related behind otherBehind (next value) (otherNext value)) :
    AgreeFrom Related world other (first >>= next) (second >>= otherNext) := by
  obtain ⟨sameOutcome, related⟩ := firsts
  rw [AgreeFrom, HostM.eval_bind, HostM.eval_bind]
  rcases evaluated : first.eval world with ⟨outcome, behind⟩
  rcases otherEvaluated : second.eval other with ⟨otherOutcome, otherBehind⟩
  rw [evaluated, otherEvaluated] at sameOutcome related
  dsimp only at sameOutcome related
  subst sameOutcome
  cases outcome with
  | error error => exact ⟨rfl, related⟩
  | ok value => exact nexts value behind otherBehind evaluated otherEvaluated related

/-- After a value that both have given, whatever comes next has to agree. -/
theorem bind {first second : HostM ε α} {next otherNext : α → HostM ε β}
    (firsts : AgreeFrom Related world other first second)
    (nexts : ∀ value, Agree Related (next value) (otherNext value)) :
    AgreeFrom Related world other (first >>= next) (second >>= otherNext) :=
  firsts.bind_from fun value _ _ _ _ related => nexts value _ _ related

/-- A reading of the state goes on in each state with that state. -/
theorem get {next otherNext : World → HostM ε β}
    (nexts : AgreeFrom Related world other (next world) (otherNext other)) :
    AgreeFrom Related world other (MonadState.get >>= next) (MonadState.get >>= otherNext) := by
  rw [AgreeFrom, HostM.eval_bind_of_ok (HostM.eval_get _),
    HostM.eval_bind_of_ok (HostM.eval_get _)]
  exact nexts

theorem convert {first second : HostM ε α} (rephrase : ε → ε')
    (firsts : AgreeFrom Related world other first second) :
    AgreeFrom Related world other (first.convert rephrase) (second.convert rephrase) := by
  obtain ⟨sameOutcome, related⟩ := firsts
  rw [AgreeFrom, HostM.eval_convert, HostM.eval_convert]
  exact ⟨by rw [sameOutcome], related⟩

theorem attempt {first second : HostM ε α}
    (firsts : AgreeFrom Related world other first second) :
    AgreeFrom Related world other (first.attempt : HostM ε' (Except ε α)) second.attempt := by
  obtain ⟨sameOutcome, related⟩ := firsts
  rw [AgreeFrom, HostM.eval_attempt, HostM.eval_attempt]
  exact ⟨by rw [sameOutcome], related⟩

/-- Both operations carry out the branch of a condition on which the states agree. -/
theorem ite {condition otherCondition : Prop} [Decidable condition] [Decidable otherCondition]
    {first second otherFirst otherSecond : HostM ε α} (same : condition ↔ otherCondition)
    (firsts : condition → AgreeFrom Related world other first otherFirst)
    (seconds : ¬condition → AgreeFrom Related world other second otherSecond) :
    AgreeFrom Related world other (if condition then first else second)
      (if otherCondition then otherFirst else otherSecond) := by
  by_cases holds : condition
  · rw [if_pos holds, if_pos (same.1 holds)]
    exact firsts holds
  · rw [if_neg holds, if_neg fun otherHolds => holds (same.2 otherHolds)]
    exact seconds holds

end AgreeFrom

namespace Agree

theorem pure (value : α) : Agree Related (pure value : HostM ε α) (pure value) :=
  fun _ _ related => .pure related value

theorem throw (error : ε) : Agree Related (throw error : HostM ε α) (throw error) :=
  fun _ _ related => .throw related error

theorem ofExcept (outcome : Except ε α) :
    Agree Related (HostM.ofExcept outcome) (HostM.ofExcept outcome) :=
  fun _ _ related => .ofExcept related outcome

theorem modify {change otherChange : World → World}
    (keeps : ∀ world other, Related world other →
      Related (change world) (otherChange other)) :
    Agree Related (modify change : HostM ε Unit) (modify otherChange) :=
  fun _ _ related => .modify (keeps _ _ related)

theorem bind {first second : HostM ε α} {next otherNext : α → HostM ε β}
    (firsts : Agree Related first second)
    (nexts : ∀ value, Agree Related (next value) (otherNext value)) :
    Agree Related (first >>= next) (second >>= otherNext) :=
  fun _ _ related => (firsts _ _ related).bind nexts

theorem get {next otherNext : World → HostM ε β}
    (nexts : ∀ world other, Related world other →
      AgreeFrom Related world other (next world) (otherNext other)) :
    Agree Related (MonadState.get >>= next) (MonadState.get >>= otherNext) :=
  fun _ _ related => .get (nexts _ _ related)

theorem convert {first second : HostM ε α} (rephrase : ε → ε')
    (firsts : Agree Related first second) :
    Agree Related (first.convert rephrase) (second.convert rephrase) :=
  fun _ _ related => (firsts _ _ related).convert rephrase

theorem attempt {first second : HostM ε α} (firsts : Agree Related first second) :
    Agree Related (first.attempt : HostM ε' (Except ε α)) second.attempt :=
  fun _ _ related => (firsts _ _ related).attempt

theorem ofReported (work : Reported ε α)
    (notes : ∀ world other, Related world other →
      Related (world.noteAll work.reports) (other.noteAll work.reports)) :
    Agree Related (HostM.ofReported work) (HostM.ofReported work) :=
  .bind (.modify notes) fun _ => .ofExcept _

end Agree

/-! ## Values -/

/-- Begun in a state that has a related one, an operation gives only values of a kind. -/
def Gives {ε α : Type} (Related : World → World → Prop) (Good : α → Prop)
    (action : HostM ε α) : Prop :=
  ∀ world other, Related world other → ∀ value, (action.eval world).1 = .ok value → Good value

/-- What comes next need only agree after the values that can be given. -/
theorem Agree.bind_giving {Good : α → Prop} {first second : HostM ε α}
    {next otherNext : α → HostM ε β} (firsts : Agree Related first second)
    (gives : Gives Related Good first)
    (nexts : ∀ value, Good value → Agree Related (next value) (otherNext value)) :
    Agree Related (first >>= next) (second >>= otherNext) := by
  intro world other related
  obtain ⟨sameOutcome, relatedBehind⟩ := firsts world other related
  have good := gives world other related
  rw [AgreeFrom, HostM.eval_bind, HostM.eval_bind]
  rcases evaluated : first.eval world with ⟨outcome, behind⟩
  rcases otherEvaluated : second.eval other with ⟨otherOutcome, otherBehind⟩
  rw [evaluated, otherEvaluated] at sameOutcome relatedBehind
  rw [evaluated] at good
  dsimp only at sameOutcome relatedBehind good
  subst sameOutcome
  cases outcome with
  | error error => exact ⟨rfl, relatedBehind⟩
  | ok value => exact nexts value (good value rfl) behind otherBehind relatedBehind

namespace Gives

variable {Good : α → Prop}

theorem pure {value : α} (good : Good value) :
    Gives Related Good (Pure.pure value : HostM ε α) := by
  intro _ _ _ given equal
  cases equal
  exact good

theorem throw (error : ε) : Gives Related Good (throw error : HostM ε α) := by
  intro _ _ _ given equal
  cases equal

theorem get {next : World → HostM ε α}
    (nexts : ∀ world other, Related world other → ∀ value,
      ((next world).eval world).1 = .ok value → Good value) :
    Gives Related Good (MonadState.get >>= next) := by
  intro world other related value succeeded
  rw [HostM.eval_bind_of_ok (HostM.eval_get _)] at succeeded
  exact nexts world other related value succeeded

theorem bind_giving {Given : α → Prop} {Good : β → Prop} {first second : HostM ε α}
    {next : α → HostM ε β} (firsts : Agree Related first second)
    (gives : Gives Related Given first)
    (nexts : ∀ value, Given value → Gives Related Good (next value)) :
    Gives Related Good (first >>= next) := by
  intro world other related result succeeded
  obtain ⟨-, relatedBehind⟩ := firsts world other related
  have given := gives world other related
  rw [HostM.eval_bind] at succeeded
  rcases evaluated : first.eval world with ⟨_ | value, behind⟩
  · rw [evaluated] at succeeded
    cases succeeded
  · rw [evaluated] at succeeded relatedBehind given
    exact nexts value (given value rfl) _ _ relatedBehind result succeeded

theorem bind {Good : β → Prop} {first second : HostM ε α} {next : α → HostM ε β}
    (firsts : Agree Related first second) (nexts : ∀ value, Gives Related Good (next value)) :
    Gives Related Good (first >>= next) := by
  have anything : Gives Related (fun _ => True) first := fun _ _ _ _ _ => trivial
  exact bind_giving firsts anything fun value _ => nexts value

end Gives

/-! ## Excuses -/

/-- An operation has failed and has left a state that excuses it. -/
def Excused (Excuse : World → Prop) (result : Except ε α × World) : Prop :=
  (∃ error, result.1 = .error error) ∧ Excuse result.2

/-- Begun in two states, two operations agree unless one of them is excused. -/
def AgreeUnlessFrom (Related : World → World → Prop) (Excuse : World → Prop)
    (world other : World) (first second : HostM ε α) : Prop :=
  AgreeFrom Related world other first second ∨
    Excused Excuse (first.eval world) ∨ Excused Excuse (second.eval other)

/-- Begun in related states, two operations agree unless one of them is excused. -/
def AgreeUnless (Related : World → World → Prop) (Excuse : World → Prop)
    (first second : HostM ε α) : Prop :=
  ∀ world other, Related world other → AgreeUnlessFrom Related Excuse world other first second

theorem Excused.bind {first : HostM ε α} (excused : Excused Excuse (first.eval world))
    (next : α → HostM ε β) : Excused Excuse ((first >>= next).eval world) := by
  obtain ⟨⟨error, failed⟩, excuse⟩ := excused
  rw [HostM.eval_bind_of_error (Prod.ext failed rfl)]
  exact ⟨⟨error, rfl⟩, excuse⟩

theorem Excused.convert {first : HostM ε α} (rephrase : ε → ε')
    (excused : Excused Excuse (first.eval world)) :
    Excused Excuse ((first.convert rephrase).eval world) := by
  obtain ⟨⟨error, failed⟩, excuse⟩ := excused
  rw [HostM.eval_convert]
  exact ⟨⟨rephrase error, by rw [failed]; rfl⟩, excuse⟩

/-- What is tidied up afterwards does not take the excuse away. -/
theorem Excused.tidied {first : HostM ε α} {tidy : World → World}
    (keeps : ∀ world, Excuse world → Excuse (tidy world))
    (excused : Excused Excuse (first.eval world)) :
    Excused Excuse ((do
      let outcome ← (first.attempt : HostM ε (Except ε α))
      modify tidy
      HostM.ofExcept outcome : HostM ε α).eval world) := by
  obtain ⟨⟨error, failed⟩, excuse⟩ := excused
  rw [HostM.eval_bind_of_ok (HostM.eval_attempt _ _), HostM.eval_bind_of_ok (HostM.eval_modify _ _),
    HostM.eval_ofExcept]
  exact ⟨⟨error, failed⟩, keeps _ excuse⟩

namespace AgreeUnlessFrom

theorem bind {first second : HostM ε α} {next otherNext : α → HostM ε β}
    (firsts : AgreeUnlessFrom Related Excuse world other first second)
    (nexts : ∀ value, AgreeUnless Related Excuse (next value) (otherNext value)) :
    AgreeUnlessFrom Related Excuse world other (first >>= next) (second >>= otherNext) := by
  rcases firsts with ⟨sameOutcome, related⟩ | excused | excused
  · rcases evaluated : first.eval world with ⟨outcome, behind⟩
    rcases otherEvaluated : second.eval other with ⟨otherOutcome, otherBehind⟩
    rw [evaluated, otherEvaluated] at sameOutcome related
    dsimp only at sameOutcome related
    subst sameOutcome
    cases outcome with
    | error error =>
        refine .inl ?_
        rw [AgreeFrom, HostM.eval_bind_of_error evaluated, HostM.eval_bind_of_error otherEvaluated]
        exact ⟨rfl, related⟩
    | ok value =>
        rw [AgreeUnlessFrom, AgreeFrom, HostM.eval_bind_of_ok evaluated,
          HostM.eval_bind_of_ok otherEvaluated]
        exact nexts value behind otherBehind related
  · exact .inr (.inl (excused.bind next))
  · exact .inr (.inr (excused.bind otherNext))

theorem get {next otherNext : World → HostM ε β}
    (nexts : AgreeUnlessFrom Related Excuse world other (next world) (otherNext other)) :
    AgreeUnlessFrom Related Excuse world other (MonadState.get >>= next)
      (MonadState.get >>= otherNext) := by
  rw [AgreeUnlessFrom, AgreeFrom, HostM.eval_bind_of_ok (HostM.eval_get _),
    HostM.eval_bind_of_ok (HostM.eval_get _)]
  exact nexts

theorem convert {first second : HostM ε α} (rephrase : ε → ε')
    (firsts : AgreeUnlessFrom Related Excuse world other first second) :
    AgreeUnlessFrom Related Excuse world other (first.convert rephrase)
      (second.convert rephrase) := by
  rcases firsts with agree | excused | excused
  · exact .inl (agree.convert rephrase)
  · exact .inr (.inl (excused.convert rephrase))
  · exact .inr (.inr (excused.convert rephrase))

/-- Two operations that have both succeeded agree if what comes next does. -/
theorem bind_of_ok {first second : HostM ε α} {next otherNext : α → HostM ε β}
    {value otherValue : α} {behind otherBehind : World}
    (succeeded : first.eval world = (.ok value, behind))
    (otherSucceeded : second.eval other = (.ok otherValue, otherBehind))
    (nexts : AgreeUnlessFrom Related Excuse behind otherBehind (next value)
      (otherNext otherValue)) :
    AgreeUnlessFrom Related Excuse world other (first >>= next) (second >>= otherNext) := by
  rw [AgreeUnlessFrom, AgreeFrom, HostM.eval_bind_of_ok succeeded,
    HostM.eval_bind_of_ok otherSucceeded]
  exact nexts

/-- Two operations that have failed alike agree whatever would come next. -/
theorem bind_of_error {first second : HostM ε α} {next otherNext : α → HostM ε β} {error : ε}
    {behind otherBehind : World} (failed : first.eval world = (.error error, behind))
    (otherFailed : second.eval other = (.error error, otherBehind))
    (related : Related behind otherBehind) :
    AgreeUnlessFrom Related Excuse world other (first >>= next) (second >>= otherNext) := by
  rw [AgreeUnlessFrom, AgreeFrom, HostM.eval_bind_of_error failed,
    HostM.eval_bind_of_error otherFailed]
  exact .inl ⟨rfl, related⟩

theorem mono {Stronger : World → World → Prop} {first second : HostM ε α}
    (agree : AgreeUnlessFrom Stronger Excuse world other first second)
    (weaken : ∀ world other, Stronger world other → Related world other) :
    AgreeUnlessFrom Related Excuse world other first second := by
  rcases agree with ⟨sameOutcome, related⟩ | excused
  · exact .inl ⟨sameOutcome, weaken _ _ related⟩
  · exact .inr excused

/-- Both operations are tidied up after, however they end. -/
theorem tidied {first second : HostM ε α} {tidy otherTidy : World → World}
    (firsts : AgreeUnlessFrom Related Excuse world other first second)
    (keeps : ∀ world other, Related world other → Related (tidy world) (otherTidy other))
    (keepsExcuse : ∀ world, Excuse world → Excuse (tidy world))
    (keepsOther : ∀ world, Excuse world → Excuse (otherTidy world)) :
    AgreeUnlessFrom Related Excuse world other
      (do
        let outcome ← (first.attempt : HostM ε (Except ε α))
        modify tidy
        HostM.ofExcept outcome)
      (do
        let outcome ← (second.attempt : HostM ε (Except ε α))
        modify otherTidy
        HostM.ofExcept outcome) := by
  rcases firsts with agree | excused | excused
  · refine .inl (agree.attempt.bind fun outcome => ?_)
    exact .bind (.modify keeps) fun _ => .ofExcept outcome
  · exact .inr (.inl (excused.tidied keepsExcuse))
  · exact .inr (.inr (excused.tidied keepsOther))

end AgreeUnlessFrom

namespace AgreeUnless

theorem of_agree {first second : HostM ε α} (agree : Agree Related first second) :
    AgreeUnless Related Excuse first second :=
  fun world other related => .inl (agree world other related)

theorem bind {first second : HostM ε α} {next otherNext : α → HostM ε β}
    (firsts : AgreeUnless Related Excuse first second)
    (nexts : ∀ value, AgreeUnless Related Excuse (next value) (otherNext value)) :
    AgreeUnless Related Excuse (first >>= next) (second >>= otherNext) :=
  fun _ _ related => (firsts _ _ related).bind nexts

theorem convert {first second : HostM ε α} (rephrase : ε → ε')
    (firsts : AgreeUnless Related Excuse first second) :
    AgreeUnless Related Excuse (first.convert rephrase) (second.convert rephrase) :=
  fun _ _ related => (firsts _ _ related).convert rephrase

end AgreeUnless

end DocumentHost
