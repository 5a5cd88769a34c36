import DocumentHost.Proofs.Host.Lockstep
import DocumentHost.Proofs.Host.Releasing
import DocumentHost.Proofs.Mini.GeneratedCode

/-!
# Sums

A sum is worked out from the left.  As long as all operands are integers of 64 bits, so is what
they come to, or the sum fails; from the first other operand on, texts are joined.  Which of the
two is done may change once in a sum, and only to texts.
-/

namespace DocumentHost

namespace Mini

open Script

/-! ## Adding up values -/

/-- The integers of 64 bits that values begin with. -/
def leadingIntegers : List Json → List Int
  | [] => []
  | value :: rest =>
      match value.integer? with
      | some integer => integer :: leadingIntegers rest
      | none => []

/-- Some first integers add up to one that has more than 64 bits. -/
def Overflows (integers : List Int) : Prop :=
  ∃ count ≤ integers.length, Json.inIntegerRange (integers.take count).sum = false

instance (integers : List Int) : Decidable (Overflows integers) :=
  decidable_of_iff
    (∃ count : Fin (integers.length + 1), Json.inIntegerRange (integers.take count).sum = false)
    ⟨fun ⟨count, outside⟩ => ⟨count, Nat.le_of_lt_succ count.isLt, outside⟩,
      fun ⟨count, bounded, outside⟩ => ⟨⟨count, Nat.lt_succ_of_le bounded⟩, outside⟩⟩

/-- What values print as, one behind the other. -/
def joinedDisplays (values : List Json) : String :=
  String.join (values.map Json.display)

@[simp]
theorem joinedDisplays_nil : joinedDisplays [] = "" :=
  rfl

@[simp]
theorem joinedDisplays_cons (value : Json) (rest : List Json) :
    joinedDisplays (value :: rest) = value.display ++ joinedDisplays rest :=
  String.join_cons ..

@[simp]
theorem integer?_integer_of_inRange {integer : Int}
    (inRange : Json.inIntegerRange integer = true) :
    (Json.integer integer).integer? = some integer :=
  if_pos inRange

/-- A value that is an integer of 64 bits is nothing else. -/
theorem eq_integer_of_integer? {value : Json} {integer : Int}
    (isInteger : value.integer? = some integer) :
    value = .integer integer ∧ Json.inIntegerRange integer = true := by
  cases value with
  | integer held =>
      rw [Json.integer?] at isInteger
      split at isInteger
      · next inRange =>
          cases isInteger
          exact ⟨rfl, inRange⟩
      · cases isInteger
  | _ => cases isInteger

theorem add_of_integers {left right : Json} {first second : Int}
    (isFirst : left.integer? = some first) (isSecond : right.integer? = some second) :
    add left right = if Json.inIntegerRange (first + second) then .ok (.integer (first + second))
      else .error .overflow := by
  rw [add, isFirst, isSecond]

theorem add_of_left {left : Json} (noInteger : left.integer? = none) (right : Json) :
    add left right = .ok (.text (left.display ++ right.display)) := by
  rw [add, noInteger]

theorem add_of_right (left : Json) {right : Json} (noInteger : right.integer? = none) :
    add left right = .ok (.text (left.display ++ right.display)) := by
  rw [add, noInteger]
  split
  · next found => cases found
  · rfl

/-- To a text, all further values are joined as texts. -/
theorem foldlM_add_text (text : String) (values : List Json) :
    values.foldlM add (.text text) = .ok (.text (text ++ joinedDisplays values)) := by
  induction values generalizing text with
  | nil => simp [pure, Except.pure]
  | cons value rest ih =>
      have joined : add (.text text) value = .ok (.text (text ++ value.display)) :=
        add_of_left rfl value
      rw [List.foldlM_cons, joined]
      exact (ih _).trans (by rw [joinedDisplays_cons, String.append_assoc])

/-- Once two values have been joined as texts, all further ones are. -/
theorem foldlM_add_of_joined {value other : Json}
    (joined : add value other = .ok (.text (value.display ++ other.display)))
    (others : List Json) :
    (other :: others).foldlM add value =
      .ok (.text (value.display ++ joinedDisplays (other :: others))) := by
  rw [List.foldlM_cons, joined, joinedDisplays_cons, ← String.append_assoc]
  exact foldlM_add_text _ others

/-! ## Leading integers -/

theorem overflows_cons_iff (first : Int) (integers : List Int) :
    Overflows (first :: integers) ↔
      ∃ count ≤ integers.length,
        Json.inIntegerRange (first + (integers.take count).sum) = false := by
  constructor
  · rintro ⟨_ | count, bounded, outside⟩
    · cases outside
    · exact ⟨count, Nat.le_of_succ_le_succ bounded, by simpa using outside⟩
  · rintro ⟨count, bounded, outside⟩
    exact ⟨count + 1, Nat.succ_le_succ bounded, by simpa using outside⟩

/-- The first two integers may be added up beforehand. -/
theorem overflows_cons_cons_iff {first : Int} (inRange : Json.inIntegerRange first = true)
    (second : Int) (integers : List Int) :
    Overflows (first :: second :: integers) ↔ Overflows ((first + second) :: integers) := by
  rw [overflows_cons_iff, overflows_cons_iff]
  constructor
  · rintro ⟨_ | count, bounded, outside⟩
    · rw [List.take_zero, List.sum_nil, Int.add_zero, inRange] at outside
      cases outside
    · refine ⟨count, Nat.le_of_succ_le_succ bounded, ?_⟩
      rwa [List.take_succ_cons, List.sum_cons, ← Int.add_assoc] at outside
  · rintro ⟨count, bounded, outside⟩
    refine ⟨count + 1, Nat.succ_le_succ bounded, ?_⟩
    rwa [List.take_succ_cons, List.sum_cons, ← Int.add_assoc]

/-- Integers are added up exactly or not at all. -/
theorem foldlM_add_integers {first : Int} (inRange : Json.inIntegerRange first = true)
    (integers : List Int) (inRanges : ∀ integer ∈ integers, Json.inIntegerRange integer = true) :
    (Overflows (first :: integers) →
      (integers.map Json.integer).foldlM add (.integer first) = .error .overflow) ∧
    (¬Overflows (first :: integers) →
      (integers.map Json.integer).foldlM add (.integer first) =
        .ok (.integer (first + integers.sum))) := by
  induction integers generalizing first with
  | nil =>
      rw [overflows_cons_iff]
      constructor
      · rintro ⟨count, -, outside⟩
        rw [List.take_nil, List.sum_nil, Int.add_zero, inRange] at outside
        cases outside
      · simp [pure, Except.pure]
  | cons second integers ih =>
      have added := add_of_integers (integer?_integer_of_inRange inRange)
        (integer?_integer_of_inRange (inRanges second List.mem_cons_self))
      rw [List.map_cons, List.foldlM_cons, added, overflows_cons_cons_iff inRange]
      by_cases bothInRange : Json.inIntegerRange (first + second) = true
      · rw [if_pos bothInRange, List.sum_cons, ← Int.add_assoc]
        exact ih bothInRange fun integer member => inRanges integer (List.mem_cons_of_mem _ member)
      · rw [if_neg bothInRange]
        refine ⟨fun _ => rfl, fun fits => absurd ?_ fits⟩
        rw [overflows_cons_iff]
        refine ⟨0, Nat.zero_le _, ?_⟩
        rw [List.take_zero, List.sum_nil, Int.add_zero]
        exact Bool.eq_false_iff.2 bothInRange

theorem eq_append_drop_leadingIntegers (values : List Json) :
    values = (leadingIntegers values).map Json.integer ++
      values.drop (leadingIntegers values).length := by
  induction values with
  | nil => rfl
  | cons value rest ih =>
      rw [leadingIntegers]
      cases isInteger : value.integer? with
      | none => rfl
      | some integer =>
          obtain ⟨rfl, -⟩ := eq_integer_of_integer? isInteger
          exact congrArg (List.cons _) ih

theorem inRange_of_mem_leadingIntegers {values : List Json} {integer : Int}
    (member : integer ∈ leadingIntegers values) : Json.inIntegerRange integer = true := by
  induction values with
  | nil => cases member
  | cons value rest ih =>
      rw [leadingIntegers] at member
      cases isInteger : value.integer? with
      | none =>
          rw [isInteger] at member
          cases member
      | some found =>
          rw [isInteger] at member
          rcases List.mem_cons.1 member with rfl | inRest
          · exact (eq_integer_of_integer? isInteger).2
          · exact ih inRest

/-- Behind the leading integers stands none. -/
theorem integer?_of_drop_leadingIntegers {values others : List Json} {other : Json}
    (behind : values.drop (leadingIntegers values).length = other :: others) :
    other.integer? = none := by
  induction values with
  | nil => cases behind
  | cons value rest ih =>
      rw [leadingIntegers] at behind
      cases isInteger : value.integer? with
      | none =>
          rw [isInteger] at behind
          obtain ⟨rfl, -⟩ := List.cons.inj behind
          exact isInteger
      | some found =>
          rw [isInteger] at behind
          exact ih behind

/-- What a sum of values comes to. -/
structure SumsTo (values : List Json) (outcome : Except ExecutionError Json) : Prop where
  /-- It is refused if some of the leading integers add up to one of more than 64 bits. -/
  refused : Overflows (leadingIntegers values) →
    outcome = .error (.ofDescription "integer overflow")
  /-- Integers have their exact sum. -/
  exact : ¬Overflows (leadingIntegers values) → values ≠ [] →
    (leadingIntegers values).length = values.length →
    outcome = .ok (.integer (leadingIntegers values).sum)
  /-- Behind the sum of the leading integers, the other values are joined as texts. -/
  mixed : ¬Overflows (leadingIntegers values) → 0 < (leadingIntegers values).length →
    (leadingIntegers values).length < values.length →
    outcome = .ok (.text ((Json.integer (leadingIntegers values).sum).display ++
      joinedDisplays (values.drop (leadingIntegers values).length)))
  /-- If the first of several values is no such integer, all are joined as texts. -/
  joined : leadingIntegers values = [] → 1 < values.length →
    outcome = .ok (.text (joinedDisplays values))
  /-- A single value is what it is. -/
  single : ∀ value, values = [value] → outcome = .ok value

/-- A fault as a running program reports it. -/
def Fault.error (fault : Fault) : ExecutionError :=
  .ofDescription fault.message

theorem not_overflows_nil : ¬Overflows [] := by
  rintro ⟨count, -, outside⟩
  rw [List.take_nil] at outside
  cases outside

theorem sumsTo_of_noInteger {first : Json} (noInteger : first.integer? = none)
    (further : List Json) :
    SumsTo (first :: further) ((further.foldlM add first).mapError Fault.error) := by
  have noIntegers : leadingIntegers (first :: further) = [] := by
    rw [leadingIntegers, noInteger]
  refine ⟨fun overflows => ?_, fun _ _ all => ?_, fun _ some _ => ?_, fun _ several => ?_, ?_⟩
  · rw [noIntegers] at overflows
    exact absurd overflows not_overflows_nil
  · rw [noIntegers] at all
    cases all
  · rw [noIntegers] at some
    cases some
  · cases further with
    | nil => exact absurd several (Nat.lt_irrefl 1)
    | cons second rest =>
        rw [foldlM_add_of_joined (add_of_left noInteger second), joinedDisplays_cons first]
        rfl
  · rintro value single
    cases single
    rfl

theorem sumsTo_of_integer {first : Int} (inRange : Json.inIntegerRange first = true)
    (further : List Json) :
    SumsTo (.integer first :: further)
      ((further.foldlM add (.integer first)).mapError Fault.error) := by
  have leading : leadingIntegers (.integer first :: further) =
      first :: leadingIntegers further := by
    rw [leadingIntegers, integer?_integer_of_inRange inRange]
  obtain ⟨overflowing, fitting⟩ := foldlM_add_integers inRange (leadingIntegers further)
    fun _ => inRange_of_mem_leadingIntegers
  -- the integers are added up before the others are looked at
  have parts : further.foldlM add (.integer first) =
      ((leadingIntegers further).map Json.integer).foldlM add (.integer first) >>= fun total =>
        (further.drop (leadingIntegers further).length).foldlM add total := by
    rw [← List.foldlM_append, ← eq_append_drop_leadingIntegers]
  rw [parts]
  refine ⟨fun overflows => ?_, fun fits _ all => ?_, fun fits _ fewer => ?_, ?_, ?_⟩
  · rw [leading] at overflows
    rw [overflowing overflows]
    rfl
  · rw [leading] at fits all ⊢
    have nothing : further.drop (leadingIntegers further).length = [] :=
      List.drop_eq_nil_of_le (Nat.le_of_succ_le_succ all.ge)
    rw [fitting fits, nothing, List.sum_cons]
    rfl
  · rw [leading] at fits fewer ⊢
    rw [fitting fits, List.sum_cons, List.length_cons, List.drop_succ_cons]
    cases behind : further.drop (leadingIntegers further).length with
    | nil =>
        have bounded := List.drop_eq_nil_iff.1 behind
        exact absurd fewer (Nat.not_lt.2 (Nat.succ_le_succ bounded))
    | cons other others =>
        have joined := foldlM_add_of_joined (add_of_right
          (.integer (first + (leadingIntegers further).sum))
          (integer?_of_drop_leadingIntegers behind)) others
        exact congrArg (Except.mapError Fault.error) joined
  · rw [leading]
    exact fun none => absurd none (List.cons_ne_nil _ _)
  · rintro value single
    cases single
    rfl

/-- Adding values up from the left follows the rules for sums. -/
theorem foldlM_add_sumsTo (first : Json) (further : List Json) :
    SumsTo (first :: further) ((further.foldlM add first).mapError Fault.error) := by
  cases isInteger : first.integer? with
  | none => exact sumsTo_of_noInteger isInteger further
  | some integer =>
      obtain ⟨rfl, inRange⟩ := eq_integer_of_integer? isInteger
      exact sumsTo_of_integer inRange further

theorem length_leadingIntegers_le (values : List Json) :
    (leadingIntegers values).length ≤ values.length := by
  have parts := congrArg List.length (eq_append_drop_leadingIntegers values)
  rw [List.length_append, List.length_map] at parts
  omega

/-- A sum of values fails in no other way than by being refused. -/
theorem SumsTo.exists_ok {values : List Json} {outcome : Except ExecutionError Json}
    (sums : SumsTo values outcome) (fits : ¬Overflows (leadingIntegers values))
    (some : values ≠ []) : ∃ total, outcome = .ok total := by
  have bounded := length_leadingIntegers_le values
  have positive := List.length_pos_iff.2 some
  rcases Nat.eq_zero_or_pos (leadingIntegers values).length with none | leading
  · by_cases single : values.length = 1
    · obtain ⟨value, rfl⟩ := List.length_eq_one_iff.1 single
      exact ⟨_, sums.single value rfl⟩
    · exact ⟨_, sums.joined (List.length_eq_zero_iff.1 none) (by omega)⟩
  · by_cases all : (leadingIntegers values).length = values.length
    · exact ⟨_, sums.exact fits some all⟩
    · exact ⟨_, sums.mixed fits leading (by omega)⟩

/-! ## Operands -/

/-- Add one more operand to what the operands in front of it come to. -/
def addNext (arguments : List Json) (total : Json) (operand : Expression) : Script Json := do
  let value ← evaluate arguments operand
  match add total value with
  | .ok sum => pure sum
  | .error fault => failWith fault

theorem evaluate_sum (arguments : List Json) (left right : Expression) :
    evaluate arguments (.sum left right) =
      evaluate arguments left >>= fun total => addNext arguments total right :=
  rfl

/-- The operands of a sum are worked out from left to right. -/
theorem evaluate_foldl_sum (arguments : List Json) (first : Expression)
    (further : List Expression) :
    evaluate arguments (further.foldl .sum first) =
      evaluate arguments first >>= fun total => further.foldlM (addNext arguments) total := by
  induction further generalizing first with
  | nil => exact (bind_pure _).symm
  | cons second rest ih =>
      rw [List.foldl_cons, ih, evaluate_sum, bind_assoc]
      rfl

end Mini

/-! ## Running sums -/

section Host

variable {executable : ExecutableId} {context : ContextId} {world : World}

/-- What only looks leaves the host as it is. -/
theorem eval_serveRequest_of_looks {request : Request} (looks : Mini.Looks request) :
    ((serveRequest includeDocument executable context request).eval world).2 = world := by
  cases looks with
  | readAttribute name =>
      rw [serveRequest, inContext, HostM.eval_convert, HostM.eval_onContext]
      dsimp only
      rw [Context.attribute?]
      by_cases released : (world.contexts.get context).released = true
      · rw [Context.ensureOpen, if_pos released]
        rfl
      · rw [Context.ensureOpen, if_neg released]
        exact world.modifyContext_get context
  | readGlobal name => rfl

theorem eval_runFor_of_looks {α : Type} {script : Script α} (looks : script.Asks Mini.Looks) :
    ((runFor executable context script).eval world).2 = world := by
  rw [runFor]
  induction looks with
  | done outcome => rfl
  | ask isAllowed stops _ ih =>
      rw [eval_runScript_ask, eval_serveRequest_of_looks isAllowed]
      exact ih _

/-- What an expression comes to in a program that runs with arguments. -/
def World.valueOf (world : World) (executable : ExecutableId) (context : ContextId)
    (arguments : List Json) (expression : Mini.Expression) : Except ExecutionError Json :=
  ((runFor executable context (Mini.evaluate arguments expression)).eval world).1

theorem eval_evaluate (executable : ExecutableId) (context : ContextId) (world : World)
    (arguments : List Json) (expression : Mini.Expression) :
    (runFor executable context (Mini.evaluate arguments expression)).eval world =
      (world.valueOf executable context arguments expression, world) :=
  Prod.ext rfl (eval_runFor_of_looks (Mini.evaluate_looks arguments expression))

theorem runFor_bind {α β : Type} (script : Script α) (next : α → Script β) :
    runFor executable context (script >>= next) =
      runFor executable context script >>= fun value => runFor executable context (next value) :=
  runScript_bind _ script next

/-- Add what one more operand comes to. -/
def World.plus (world : World) (executable : ExecutableId) (context : ContextId)
    (arguments : List Json) (total : Json) (operand : Mini.Expression) :
    Except ExecutionError Json := do
  let value ← world.valueOf executable context arguments operand
  (Mini.add total value).mapError Mini.Fault.error

theorem eval_addNext (executable : ExecutableId) (context : ContextId) (world : World)
    (arguments : List Json) (total : Json) (operand : Mini.Expression) :
    (runFor executable context (Mini.addNext arguments total operand)).eval world =
      (world.plus executable context arguments total operand, world) := by
  rw [Mini.addNext, runFor_bind, HostM.eval_bind, eval_evaluate, World.plus]
  cases world.valueOf executable context arguments operand with
  | error error => rfl
  | ok value =>
      dsimp only
      change _ = ((Mini.add total value).mapError Mini.Fault.error, world)
      cases Mini.add total value <;> rfl

theorem eval_foldlM_addNext (arguments : List Json) (total : Json)
    (operands : List Mini.Expression) :
    (runFor executable context (operands.foldlM (Mini.addNext arguments) total)).eval world =
      (operands.foldlM (world.plus executable context arguments) total, world) := by
  induction operands generalizing total with
  | nil => rfl
  | cons operand rest ih =>
      rw [List.foldlM_cons, List.foldlM_cons, runFor_bind, HostM.eval_bind, eval_addNext]
      cases world.plus executable context arguments total operand with
      | error error => rfl
      | ok sum => exact ih sum

theorem valueOf_foldl_sum (arguments : List Json) (first : Mini.Expression)
    (further : List Mini.Expression) :
    world.valueOf executable context arguments (further.foldl .sum first) =
      world.valueOf executable context arguments first >>= fun total =>
        further.foldlM (world.plus executable context arguments) total := by
  rw [World.valueOf, Mini.evaluate_foldl_sum, runFor_bind, HostM.eval_bind, eval_evaluate]
  cases world.valueOf executable context arguments first with
  | error error => rfl
  | ok total => exact congrArg Prod.fst (eval_foldlM_addNext arguments total further)

/-- Operands with values are added up as their values are. -/
theorem foldlM_plus_of_values {arguments values : List Json} {operands : List Mini.Expression}
    (valued : operands.map (world.valueOf executable context arguments) = values.map .ok)
    (total : Json) :
    operands.foldlM (world.plus executable context arguments) total =
      (values.foldlM Mini.add total).mapError Mini.Fault.error := by
  induction operands generalizing values total with
  | nil =>
      obtain rfl : values = [] := List.map_eq_nil_iff.1 valued.symm
      rfl
  | cons operand operands ih =>
      cases values with
      | nil => cases valued
      | cons value values =>
          obtain ⟨valued, others⟩ := List.cons.inj valued
          rw [List.foldlM_cons, List.foldlM_cons, World.plus, valued]
          change ((Mini.add total value).mapError Mini.Fault.error >>= _) = _
          cases Mini.add total value with
          | error fault => rfl
          | ok sum => exact ih others sum

end Host

/-! ## Sums in programs -/

/-- A sum is read as the operands that its text has, wherever it stands in a program.  Working it
out changes nothing, and its operands are worked out from left to right.  If all have values, the
sum comes to what the rules for their values say.  Otherwise the first operand without a value
decides the error, unless the operands in front of it already add up to an integer of more than
64 bits. -/
theorem sums_exact_or_refused (world : World) (executable : ExecutableId) (context : ContextId)
    (arguments : List Json) (first : Mini.Expression) (further : List Mini.Expression) :
    (∀ lexemes others tail (cursor : Mini.Cursor), Mini.TermOf lexemes first →
      Mini.FurtherOf others further → tail.head? ≠ some (.mark '+') →
      Mini.Spells cursor.rest (lexemes ++ others ++ tail) →
      ∃ behind, Mini.readExpression cursor = .ok (further.foldl .sum first, behind) ∧
        Mini.Spells behind.rest tail) ∧
    ((runFor executable context
      (Mini.evaluate arguments (further.foldl .sum first))).eval world).2 = world ∧
    ∀ operands rest values, first :: further = operands ++ rest →
      operands.map (world.valueOf executable context arguments) = values.map .ok →
      (rest = [] → Mini.SumsTo values
        (world.valueOf executable context arguments (further.foldl .sum first))) ∧
      (Mini.Overflows (Mini.leadingIntegers values) →
        world.valueOf executable context arguments (further.foldl .sum first) =
          .error (.ofDescription "integer overflow")) ∧
      (¬Mini.Overflows (Mini.leadingIntegers values) → ∀ failing others error,
        rest = failing :: others →
        world.valueOf executable context arguments failing = .error error →
        world.valueOf executable context arguments (further.foldl .sum first) = .error error) := by
  refine ⟨fun lexemes others tail cursor term tailing noPlus spells =>
    Mini.readExpression_eq_ok (.sum term tailing) spells noPlus,
    eval_runFor_of_looks (Mini.evaluate_looks arguments _),
    fun operands rest values parts valued => ?_⟩
  rw [valueOf_foldl_sum]
  cases operands with
  | nil =>
      obtain rfl : values = [] := List.map_eq_nil_iff.1 valued.symm
      refine ⟨fun none => ?_, fun overflows => absurd overflows Mini.not_overflows_nil,
        fun _ failing others error isRest fails => ?_⟩
      · rw [none] at parts
        cases parts
      · obtain rfl : first = failing := (List.cons.inj (parts.trans isRest)).1
        rw [fails]
        rfl
  | cons operand operands =>
      obtain ⟨rfl, isFurther⟩ := List.cons.inj parts
      obtain rfl : further = operands ++ rest := isFurther
      cases values with
      | nil => cases valued
      | cons value values =>
          obtain ⟨isValue, others⟩ := List.cons.inj valued
          have sums := Mini.foldlM_add_sumsTo value values
          have worked : (world.valueOf executable context arguments first >>= fun total =>
              (operands ++ rest).foldlM (world.plus executable context arguments) total) =
              (values.foldlM Mini.add value).mapError Mini.Fault.error >>= fun total =>
                rest.foldlM (world.plus executable context arguments) total := by
            rw [isValue, ← foldlM_plus_of_values others value, ← List.foldlM_append]
            rfl
          rw [worked]
          refine ⟨fun none => ?_, fun overflows => ?_,
            fun fits failing behind error isRest fails => ?_⟩
          · rw [none]
            simpa using sums
          · rw [sums.refused overflows]
            rfl
          · obtain ⟨total, isTotal⟩ := sums.exists_ok fits (List.cons_ne_nil _ _)
            have stops : (failing :: behind).foldlM
                (world.plus executable context arguments) total = .error error := by
              rw [List.foldlM_cons, World.plus, fails]
              rfl
            rw [isTotal, isRest]
            exact stops

/-- A sum that is read; integers and a text; integers whose sum would be in range, had it been
worked out from the right; and a variable that nobody has set, in front of an overflow. -/
theorem sums_exact_or_refused_examples :
    (∃ behind, Mini.readExpression ⟨['1', '+', '2'], .start⟩ =
        .ok (.sum (.integer 1) (.integer 2), behind) ∧ Mini.Spells behind.rest []) ∧
      (default : World).valueOf ⟨0⟩ ⟨0⟩ []
          (.sum (.sum (.sum (.integer 1) (.integer 2)) (.text "a")) (.integer 3)) =
        .ok (.text "3a3") ∧
      (default : World).valueOf ⟨0⟩ ⟨0⟩ []
          (.sum (.sum (.integer 9223372036854775807) (.integer 1)) (.integer (-1))) =
        .error (.ofDescription "integer overflow") ∧
      (default : World).valueOf ⟨0⟩ ⟨0⟩ []
          (.sum (.sum (.integer 9223372036854775807) (.named "x")) (.integer 1)) =
        .error (.ofDescription "undefined variable 'x'") := by
  obtain ⟨reads, -⟩ := sums_exact_or_refused default ⟨0⟩ ⟨0⟩ [] (.integer 1) [.integer 2]
  obtain ⟨-, -, mixed⟩ := sums_exact_or_refused default ⟨0⟩ ⟨0⟩ [] (.integer 1)
    [.integer 2, .text "a", .integer 3]
  obtain ⟨-, -, large⟩ := sums_exact_or_refused default ⟨0⟩ ⟨0⟩ [] (.integer 9223372036854775807)
    [.integer 1, .integer (-1)]
  obtain ⟨-, -, unset⟩ := sums_exact_or_refused default ⟨0⟩ ⟨0⟩ [] (.integer 9223372036854775807)
    [.named "x", .integer 1]
  obtain ⟨sums, -⟩ := mixed [.integer 1, .integer 2, .text "a", .integer 3] []
    [.integer 1, .integer 2, .text "a", .integer 3] rfl rfl
  obtain ⟨-, refused, -⟩ := large
    [.integer 9223372036854775807, .integer 1, .integer (-1)] []
    [.integer 9223372036854775807, .integer 1, .integer (-1)] rfl rfl
  obtain ⟨-, -, fails⟩ := unset [.integer 9223372036854775807]
    [.named "x", .integer 1] [.integer 9223372036854775807] rfl rfl
  have joined := (sums rfl).mixed (by decide) (by decide) (by decide)
  have printed : (Json.integer (Mini.leadingIntegers
        [.integer 1, .integer 2, .text "a", .integer 3]).sum).display ++
      Mini.joinedDisplays (List.drop
        (Mini.leadingIntegers [.integer 1, .integer 2, .text "a", .integer 3]).length
        [.integer 1, .integer 2, .text "a", .integer 3]) = "3a3" := by
    decide +kernel
  rw [printed] at joined
  have spells : Mini.Spells ['1', '+', '2'] [.integer 1, .mark '+', .integer 2] := by
    have one : Mini.Form ['1'] (.integer 1) :=
      @Mini.Form.natural ['1'] (by decide) (List.forall_mem_singleton.2 rfl) (by decide)
    have two : Mini.Form ['2'] (.integer 2) :=
      @Mini.Form.natural ['2'] (by decide) (List.forall_mem_singleton.2 rfl) (by decide)
    have stops : (Mini.Lexeme.integer 1).StopsAt ['+', '2'] := by
      rintro _ ⟨⟩
      decide
    exact .character one stops (.character (.mark (by decide)) (fun _ _ => rfl)
      (.character two nofun .done))
  exact ⟨reads _ _ [] _ (.integer 1) (.cons (.integer 2) .nil) nofun spells, joined,
    refused (by decide), fails (by decide) (.named "x") [.integer 1] _ rfl rfl⟩

end DocumentHost
