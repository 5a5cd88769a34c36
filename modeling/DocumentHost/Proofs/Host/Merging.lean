import DocumentHost.Proofs.Host.RawWalk
import DocumentHost.Proofs.Mini.Concatenation

/-!
# Merged segments have the effect of their pieces

Literal texts one behind the other are written as one text, and Mini programs one behind
the other run as one program.  A sink takes a text as a whole or not at all: if it refuses
the merged text of several literals, the literals in front of the one for which there was
no room are lost.
-/

namespace DocumentHost

/-! ## Writing -/

/-- The output of a context has room for a text. -/
def World.HasRoom (world : World) (context : ContextId) (text : String) : Prop :=
  let sink := world.sinks.get (world.contexts.get context).output
  ∀ limit, sink.limit = some limit → sink.text.utf8ByteSize + text.utf8ByteSize ≤ limit

namespace World

variable {world : World} {context : ContextId}

theorem hasRoom_append (first second : String) :
    (world.appendOutput context first).HasRoom context second ↔
      world.HasRoom context (first ++ second) := by
  simp only [HasRoom, appendOutput]
  by_cases known : (world.contexts.get context).output.index < world.sinks.size
  · rw [Arena.get_modify_self _ _ known]
    simp only [String.utf8ByteSize_append, Nat.add_assoc]
  · have missing (sinks : Arena .sink Sink) (size : sinks.size = world.sinks.size) :
        sinks.get (world.contexts.get context).output = default := by
      rw [Arena.get, List.getD_eq_getElem?_getD, List.getElem?_eq_none]
      · rfl
      simp only [Arena.size] at size known
      omega
    rw [missing _ (Arena.size_modify ..), missing _ rfl]
    constructor <;> intro _ limit none <;> cases none

theorem HasRoom.of_append {first second : String} (room : world.HasRoom context (first ++ second)) :
    world.HasRoom context first := by
  intro limit limited
  have total := room limit limited
  rw [String.utf8ByteSize_append] at total
  omega

/-- A text for which there is room is written. -/
theorem eval_writeText (unreleased : (world.contexts.get context).released = false)
    {text : String} (room : world.HasRoom context text) :
    (writeText context .output text).eval world = (.ok (), world.appendOutput context text) := by
  have written : (world.sinks.get (world.contexts.get context).output).write text =
      .ok { world.sinks.get (world.contexts.get context).output with
        text := (world.sinks.get (world.contexts.get context).output).text ++ text } := by
    unfold Sink.write
    split
    · rename_i limit limited
      rw [if_neg (Nat.not_lt.2 (room limit limited))]
    · rfl
  have opens : (world.contexts.get context).ensureOpen = .ok () := by
    simp [Context.ensureOpen, unreleased]
  rw [writeText, HostM.eval_bind_of_ok (HostM.eval_get _)]
  dsimp only [Context.sink]
  rw [opens, written, appendOutput, ← Arena.modify_const_get]
  rfl

/-- A text for which there is no room is refused as a whole. -/
theorem eval_writeText_of_full (unreleased : (world.contexts.get context).released = false)
    {text : String} (full : ¬world.HasRoom context text) :
    (writeText context .output text).eval world = (.error (.output .full), world) := by
  have refused : (world.sinks.get (world.contexts.get context).output).write text =
      .error .full := by
    simp only [HasRoom, not_forall, Nat.not_le] at full
    obtain ⟨limit, limited, exceeded⟩ := full
    simp only [Sink.write, limited, if_pos exceeded]
  have opens : (world.contexts.get context).ensureOpen = .ok () := by
    simp [Context.ensureOpen, unreleased]
  rw [writeText, HostM.eval_bind_of_ok (HostM.eval_get _)]
  dsimp only [Context.sink]
  rw [opens, refused]
  rfl

end World

/-! ## Runs of literals -/

/-- A segment holds the text of some segments of its kind, one behind the other. -/
structure RawSegment.MergedFrom (pieces : List RawSegment) (segment : RawSegment) : Prop where
  nonempty : pieces ≠ []
  kinds : ∀ piece ∈ pieces, piece.kind = segment.kind
  text : segment.text = String.join (pieces.map RawSegment.text)

section Walks

variable {executable : ExecutableId} {document : Document} {context : ContextId}
  {pairs : List (ExecutableId × ExecutableId)} {world other : World}

theorem performLiteral {segment : RawSegment} (literal : segment.kind = .literal) :
    performSegment executable document context segment =
      (writeText context .output segment.text).convert ExecutionError.ofContext := by
  rw [performSegment, literal]

/-- What becomes of literals: they are written as one text would be; where there is no room
for all of them, those in front of the refused one are there. -/
theorem eval_walkRaw_literals (executable : ExecutableId) (document : Document)
    (literals : List RawSegment)
    (areLiteral : ∀ literal ∈ literals, literal.kind = .literal) (nonempty : literals ≠ [])
    (unreleased : (world.contexts.get context).released = false) :
    let text := String.join (literals.map RawSegment.text)
    (world.HasRoom context text →
      (walkRaw executable document context literals).eval world =
        (.ok (), world.appendOutput context text)) ∧
    (¬world.HasRoom context text → ∃ front last rest, literals = front ++ last :: rest ∧
      (walkRaw executable document context literals).eval world =
        (.error ((ExecutionError.ofContext (.output .full)).passedThrough
          (document.place last.position)),
        world.appendOutput context (String.join (front.map RawSegment.text)))) := by
  induction literals generalizing world with
  | nil => exact absurd rfl nonempty
  | cons literal rest ih =>
      intro text
      have isLiteral := areLiteral literal (by simp)
      have textEq : text = literal.text ++ String.join (rest.map RawSegment.text) := by
        simp only [text, List.map_cons, String.join_cons]
      by_cases here : world.HasRoom context literal.text
      · have written : ((performSegment executable document context literal).convert fun error =>
            error.passedThrough (document.place literal.position)).eval world =
              (.ok (), world.appendOutput context literal.text) := by
          rw [performLiteral isLiteral]
          exact HostM.eval_convert_of_ok
            (HostM.eval_convert_of_ok (World.eval_writeText unreleased here))
        rw [walkRaw, HostM.eval_bind_of_ok written]
        cases rest with
        | nil =>
            rw [textEq, List.map_nil, String.join_nil, String.append_empty]
            exact ⟨fun _ => rfl, fun full => absurd here full⟩
        | cons next others =>
            obtain ⟨fits, exceeds⟩ := @ih (world.appendOutput context literal.text)
              (fun piece member => areLiteral piece (by simp [member])) (by simp) unreleased
            rw [World.hasRoom_append, ← textEq] at fits exceeds
            refine ⟨fun room => ?_, fun full => ?_⟩
            · rw [fits room, World.appendOutput_append, textEq]
            · obtain ⟨front, last, behind, split, failed⟩ := exceeds full
              refine ⟨literal :: front, last, behind, by rw [split]; rfl, ?_⟩
              rw [failed, World.appendOutput_append, List.map_cons, String.join_cons]
      · have refused : ((performSegment executable document context literal).convert fun error =>
            error.passedThrough (document.place literal.position)).eval world =
              (.error ((ExecutionError.ofContext (.output .full)).passedThrough
                (document.place literal.position)), world) := by
          rw [performLiteral isLiteral]
          exact HostM.eval_convert_of_error
            (HostM.eval_convert_of_error (World.eval_writeText_of_full unreleased here))
        rw [walkRaw, HostM.eval_bind_of_error refused]
        refine ⟨fun room => absurd (textEq ▸ room).of_append here, fun _ => ?_⟩
        refine ⟨[], literal, rest, rfl, ?_⟩
        rw [List.map_nil, String.join_nil, World.appendOutput_empty]

/-- Literals that stand in front of another one, and their text. -/
def RawSegment.JoinedLiterals (segments : List RawSegment) (lost : String) : Prop :=
  ∃ earlier front last rest, segments = earlier ++ front ++ last :: rest ∧
    (∀ piece ∈ front, piece.kind = .literal) ∧ last.kind = .literal ∧
    lost = String.join (front.map RawSegment.text)

theorem RawSegment.JoinedLiterals.within {segments : List RawSegment} {lost : String}
    (joined : JoinedLiterals segments lost) (before behind : List RawSegment) :
    JoinedLiterals (before ++ segments ++ behind) lost := by
  obtain ⟨earlier, front, last, rest, rfl, literals, lastLiteral, text⟩ := joined
  exact ⟨before ++ earlier, front, last, rest ++ behind, by simp, literals, lastLiteral, text⟩

theorem Alike.hasRoom_iff (alike : Alike context pairs world other) (text : String) :
    world.HasRoom context text ↔ other.HasRoom context text := by
  have sink : (other.contexts.get context).output = (world.contexts.get context).output :=
    alike.sink_eq .output
  have sinks : other.sinks = world.sinks := by rw [alike.indistinct.rest]
  rw [World.HasRoom, World.HasRoom, sink, sinks]

theorem walkRaw_singleton (segment : RawSegment) :
    walkRaw executable document context [segment] =
      (performSegment executable document context segment).convert fun error =>
        error.passedThrough (document.place segment.position) :=
  bind_pure_unit

theorem walkRaw_append (segments others : List RawSegment) :
    walkRaw executable document context (segments ++ others) =
      walkRaw executable document context segments >>= fun _ =>
        walkRaw executable document context others := by
  induction segments with
  | nil => rfl
  | cons segment rest ih =>
      rw [List.cons_append, walkRaw, walkRaw, ih, bind_assoc]

/-- Literals written as one text. -/
theorem literals_refine {literals : List RawSegment} {segment : RawSegment}
    (merged : RawSegment.MergedFrom literals segment) (literal : segment.kind = .literal) :
    Refines pairs document.name context (RawSegment.JoinedLiterals literals)
      (walkRaw executable document context literals)
      (walkRaw executable document context [segment]) := by
  intro world other alike
  have areLiteral : ∀ piece ∈ literals, piece.kind = .literal :=
    fun piece member => (merged.kinds piece member).trans literal
  obtain ⟨fits, exceeds⟩ := eval_walkRaw_literals executable document literals areLiteral
    merged.nonempty alike.unreleased
  rw [← merged.text] at fits exceeds
  have otherUnreleased := alike.refl_right.unreleased
  rw [walkRaw_singleton, performLiteral literal]
  by_cases room : world.HasRoom context segment.text
  · have otherWritten :=
      World.eval_writeText otherUnreleased ((alike.hasRoom_iff segment.text).1 room)
    rw [fits room, HostM.eval_convert_of_ok (HostM.eval_convert_of_ok otherWritten)]
    exact .inl ⟨rfl, rfl, alike.appendOutput segment.text⟩
  · have otherRefused :=
      World.eval_writeText_of_full otherUnreleased (mt (alike.hasRoom_iff segment.text).2 room)
    obtain ⟨front, last, rest, split, failed⟩ := exceeds room
    rw [failed, HostM.eval_convert_of_error (HostM.eval_convert_of_error otherRefused)]
    refine .inr ⟨_, _, _, _, rfl, rfl, alike.appendOutput _, .inr ⟨?_, rfl⟩⟩
    subst split
    exact ⟨[], front, last, rest, by simp, fun piece member => areLiteral piece (by simp [member]),
      areLiteral last (by simp), rfl⟩

/-! ## Runs of programs -/

/-- A program that parses is run as its statements. -/
theorem performProgram {segment : RawSegment} {statements : List Mini.Statement}
    (program : segment.kind = .program) (parses : Mini.parse segment.text = .ok statements) :
    performSegment executable document context segment =
      runFor executable context (Mini.runProgram statements) := by
  rw [performSegment, program]
  simp only [Mini.programOf, Mini.statementsOf, parses]
  rfl

theorem runFor_append {statements : List Mini.Statement} (never : Mini.NeverReturns statements)
    (others : List Mini.Statement) :
    runFor executable context (Mini.runProgram (statements ++ others)) =
      runFor executable context (Mini.runProgram statements) >>= fun _ =>
        runFor executable context (Mini.runProgram others) := by
  rw [Mini.runProgram_append never, runFor, runScript_bind]
  rfl

theorem runProgram_agree (context : ContextId) (known : (executable, executable) ∈ pairs)
    (statements : List Mini.Statement) :
    Agree (Alike context pairs) (runFor executable context (Mini.runProgram statements))
      (runFor executable context (Mini.runProgram statements)) :=
  Alike.agreeUnless_iff.1
    ((Alike.lockstep context).runFor_agree known (Mini.runProgram_asks statements))

/-- Programs run as one program, which reports failures at one place. -/
theorem programs_refine (document : Document) (context : ContextId)
    (known : (executable, executable) ∈ pairs) {programs : List RawSegment}
    (nonempty : programs ≠ []) (arePrograms : ∀ piece ∈ programs, piece.kind = .program)
    (continuable : ∀ piece ∈ programs, ∃ statements, Mini.Continuable piece.text statements)
    (position : Position) :
    ∃ statements, Mini.Continuable (String.join (programs.map RawSegment.text)) statements ∧
      Refines pairs document.name context (fun _ => False)
        (walkRaw executable document context programs)
        ((runFor executable context (Mini.runProgram statements)).convert fun error =>
          error.passedThrough (document.place position)) := by
  induction programs with
  | nil => exact absurd rfl nonempty
  | cons program rest ih =>
      obtain ⟨statements, alone⟩ := continuable program (by simp)
      have performed : performSegment executable document context program = _ :=
        performProgram (arePrograms program (by simp)) alone.parses
      have first := Refines.of_agree document.name (fun _ => False)
        (runProgram_agree context known statements) program.position position
      rw [List.map_cons, String.join_cons]
      cases rest with
      | nil =>
          rw [List.map_nil, String.join_nil, String.append_empty, walkRaw_singleton, performed]
          exact ⟨statements, alone, first⟩
      | cons next others =>
          obtain ⟨further, together, refines⟩ := ih (by simp)
            (fun piece member => arePrograms piece (by simp [member]))
            (fun piece member => continuable piece (by simp [member]))
          refine ⟨statements ++ further, alone.append together, ?_⟩
          rw [walkRaw, performed, runFor_append alone.never, HostM.convert_bind]
          exact first.bind refines

end Walks

end DocumentHost
