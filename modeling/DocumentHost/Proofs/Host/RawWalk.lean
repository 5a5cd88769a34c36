import DocumentHost.Proofs.Host.Oblivion

/-!
# Walking raw segments

The plain meaning of a document with scriptlets is a walk along its raw segments: literal
text is written, each program is run on its own, up to the first failure.  A walk along
other segments refines it if it has the same effect.  The frame of a failure may then name
another position; and where the output refuses a text, text that was to be written
directly before may be missing, since it was written together with the refused one.
-/

namespace DocumentHost

/-- Carry out a raw segment: write a literal, run a program on its own. -/
def performSegment (executable : ExecutableId) (document : Document) (context : ContextId)
    (segment : RawSegment) : HostM ExecutionError Unit :=
  match segment.kind with
  | .literal => (writeText context .output segment.text).convert ExecutionError.ofContext
  | .program =>
      runFor executable context
        (Mini.programOf ⟨segment.text, document.place segment.position, true⟩).run

/-- Carry out raw segments in order, up to the first that fails. -/
def walkRaw (executable : ExecutableId) (document : Document) (context : ContextId) :
    List RawSegment → HostM ExecutionError Unit
  | [] => pure ()
  | segment :: rest => do
      (performSegment executable document context segment).convert fun error =>
        error.passedThrough (document.place segment.position)
      walkRaw executable document context rest

/-- Add to the text that a context has written to its output. -/
def World.appendOutput (world : World) (context : ContextId) (text : String) : World :=
  { world with sinks := world.sinks.modify (world.contexts.get context).output fun sink =>
      { sink with text := sink.text ++ text } }

/-- Two runs of a document end alike, with a frame of the document about a failure, and
leave related states.  Where the output has refused a text, the second run may have lost
some text. -/
def SameEffect (Related : World → World → Prop) (document : String) (context : ContextId)
    (Lost : String → Prop) (first second : Except ExecutionError Unit × World) : Prop :=
  (first.1 = .ok () ∧ second.1 = .ok () ∧ Related first.2 second.2) ∨
  ∃ error position otherPosition lost,
    first.1 = .error (ExecutionError.passedThrough error ⟨document, position⟩) ∧
    second.1 = .error (ExecutionError.passedThrough error ⟨document, otherPosition⟩) ∧
    Related first.2 (second.2.appendOutput context lost) ∧
    (lost = "" ∨ Lost lost ∧ error.cause = some (.context (.output .full)))

/-- Begun in states that agree but for the record of adapters, the second operation has
the effect of the first. -/
def Refines (pairs : List (ExecutableId × ExecutableId)) (document : String)
    (context : ContextId) (Lost : String → Prop) (first second : HostM ExecutionError Unit) :
    Prop :=
  ∀ world other, Alike context pairs world other →
    SameEffect (Alike context pairs) document context Lost (first.eval world)
      (second.eval other)

namespace World

@[simp]
theorem appendOutput_empty (world : World) (context : ContextId) :
    world.appendOutput context "" = world := by
  have same (sinks : Arena .sink Sink) (sink : SinkId) :
      sinks.modify sink (fun sink => { sink with text := sink.text ++ "" }) = sinks := by
    simp only [String.append_empty]
    exact Arena.modify_id sinks sink
  rw [appendOutput, same]

theorem appendOutput_append (world : World) (context : ContextId) (first second : String) :
    (world.appendOutput context first).appendOutput context second =
      world.appendOutput context (first ++ second) := by
  simp only [appendOutput, Arena.modify_modify_self, Function.comp_def, String.append_assoc]

end World

theorem ExecutionError.passedThrough_injective {error other : ExecutionError}
    {place otherPlace : Place} (same : error.passedThrough place = other.passedThrough otherPlace) :
    error = other := by
  cases error
  cases other
  simp only [passedThrough, mk.injEq] at same ⊢
  obtain ⟨description, frames, cause⟩ := same
  exact ⟨description, (List.append_inj' frames rfl).1, cause⟩

/-- What comes next has to have the same effect only where both have succeeded. -/
theorem SameEffect.bind {Related : World → World → Prop} {document : String}
    {context : ContextId} {Lost : String → Prop} {world other : World}
    {first second next otherNext : HostM ExecutionError Unit}
    (effect : SameEffect Related document context Lost (first.eval world) (second.eval other))
    (nexts : ∀ world other, Related world other →
      SameEffect Related document context Lost (next.eval world) (otherNext.eval other)) :
    SameEffect Related document context Lost ((first >>= fun _ => next).eval world)
      ((second >>= fun _ => otherNext).eval other) := by
  rcases effect with ⟨completed, otherCompleted, related⟩ |
    ⟨error, position, otherPosition, lost, failed, otherFailed, related⟩
  · rw [HostM.eval_bind_of_ok (Prod.ext completed rfl),
      HostM.eval_bind_of_ok (Prod.ext otherCompleted rfl)]
    exact nexts _ _ related
  · rw [HostM.eval_bind_of_error (Prod.ext failed rfl),
      HostM.eval_bind_of_error (Prod.ext otherFailed rfl)]
    exact .inr ⟨error, position, otherPosition, lost, rfl, rfl, related⟩

namespace Alike

variable {context : ContextId} {pairs : List (ExecutableId × ExecutableId)}
  {world other further : World}

theorem refl_right (alike : Alike context pairs world other) : Alike context pairs other other where
  indistinct := .refl context other
  speaks := by
    refine alike.speaks.of_eq alike.indistinct.sameAdapters ?_
    rw [alike.indistinct.rest]
  current := by
    rw [alike.indistinct.rest]
    exact alike.current
  known := alike.indistinct.size_contexts ▸ alike.known
  unreleased := alike.marks_eq.1 ▸ alike.unreleased
  pairs := alike.pairs

theorem symm (alike : Alike context pairs world other) : Alike context pairs other world :=
  { alike.refl_right with indistinct := alike.indistinct.symm }

theorem trans (first : Alike context pairs world other) (second : Alike context pairs other further) :
    Alike context pairs world further :=
  { first with indistinct := first.indistinct.trans second.indistinct }

/-- A text is added to the outputs of both states. -/
theorem appendOutput (alike : Alike context pairs world other) (text : String) :
    Alike context pairs (world.appendOutput context text) (other.appendOutput context text) := by
  have sink : (other.contexts.get context).output = (world.contexts.get context).output :=
    alike.sink_eq .output
  have sinks : other.sinks = world.sinks := by rw [alike.indistinct.rest]
  rw [World.appendOutput, World.appendOutput, sink, sinks]
  exact (compiling context pairs).quiet (.setSinks _) alike

end Alike

namespace Refines

variable {pairs : List (ExecutableId × ExecutableId)} {document : String} {context : ContextId}
  {Lost : String → Prop} {first second third : HostM ExecutionError Unit}

theorem pure : Refines pairs document context Lost (pure ()) (pure ()) :=
  fun _ _ alike => .inl ⟨rfl, rfl, alike⟩

theorem mono {Weaker : String → Prop} (refines : Refines pairs document context Lost first second)
    (weaken : ∀ lost, Lost lost → lost = "" ∨ Weaker lost) :
    Refines pairs document context Weaker first second := by
  intro world other alike
  rcases refines world other alike with completed |
    ⟨error, position, otherPosition, lost, failed, otherFailed, related, excused⟩
  · exact .inl completed
  · refine .inr ⟨error, position, otherPosition, lost, failed, otherFailed, related, ?_⟩
    rcases excused with nothing | ⟨isLost, refused⟩
    · exact .inl nothing
    · exact (weaken lost isLost).imp_right fun isLost => ⟨isLost, refused⟩

/-- Operations that agree, with frames that may differ in their positions. -/
theorem of_agree (document : String) (Lost : String → Prop)
    (agree : Agree (Alike context pairs) first second)
    (position otherPosition : Position) :
    Refines pairs document context Lost
      (first.convert fun error => error.passedThrough ⟨document, position⟩)
      (second.convert fun error => error.passedThrough ⟨document, otherPosition⟩) := by
  intro world other alike
  obtain ⟨sameOutcome, alikeBehind⟩ := agree world other alike
  rw [HostM.eval_convert, HostM.eval_convert, ← sameOutcome]
  cases (first.eval world).1 with
  | ok _ => exact .inl ⟨rfl, rfl, alikeBehind⟩
  | error error =>
      refine .inr ⟨error, position, otherPosition, "", rfl, rfl, ?_, .inl rfl⟩
      rw [World.appendOutput_empty]
      exact alikeBehind

theorem bind {next otherNext : HostM ExecutionError Unit}
    (firsts : Refines pairs document context Lost first second)
    (nexts : Refines pairs document context Lost next otherNext) :
    Refines pairs document context Lost (first >>= fun _ => next) (second >>= fun _ => otherNext) :=
  fun world other alike => (firsts world other alike).bind nexts

/-- One refinement after another, the second of which loses nothing. -/
theorem trans (firsts : Refines pairs document context Lost first second)
    (lossless : Refines pairs document context (fun _ => False) second third) :
    Refines pairs document context Lost first third := by
  intro world other alike
  rcases firsts world other alike with ⟨completed, otherCompleted, related⟩ |
    ⟨error, position, otherPosition, lost, failed, otherFailed, related, excused⟩
  · rcases lossless other other alike.refl_right with ⟨_, thirdCompleted, thirdRelated⟩ |
      ⟨_, _, _, _, otherFailed, -⟩
    · exact .inl ⟨completed, thirdCompleted, related.trans thirdRelated⟩
    · rw [otherCompleted] at otherFailed
      cases otherFailed
  · rcases lossless other other alike.refl_right with ⟨otherCompleted, -⟩ |
      ⟨otherError, _, thirdPosition, nothing, otherFails, thirdFailed, thirdRelated, none⟩
    · rw [otherCompleted] at otherFailed
      cases otherFailed
    · rw [otherFailed, Except.error.injEq] at otherFails
      obtain rfl := ExecutionError.passedThrough_injective otherFails
      obtain rfl : nothing = "" := none.resolve_right fun lost => lost.1
      rw [World.appendOutput_empty] at thirdRelated
      refine .inr ⟨error, position, thirdPosition, lost, failed, thirdFailed, ?_, excused⟩
      exact related.trans (thirdRelated.appendOutput lost)

/-- One refinement after another, the first of which loses nothing. -/
theorem after (lossless : Refines pairs document context (fun _ => False) first second)
    (refines : Refines pairs document context Lost second third) :
    Refines pairs document context Lost first third := by
  intro world other alike
  rcases lossless world other alike with ⟨completed, otherCompleted, related⟩ |
    ⟨error, position, otherPosition, nothing, failed, otherFailed, related, none⟩
  · rcases refines other other alike.refl_right with ⟨_, thirdCompleted, thirdRelated⟩ |
      ⟨_, _, _, _, otherFailed, -⟩
    · exact .inl ⟨completed, thirdCompleted, related.trans thirdRelated⟩
    · rw [otherCompleted] at otherFailed
      cases otherFailed
  · rcases refines other other alike.refl_right with ⟨otherCompleted, -⟩ |
      ⟨otherError, _, thirdPosition, lost, otherFails, thirdFailed, thirdRelated, excused⟩
    · rw [otherCompleted] at otherFailed
      cases otherFailed
    · rw [otherFailed, Except.error.injEq] at otherFails
      obtain rfl := ExecutionError.passedThrough_injective otherFails
      obtain rfl : nothing = "" := none.resolve_right fun lost => lost.1
      rw [World.appendOutput_empty] at related
      exact .inr ⟨error, position, thirdPosition, lost, failed, thirdFailed,
        related.trans thirdRelated, excused⟩

/-- A refinement that loses nothing goes both ways. -/
theorem symm (lossless : Refines pairs document context (fun _ => False) first second) :
    Refines pairs document context (fun _ => False) second first := by
  intro world other alike
  rcases lossless other world alike.symm with ⟨completed, otherCompleted, related⟩ |
    ⟨error, position, otherPosition, nothing, failed, otherFailed, related, none⟩
  · exact .inl ⟨otherCompleted, completed, related.symm⟩
  · obtain rfl : nothing = "" := none.resolve_right fun lost => lost.1
    rw [World.appendOutput_empty] at related
    refine .inr ⟨error, otherPosition, position, "", otherFailed, failed, ?_, none⟩
    rw [World.appendOutput_empty]
    exact related.symm

end Refines

end DocumentHost
