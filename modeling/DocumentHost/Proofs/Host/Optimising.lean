import DocumentHost.Proofs.Host.Merging
import DocumentHost.Proofs.Segment.Passes

/-!
# The merging passes have no effect

Each of the three merging passes refines the walk along the segments before it, and
compiling the merged segments refines the walk along them.
-/

namespace DocumentHost

/-- A literal, or a program that can stand alone as well as in front of another one. -/
def RawSegment.Standalone (segment : RawSegment) : Prop :=
  segment.kind = .program → ∃ statements, Mini.Continuable segment.text statements

namespace RawSegment

theorem Standalone.join {segment next : RawSegment} (alone : segment.Standalone)
    (nextAlone : next.Standalone) (joined : segment.joins next = true) :
    (segment.join next).Standalone := by
  intro program
  simp only [joins, Bool.and_eq_true, decide_eq_true_eq] at joined
  obtain ⟨statements, continuable⟩ := alone (joined.1.trans program)
  obtain ⟨others, further⟩ := nextAlone program
  exact ⟨statements ++ others, continuable.append further⟩

variable {codeFor : String → String → Option String}

theorem Standalone.absorbAfter
    (codes : ∀ tag text code, codeFor tag text = some code → code = Mini.codeForLiteral text)
    (previous : RawSegment) {segment : RawSegment} (alone : segment.Standalone) :
    (absorbAfter codeFor previous segment).Standalone := by
  rcases absorbAfter_eq codeFor previous segment with unchanged |
    ⟨tag, code, -, -, -, -, written, absorbed⟩
  · rwa [unchanged]
  · intro _
    rw [absorbed, codes _ _ _ written]
    exact ⟨_, Mini.continuable_codeForLiteral segment.text⟩

end RawSegment

/-- A script that is one request is answered as the request is. -/
theorem runScript_request (serve : (request : Request) → HostM ExecutionError request.Reply)
    (wanted : Request) : runScript serve (Script.request wanted) = serve wanted := by
  apply HostM.ext_eval
  intro world
  rw [Script.request, eval_runScript_ask, eval_runScript_done]

section Passes

variable {executable : ExecutableId} {document : Document} {context : ContextId}
  {pairs : List (ExecutableId × ExecutableId)} {codeFor : String → String → Option String}

/-! ## Absorbing literals -/

/-- The code for a literal does what the literal does. -/
theorem performSegment_absorbAfter
    (codes : ∀ tag text code, codeFor tag text = some code → code = Mini.codeForLiteral text)
    (previous segment : RawSegment) :
    performSegment executable document context
        (RawSegment.absorbAfter codeFor previous segment) =
      performSegment executable document context segment := by
  rcases RawSegment.absorbAfter_eq codeFor previous segment with unchanged |
    ⟨tag, code, literal, -, -, -, written, absorbed⟩
  · rw [unchanged]
  · obtain rfl := codes _ _ _ written
    have printed : performSegment executable document context
        { segment with kind := .program, text := Mini.codeForLiteral segment.text } =
          runFor executable context (Mini.runProgram [.print (.text segment.text)]) :=
      performProgram rfl (Mini.parse_codeForLiteral segment.text)
    rw [absorbed, printed, performLiteral literal, Mini.runProgram_print, runFor,
      runScript_request]
    rfl

theorem position_absorbAfter (previous segment : RawSegment) :
    (RawSegment.absorbAfter codeFor previous segment).position = segment.position := by
  rcases RawSegment.absorbAfter_eq codeFor previous segment with unchanged |
    ⟨_, _, -, -, -, -, -, absorbed⟩
  · rw [unchanged]
  · rw [absorbed]

theorem walkRaw_absorbFrom
    (codes : ∀ tag text code, codeFor tag text = some code → code = Mini.codeForLiteral text)
    (previous : RawSegment) (segments : List RawSegment) :
    walkRaw executable document context (RawSegment.absorbFrom codeFor previous segments) =
      walkRaw executable document context segments := by
  induction segments generalizing previous with
  | nil => rfl
  | cons segment rest ih =>
      simp only [RawSegment.absorbFrom, walkRaw, ih, performSegment_absorbAfter codes,
        position_absorbAfter]

theorem walkRaw_absorbLiterals
    (codes : ∀ tag text code, codeFor tag text = some code → code = Mini.codeForLiteral text)
    (segments : List RawSegment) :
    walkRaw executable document context (RawSegment.absorbLiterals codeFor segments) =
      walkRaw executable document context segments := by
  cases segments with
  | nil => rfl
  | cons segment rest =>
      rw [RawSegment.absorbLiterals, walkRaw, walkRaw, walkRaw_absorbFrom codes]

/-! ## Joining runs -/

theorem merged_refine (known : (executable, executable) ∈ pairs) {pieces : List RawSegment}
    {segment : RawSegment} (merged : RawSegment.MergedFrom pieces segment)
    (alone : ∀ piece ∈ pieces, piece.Standalone) :
    Refines pairs document.name context (RawSegment.JoinedLiterals pieces)
      (walkRaw executable document context pieces)
      (walkRaw executable document context [segment]) := by
  cases kind : segment.kind with
  | literal => exact literals_refine merged kind
  | program =>
      have arePrograms : ∀ piece ∈ pieces, piece.kind = .program :=
        fun piece member => (merged.kinds piece member).trans kind
      obtain ⟨statements, continuable, refines⟩ := programs_refine document context known
        merged.nonempty arePrograms
        (fun piece member => alone piece member (arePrograms piece member)) segment.position
      rw [← merged.text] at continuable
      rw [walkRaw_singleton, performProgram kind continuable.parses]
      exact refines.mono fun _ => False.elim

/-- By induction on the segments that follow; the pieces are those that have been joined. -/
theorem joinRunsFrom_refines (known : (executable, executable) ∈ pairs)
    {pieces : List RawSegment} {segment : RawSegment}
    (merged : RawSegment.MergedFrom pieces segment) (rest : List RawSegment)
    (alone : ∀ piece ∈ pieces ++ rest, piece.Standalone) :
    Refines pairs document.name context (RawSegment.JoinedLiterals (pieces ++ rest))
      (walkRaw executable document context (pieces ++ rest))
      (walkRaw executable document context (segment.joinRunsFrom rest)) := by
  induction rest generalizing pieces segment with
  | nil =>
      rw [List.append_nil] at alone ⊢
      exact merged_refine known merged alone
  | cons next rest ih =>
      rw [RawSegment.joinRunsFrom]
      split
      · rename_i joins
        simp only [RawSegment.joins, Bool.and_eq_true, decide_eq_true_eq] at joins
        have mergedToo : RawSegment.MergedFrom (pieces ++ [next]) (segment.join next) := by
          refine ⟨by simp, ?_, ?_⟩
          · intro piece member
            rcases List.mem_append.1 member with earlier | last
            · exact (merged.kinds piece earlier).trans joins.1
            · rw [List.mem_singleton.1 last]
              rfl
          · simp [RawSegment.join, merged.text, String.join_append]
        have further := ih mergedToo (by simpa using alone)
        rwa [List.append_assoc, List.singleton_append] at further
      · have piecesAlone : ∀ piece ∈ pieces, piece.Standalone :=
          fun piece member => alone piece (by simp [member])
        have nextMerged : RawSegment.MergedFrom [next] next := ⟨by simp, by simp, by simp⟩
        have further := ih nextMerged
          (fun piece member => alone piece (List.mem_append_right _ member))
        have walked : walkRaw executable document context (segment :: next.joinRunsFrom rest) = _ :=
          walkRaw_append [segment] (next.joinRunsFrom rest)
        rw [walkRaw_append pieces, walked]
        refine Refines.bind ?_ ?_
        · refine (merged_refine known merged piecesAlone).mono fun lost joined => .inr ?_
          simpa using joined.within [] (next :: rest)
        · refine further.mono fun lost joined => .inr ?_
          simpa using joined.within pieces []

theorem joinRuns_refines (document : Document) (context : ContextId)
    (known : (executable, executable) ∈ pairs) {segments : List RawSegment}
    (alone : ∀ segment ∈ segments, segment.Standalone) :
    Refines pairs document.name context (RawSegment.JoinedLiterals segments)
      (walkRaw executable document context segments)
      (walkRaw executable document context (RawSegment.joinRuns segments)) := by
  cases segments with
  | nil => exact .pure
  | cons segment rest =>
      have merged : RawSegment.MergedFrom [segment] segment := ⟨by simp, by simp, by simp⟩
      exact joinRunsFrom_refines known merged rest alone

/-- Where no two literals stand one behind the other, none is lost. -/
theorem RawSegment.Separated.eq_empty {segments : List RawSegment} (separated : Separated segments)
    {lost : String} (joined : JoinedLiterals segments lost) : lost = "" := by
  obtain ⟨earlier, front, last, rest, rfl, literals, lastLiteral, rfl⟩ := joined
  rcases List.eq_nil_or_concat front with rfl | ⟨others, previous, rfl⟩
  · rfl
  · have apart : Separated ((earlier ++ others) ++ previous :: last :: rest) := by
      simpa using separated
    have pair := (List.isChain_append.1 apart).2.1
    exact absurd ⟨literals previous (by simp), lastLiteral⟩ (List.isChain_cons_cons.1 pair).1

/-- All three passes. -/
theorem normalize_refines (known : (executable, executable) ∈ pairs)
    (codes : ∀ tag text code, codeFor tag text = some code → code = Mini.codeForLiteral text)
    {segments : List RawSegment} (alone : ∀ segment ∈ segments, segment.Standalone) :
    Refines pairs document.name context (RawSegment.JoinedLiterals segments)
      (walkRaw executable document context segments)
      (walkRaw executable document context (RawSegment.normalize codeFor segments)) := by
  have joinedAlone : ∀ segment ∈ RawSegment.joinRuns segments, segment.Standalone :=
    RawSegment.forall_joinRuns (fun _ _ => .join) alone
  have absorbedAlone : ∀ segment ∈ RawSegment.absorbLiterals codeFor (RawSegment.joinRuns segments),
      segment.Standalone :=
    RawSegment.forall_absorbLiterals
      (fun previous _ _ segmentAlone => segmentAlone.absorbAfter codes previous) joinedAlone
  have separated : RawSegment.Separated
      (RawSegment.absorbLiterals codeFor (RawSegment.joinRuns segments)) :=
    RawSegment.separated_absorbLiterals (RawSegment.separated_joinRuns segments)
  have first := joinRuns_refines document context known alone
  have last := joinRuns_refines document context known absorbedAlone
  rw [walkRaw_absorbLiterals codes] at last
  exact first.trans (last.mono fun lost joined => .inl (separated.eq_empty joined))

end Passes

end DocumentHost
