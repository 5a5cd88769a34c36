import DocumentHost.Segment.Merging
import Mathlib.Data.List.Chain

/-!
# What the merging passes keep

Whatever is true of the segments of a document, and passes on to a merged segment from its
pieces and to the code for a literal from the segment before it, is true of the merged
segments.  Behind the first pass no two literals stand one behind the other, and it stays
so.
-/

namespace DocumentHost.RawSegment

/-! ## Properties of single segments -/

section Kept

variable {Good : RawSegment → Prop}

theorem forall_joinRunsFrom
    (joined : ∀ segment next, Good segment → Good next → segment.joins next = true →
      Good (segment.join next))
    {segment : RawSegment} {rest : List RawSegment} (first : Good segment)
    (good : ∀ next ∈ rest, Good next) : ∀ kept ∈ segment.joinRunsFrom rest, Good kept := by
  induction rest generalizing segment with
  | nil =>
      intro kept member
      rw [joinRunsFrom, List.mem_singleton] at member
      rwa [member]
  | cons next rest ih =>
      have nextGood := good next (by simp)
      have restGood : ∀ other ∈ rest, Good other := fun other member => good other (by simp [member])
      rw [joinRunsFrom]
      split
      · rename_i joins
        exact ih (joined segment next first nextGood joins) restGood
      · exact List.forall_mem_cons.2 ⟨first, ih nextGood restGood⟩

theorem forall_joinRuns
    (joined : ∀ segment next, Good segment → Good next → segment.joins next = true →
      Good (segment.join next))
    {segments : List RawSegment} (good : ∀ segment ∈ segments, Good segment) :
    ∀ kept ∈ joinRuns segments, Good kept := by
  cases segments with
  | nil => nofun
  | cons segment rest =>
      exact forall_joinRunsFrom joined (good segment (by simp))
        fun next member => good next (by simp [member])

variable {codeFor : String → String → Option String}

theorem forall_absorbFrom
    (absorbed : ∀ previous segment, Good previous → Good segment →
      Good (absorbAfter codeFor previous segment))
    {previous : RawSegment} {rest : List RawSegment} (first : Good previous)
    (good : ∀ next ∈ rest, Good next) : ∀ kept ∈ absorbFrom codeFor previous rest, Good kept := by
  induction rest generalizing previous with
  | nil => nofun
  | cons next rest ih =>
      have nextGood := absorbed previous next first (good next (by simp))
      exact List.forall_mem_cons.2
        ⟨nextGood, ih nextGood fun other member => good other (by simp [member])⟩

theorem forall_absorbLiterals
    (absorbed : ∀ previous segment, Good previous → Good segment →
      Good (absorbAfter codeFor previous segment))
    {segments : List RawSegment} (good : ∀ segment ∈ segments, Good segment) :
    ∀ kept ∈ absorbLiterals codeFor segments, Good kept := by
  cases segments with
  | nil => nofun
  | cons segment rest =>
      have first := good segment (by simp)
      exact List.forall_mem_cons.2 ⟨first, forall_absorbFrom absorbed first
        fun next member => good next (by simp [member])⟩

end Kept

/-! ## Literals apart -/

/-- No two literals stand one behind the other. -/
def Separated (segments : List RawSegment) : Prop :=
  segments.IsChain fun segment next => ¬(segment.kind = .literal ∧ next.kind = .literal)

theorem head_joinRunsFrom (segment : RawSegment) (rest : List RawSegment) :
    ∃ first others, segment.joinRunsFrom rest = first :: others ∧ first.kind = segment.kind := by
  induction rest generalizing segment with
  | nil => exact ⟨segment, [], rfl, rfl⟩
  | cons next rest ih =>
      rw [joinRunsFrom]
      split
      · rename_i joins
        obtain ⟨first, others, shape, kind⟩ := ih (segment.join next)
        simp only [RawSegment.joins, Bool.and_eq_true, decide_eq_true_eq] at joins
        exact ⟨first, others, shape, kind.trans joins.1.symm⟩
      · exact ⟨segment, next.joinRunsFrom rest, rfl, rfl⟩

theorem separated_joinRunsFrom (segment : RawSegment) (rest : List RawSegment) :
    Separated (segment.joinRunsFrom rest) := by
  induction rest generalizing segment with
  | nil => exact .singleton _
  | cons next rest ih =>
      rw [joinRunsFrom]
      split
      · exact ih (segment.join next)
      · rename_i apart
        obtain ⟨first, others, shape, kind⟩ := head_joinRunsFrom next rest
        have further := ih next
        rw [shape] at further ⊢
        refine List.isChain_cons_cons.2 ⟨?_, further⟩
        rintro ⟨literal, otherLiteral⟩
        apply apart
        simp [RawSegment.joins, isLiteral, literal, ← kind, otherLiteral]

theorem separated_joinRuns (segments : List RawSegment) : Separated (joinRuns segments) := by
  cases segments with
  | nil => exact .nil
  | cons segment rest => exact separated_joinRunsFrom segment rest

variable {codeFor : String → String → Option String}

/-- Absorbing a literal makes it a program, and leaves everything else. -/
theorem absorbAfter_eq (codeFor : String → String → Option String)
    (previous segment : RawSegment) :
    absorbAfter codeFor previous segment = segment ∨
      ∃ tag code, segment.kind = .literal ∧ previous.kind = .program ∧
        previous.tag = some tag ∧ segment.tag = some tag ∧ codeFor tag segment.text = some code ∧
        absorbAfter codeFor previous segment = { segment with kind := .program, text := code } := by
  unfold absorbAfter
  split
  · rename_i tag tagged
    split
    · rename_i behindProgram
      simp only [isLiteral, Bool.and_eq_true, decide_eq_true_eq, Bool.not_eq_true',
        decide_eq_false_iff_not] at behindProgram
      obtain ⟨⟨literal, notLiteral⟩, sameTag⟩ := behindProgram
      split
      · rename_i code written
        refine .inr ⟨tag, code, literal, ?_, sameTag, tagged, written, rfl⟩
        cases kind : previous.kind with
        | literal => exact absurd kind notLiteral
        | program => rfl
      · exact .inl rfl
    · exact .inl rfl
  · exact .inl rfl

theorem kind_of_absorbAfter {previous segment : RawSegment}
    (literal : (absorbAfter codeFor previous segment).kind = .literal) :
    segment.kind = .literal := by
  rcases absorbAfter_eq codeFor previous segment with unchanged |
    ⟨_, _, isLiteral, -⟩
  · rwa [unchanged] at literal
  · exact isLiteral

theorem separated_absorbFrom {before previous : RawSegment} {rest : List RawSegment}
    (kinds : previous.kind = .literal → before.kind = .literal)
    (separated : Separated (before :: rest)) :
    Separated (previous :: absorbFrom codeFor previous rest) := by
  induction rest generalizing before previous with
  | nil => exact .singleton _
  | cons next rest ih =>
      obtain ⟨apart, further⟩ := List.isChain_cons_cons.1 separated
      refine List.isChain_cons_cons.2 ⟨?_, ih kind_of_absorbAfter further⟩
      rintro ⟨literal, nextLiteral⟩
      exact apart ⟨kinds literal, kind_of_absorbAfter nextLiteral⟩

theorem separated_absorbLiterals {segments : List RawSegment} (separated : Separated segments) :
    Separated (absorbLiterals codeFor segments) := by
  cases segments with
  | nil => exact .nil
  | cons segment rest => exact separated_absorbFrom id separated

end DocumentHost.RawSegment
