import DocumentHost.Host.Compile
import DocumentHost.Mini.Language
import DocumentHost.Proofs.Segment.Passes
import Mathlib.Data.List.SplitBy

/-!
# The normal form of merged segments

The joining pass makes one segment of each maximal run of neighbours that are both literal
or programs with equal tags.  In the outcome of all passes no two neighbours are left that
could be joined, and no literal that could be absorbed by the program before it; on such
segments the passes change nothing.
-/

namespace DocumentHost.RawSegment

/-! ## Runs -/

/-- Both segments are literal, or both are programs and have equal tags. -/
def Alike (segment next : RawSegment) : Prop :=
  segment.kind = .literal ∧ next.kind = .literal ∨
    segment.kind = .program ∧ next.kind = .program ∧ segment.tag = next.tag

/-- The segments in runs of alike neighbours, each as long as it can be. -/
structure MaximalRuns (segments : List RawSegment) (runs : List (List RawSegment)) : Prop where
  together : segments = runs.flatten
  nonempty : [] ∉ runs
  alike : ∀ run ∈ runs, run.IsChain Alike
  /-- The next run cannot be taken in. -/
  apart : runs.IsChain fun run next =>
    ∃ filled nextFilled, ¬(run.getLast filled).Alike (next.head nextFilled)

/-- A run as one segment: the text of all its pieces, the rest from the last of them. -/
def Merges (run : List RawSegment) (segment : RawSegment) : Prop :=
  ∃ last, run.getLast? = some last ∧
    segment = { last with text := String.join (run.map RawSegment.text) }

theorem joins_eq_true_iff {segment next : RawSegment} :
    segment.joins next = true ↔ segment.Alike next := by
  cases kind : segment.kind <;> cases nextKind : next.kind <;>
    simp [joins, Alike, isLiteral, kind, nextKind]

theorem splitBy_joins_eq_iff {segments : List RawSegment} {runs : List (List RawSegment)} :
    segments.splitBy joins = runs ↔ MaximalRuns segments runs := by
  simp only [List.splitBy_eq_iff, joins_eq_true_iff, ← Bool.not_eq_true]
  exact ⟨fun ⟨together, nonempty, alike, apart⟩ => ⟨together, nonempty, alike, apart⟩,
    fun ⟨together, nonempty, alike, apart⟩ => ⟨together, nonempty, alike, apart⟩⟩

/-- Whether a segment is alike to another is the same when it has been joined to what stands
before it. -/
theorem alike_join_iff (segment next other : RawSegment) :
    (segment.join next).Alike other ↔ next.Alike other :=
  Iff.rfl

theorem merges_singleton (segment : RawSegment) : Merges [segment] segment := by
  simp [Merges, String.join]

/-- The first two pieces of a run can be joined before the rest. -/
theorem Merges.cons {segment next kept : RawSegment} {run : List RawSegment}
    (merges : Merges (segment.join next :: run) kept) : Merges (segment :: next :: run) kept := by
  obtain ⟨last, isLast, rfl⟩ := merges
  cases run with
  | nil =>
      obtain rfl := Option.some.inj isLast
      refine ⟨next, rfl, ?_⟩
      simp [join, String.join]
  | cons third run =>
      refine ⟨last, by simpa [List.getLast?_cons_cons] using isLast, ?_⟩
      simp [join, String.append_assoc]

theorem Alike.refl (segment : RawSegment) : segment.Alike segment := by
  cases kind : segment.kind <;> simp [Alike, kind]

theorem Alike.symm {segment next : RawSegment} (alike : segment.Alike next) :
    next.Alike segment := by
  rcases alike with ⟨literal, nextLiteral⟩ | ⟨program, nextProgram, sameTag⟩
  · exact .inl ⟨nextLiteral, literal⟩
  · exact .inr ⟨nextProgram, program, sameTag.symm⟩

theorem Alike.trans {first second third : RawSegment} (alike : first.Alike second)
    (further : second.Alike third) : first.Alike third := by
  rcases alike with ⟨literal, _⟩ | ⟨program, isProgram, sameTag⟩ <;>
    rcases further with ⟨_, otherLiteral⟩ | ⟨_, otherProgram, otherTag⟩ <;>
    simp_all [Alike]

/-- A maximal run becomes one segment.  By induction on the run; what has been joined so far is
alike to what follows just when its last piece is. -/
theorem exists_merges_of_joinRunsFrom {segment : RawSegment} {run rest : List RawSegment}
    (alike : (segment :: run).IsChain Alike)
    (apart : ∀ next ∈ rest.head?, ¬((segment :: run).getLast (by simp)).Alike next) :
    ∃ kept, Merges (segment :: run) kept ∧
      segment.joinRunsFrom (run ++ rest) = kept :: joinRuns rest := by
  induction run generalizing segment with
  | nil =>
      refine ⟨segment, merges_singleton segment, ?_⟩
      cases rest with
      | nil => rfl
      | cons next rest =>
          have differs : ¬segment.joins next = true := by
            rw [joins_eq_true_iff]
            exact apart next rfl
          rw [List.nil_append, joinRunsFrom, if_neg differs]
          rfl
  | cons next run ih =>
      obtain ⟨first, further⟩ := List.isChain_cons_cons.1 alike
      have joined : (segment.join next :: run).IsChain Alike :=
        further.imp_head (alike_join_iff segment next _).2
      have stillApart : ∀ other ∈ rest.head?,
          ¬((segment.join next :: run).getLast (by simp)).Alike other := by
        cases run with
        | nil => exact apart
        | cons third run => simpa using apart
      obtain ⟨kept, merges, outcome⟩ := ih joined stillApart
      refine ⟨kept, merges.cons, ?_⟩
      rw [List.cons_append, joinRunsFrom, if_pos (joins_eq_true_iff.2 first), outcome]

/-- The joining pass makes each maximal run one segment, in order. -/
theorem MaximalRuns.forall₂_merges {segments : List RawSegment} {runs : List (List RawSegment)}
    (maximal : MaximalRuns segments runs) : List.Forall₂ Merges runs (joinRuns segments) := by
  obtain ⟨rfl, nonempty, alike, apart⟩ := maximal
  induction runs with
  | nil => exact .nil
  | cons run runs ih =>
      obtain ⟨first, others, rfl⟩ := List.exists_cons_of_ne_nil (l := run) (by
        rintro rfl
        simp at nonempty)
      obtain ⟨isApart, apart⟩ := List.isChain_cons.1 apart
      have behind : ∀ next ∈ runs.flatten.head?,
          ¬((first :: others).getLast (by simp)).Alike next := by
        cases runs with
        | nil => nofun
        | cons next runs =>
            obtain ⟨_, nextFilled, differs⟩ := isApart next rfl
            intro other isFirst
            rw [List.flatten_cons, List.head?_append_of_ne_nil _ nextFilled,
              List.head?_eq_some_head nextFilled, Option.mem_some] at isFirst
            rwa [← isFirst]
      obtain ⟨kept, merges, outcome⟩ :=
        exists_merges_of_joinRunsFrom (alike _ (by simp)) behind
      rw [List.flatten_cons, List.cons_append, joinRuns, outcome]
      exact .cons merges (ih (by simp_all) (fun run member => alike run (by simp [member])) apart)

/-! ## Neighbours behind the passes -/

/-- The passes leave no two neighbours that can be joined. -/
def Reduced (segments : List RawSegment) : Prop :=
  segments.IsChain fun segment next => ¬segment.Alike next

/-- The code for a literal can take its place: it stands behind a program of its language. -/
def Absorbable (codeFor : String → String → Option String) (previous segment : RawSegment) :
    Prop :=
  previous.kind = .program ∧ segment.kind = .literal ∧
    ∃ tag, previous.tag = some tag ∧ segment.tag = some tag ∧ (codeFor tag segment.text).isSome

/-- No literal can be absorbed by the program before it. -/
def Unabsorbing (codeFor : String → String → Option String) (segments : List RawSegment) : Prop :=
  segments.IsChain fun previous segment => ¬Absorbable codeFor previous segment

theorem exists_head_joinRunsFrom (segment : RawSegment) (rest : List RawSegment) :
    ∃ first others, segment.joinRunsFrom rest = first :: others ∧ segment.Alike first := by
  induction rest generalizing segment with
  | nil => exact ⟨segment, [], rfl, .refl segment⟩
  | cons next rest ih =>
      rw [joinRunsFrom]
      split
      · rename_i joins
        obtain ⟨first, others, shape, alike⟩ := ih (segment.join next)
        exact ⟨first, others, shape, (joins_eq_true_iff.1 joins).trans alike⟩
      · exact ⟨segment, next.joinRunsFrom rest, rfl, .refl segment⟩

theorem reduced_joinRunsFrom (segment : RawSegment) (rest : List RawSegment) :
    Reduced (segment.joinRunsFrom rest) := by
  induction rest generalizing segment with
  | nil => exact .singleton _
  | cons next rest ih =>
      rw [joinRunsFrom]
      split
      · exact ih (segment.join next)
      · rename_i differs
        obtain ⟨first, others, shape, alike⟩ := exists_head_joinRunsFrom next rest
        have further := ih next
        rw [shape] at further ⊢
        refine List.isChain_cons_cons.2 ⟨fun alikeFirst => differs ?_, further⟩
        exact joins_eq_true_iff.2 (alikeFirst.trans alike.symm)

theorem reduced_joinRuns (segments : List RawSegment) : Reduced (joinRuns segments) := by
  cases segments with
  | nil => exact .nil
  | cons segment rest => exact reduced_joinRunsFrom segment rest

theorem Reduced.joinRuns_eq {segments : List RawSegment} (reduced : Reduced segments) :
    joinRuns segments = segments := by
  cases segments with
  | nil => rfl
  | cons segment rest =>
      rw [joinRuns]
      induction rest generalizing segment with
      | nil => rfl
      | cons next rest ih =>
          obtain ⟨differs, further⟩ := List.isChain_cons_cons.1 reduced
          rw [joinRunsFrom, if_neg (joins_eq_true_iff.not.2 differs), ih next further]

section Absorbing

variable {codeFor : String → String → Option String}

theorem absorbable_join_iff (segment next other : RawSegment) :
    Absorbable codeFor (segment.join next) other ↔ Absorbable codeFor next other :=
  Iff.rfl

theorem absorbAfter_of_not_absorbable {previous segment : RawSegment}
    (stays : ¬Absorbable codeFor previous segment) :
    absorbAfter codeFor previous segment = segment := by
  rcases absorbAfter_eq codeFor previous segment with same | ⟨tag, code, literal, program,
    previousTag, segmentTag, written, -⟩
  · exact same
  · exact absurd ⟨program, literal, tag, previousTag, segmentTag, by simp [written]⟩ stays

theorem not_absorbable_absorbAfter (previous segment : RawSegment) :
    ¬Absorbable codeFor previous (absorbAfter codeFor previous segment) := by
  rcases absorbAfter_eq codeFor previous segment with same | ⟨_, _, _, _, _, _, _, absorbed⟩
  · rintro ⟨program, literal, tag, previousTag, segmentTag, written⟩
    rw [same] at segmentTag literal written
    obtain ⟨code, written⟩ := Option.isSome_iff_exists.1 written
    have absorbed : absorbAfter codeFor previous segment =
        { segment with kind := .program, text := code } := by
      simp [absorbAfter, isLiteral, program, literal, previousTag, segmentTag, written]
    rw [absorbed] at same
    rw [← same] at literal
    cases literal
  · rw [absorbed]
    rintro ⟨_, literal, _⟩
    cases literal

theorem unabsorbing_absorbFrom (previous : RawSegment) (rest : List RawSegment) :
    Unabsorbing codeFor (previous :: absorbFrom codeFor previous rest) := by
  induction rest generalizing previous with
  | nil => exact .singleton _
  | cons segment rest ih =>
      exact List.isChain_cons_cons.2 ⟨not_absorbable_absorbAfter previous segment, ih _⟩

theorem unabsorbing_absorbLiterals (segments : List RawSegment) :
    Unabsorbing codeFor (absorbLiterals codeFor segments) := by
  cases segments with
  | nil => exact .nil
  | cons segment rest => exact unabsorbing_absorbFrom segment rest

theorem Unabsorbing.absorbLiterals_eq {segments : List RawSegment}
    (unabsorbing : Unabsorbing codeFor segments) : absorbLiterals codeFor segments = segments := by
  cases segments with
  | nil => rfl
  | cons segment rest =>
      rw [absorbLiterals]
      congr 1
      induction rest generalizing segment with
      | nil => rfl
      | cons next rest ih =>
          obtain ⟨stays, further⟩ := List.isChain_cons_cons.1 unabsorbing
          rw [absorbFrom, absorbAfter_of_not_absorbable stays, ih next further]

/-- A literal with no literal behind it stays as it is in the joining pass. -/
theorem exists_joinRunsFrom_of_literal {segment : RawSegment} {rest : List RawSegment}
    (literal : segment.kind = .literal) (separated : Separated (segment :: rest)) :
    ∃ others, segment.joinRunsFrom rest = segment :: others := by
  cases rest with
  | nil => exact ⟨[], rfl⟩
  | cons next rest =>
      have differs : ¬segment.joins next = true := by
        rw [joins_eq_true_iff]
        rintro (literals | ⟨program, _⟩)
        · exact (List.isChain_cons_cons.1 separated).1 literals
        · rw [literal] at program
          cases program
      exact ⟨_, by rw [joinRunsFrom, if_neg differs]⟩

theorem Separated.join {segment next : RawSegment} {rest : List RawSegment}
    (separated : Separated (next :: rest)) : Separated (segment.join next :: rest) := by
  cases rest with
  | nil => exact .singleton _
  | cons third rest => exact List.isChain_cons_cons.2 (List.isChain_cons_cons.1 separated)

/-- Joining makes no literal absorbable, for no literal is made, and a joined program has the tag
of its last piece. -/
theorem Unabsorbing.joinRunsFrom {segment : RawSegment} {rest : List RawSegment}
    (unabsorbing : Unabsorbing codeFor (segment :: rest))
    (separated : Separated (segment :: rest)) :
    Unabsorbing codeFor (segment.joinRunsFrom rest) := by
  induction rest generalizing segment with
  | nil => exact .singleton _
  | cons next rest ih =>
      obtain ⟨stays, further⟩ := List.isChain_cons_cons.1 unabsorbing
      have separatedBehind := (List.isChain_cons_cons.1 separated).2
      rw [RawSegment.joinRunsFrom]
      split
      · exact ih (further.imp_head (absorbable_join_iff segment next _).not.2)
          (Separated.join separatedBehind)
      · have behind := ih further separatedBehind
        obtain ⟨first, others, shape, alike⟩ := exists_head_joinRunsFrom next rest
        rw [shape] at behind ⊢
        refine List.isChain_cons_cons.2 ⟨fun absorbable => stays ?_, behind⟩
        -- A literal to be absorbed has not been joined to anything, so it stood there before.
        have literal : next.kind = .literal := by
          rcases alike with ⟨literal, _⟩ | ⟨_, program, _⟩
          · exact literal
          · exact absurd absorbable.2.1 (by simp [program])
        obtain ⟨_, same⟩ := exists_joinRunsFrom_of_literal literal separatedBehind
        obtain ⟨rfl, _⟩ := List.cons.inj (shape.symm.trans same)
        exact absorbable

theorem Unabsorbing.joinRuns {segments : List RawSegment}
    (unabsorbing : Unabsorbing codeFor segments) (separated : Separated segments) :
    Unabsorbing codeFor (joinRuns segments) := by
  cases segments with
  | nil => exact .nil
  | cons segment rest => exact unabsorbing.joinRunsFrom separated

theorem reduced_normalize (codeFor : String → String → Option String)
    (segments : List RawSegment) : Reduced (normalize codeFor segments) :=
  reduced_joinRuns _

theorem unabsorbing_normalize (codeFor : String → String → Option String)
    (segments : List RawSegment) :
    Unabsorbing codeFor (normalize codeFor segments) :=
  (unabsorbing_absorbLiterals _).joinRuns (separated_absorbLiterals (separated_joinRuns segments))

/-- Segments of which no two can be joined and none absorbed stay as they are. -/
theorem normalize_eq_self {segments : List RawSegment} (reduced : Reduced segments)
    (unabsorbing : Unabsorbing codeFor segments) : normalize codeFor segments = segments := by
  rw [normalize, reduced.joinRuns_eq, unabsorbing.absorbLiterals_eq, reduced.joinRuns_eq]

theorem tag_of_mem_normalize (codeFor : String → String → Option String) {tag : Option String}
    {segments : List RawSegment}
    (tagged : ∀ segment ∈ segments, segment.tag = tag) :
    ∀ segment ∈ normalize codeFor segments, segment.tag = tag := by
  refine forall_joinRuns (fun _ _ _ next _ => next)
    (forall_absorbLiterals (fun previous segment _ own => ?_)
      (forall_joinRuns (fun _ _ _ next _ => next) tagged))
  rcases absorbAfter_eq codeFor previous segment with same | ⟨_, _, _, _, _, _, _, absorbed⟩
  · rwa [same]
  · rwa [absorbed]

theorem kinds_of_neighbours {tag : String} {segment next : RawSegment}
    (tagged : segment.tag = some tag) (nextTagged : next.tag = some tag)
    (printable : ∀ text, (codeFor tag text).isSome) (differs : ¬segment.Alike next)
    (stays : ¬Absorbable codeFor segment next) :
    segment.kind = .literal ∧ next.kind = .program := by
  cases kind : segment.kind <;> cases nextKind : next.kind
  · exact absurd (.inl ⟨kind, nextKind⟩) differs
  · exact ⟨rfl, rfl⟩
  · exact absurd ⟨kind, nextKind, tag, tagged, nextTagged, printable next.text⟩ stays
  · exact absurd (.inr ⟨kind, nextKind, tagged.trans nextTagged.symm⟩) differs

/-- If all segments are of one language, in which every literal can be printed, at most one
literal is left, and at most one program behind it. -/
theorem normalize_of_one_language {tag : String} {segments : List RawSegment}
    (tagged : ∀ segment ∈ segments, segment.tag = some tag)
    (printable : ∀ text, (codeFor tag text).isSome) :
    ∃ literals programs, normalize codeFor segments = literals ++ programs ∧
      literals.length ≤ 1 ∧ programs.length ≤ 1 ∧
      (∀ segment ∈ literals, segment.kind = .literal) ∧
      ∀ segment ∈ programs, segment.kind = .program := by
  have reduced := reduced_normalize codeFor segments
  have unabsorbing := unabsorbing_normalize codeFor segments
  have tags := tag_of_mem_normalize codeFor tagged
  generalize normalize codeFor segments = kept at reduced unabsorbing tags
  match kept with
  | [] => exact ⟨[], [], by simp⟩
  | [segment] =>
      cases kind : segment.kind with
      | literal => exact ⟨[segment], [], by simp [kind]⟩
      | program => exact ⟨[], [segment], by simp [kind]⟩
  | segment :: next :: rest =>
      obtain ⟨differs, reducedBehind⟩ := List.isChain_cons_cons.1 reduced
      obtain ⟨stays, unabsorbingBehind⟩ := List.isChain_cons_cons.1 unabsorbing
      obtain ⟨literal, program⟩ :=
        kinds_of_neighbours (tags _ (by simp)) (tags _ (by simp)) printable differs stays
      cases rest with
      | nil => exact ⟨[segment], [next], by simp [literal, program]⟩
      | cons third rest =>
          obtain ⟨nextLiteral, -⟩ :=
            kinds_of_neighbours (tags _ (by simp)) (tags _ (by simp)) printable
              (List.isChain_cons_cons.1 reducedBehind).1
              (List.isChain_cons_cons.1 unabsorbingBehind).1
          rw [program] at nextLiteral
          cases nextLiteral

end Absorbing

/-! ## Merging in a host -/

theorem codeForLiteral_eq_none_iff {world : World} {setting : Setting} {tag text : String} :
    world.codeForLiteral setting tag text = none ↔
      world.adapterForTag setting.registry tag = none ∨
        ∃ adapter, world.adapterForTag setting.registry tag = some adapter ∧
          (world.adapters.get adapter).adapter.codeForLiteral text = none := by
  rw [World.codeForLiteral]
  cases world.adapterForTag setting.registry tag <;> simp

/-- The joining pass makes each maximal run of alike neighbours one segment, and there is just
one way to tell the runs.  What the passes of a host leave has no alike neighbours, a
literal behind a program with the same tag only where the tag has no adapter or the adapter
no code for the literal, and is left as it is by the same passes.  So of one language in
which every literal can be printed there is left at most one literal, and then at most
one program. -/
theorem normalize_normalForm (world : World) (setting : Setting) (segments : List RawSegment) :
    (∃ runs, MaximalRuns segments runs ∧ List.Forall₂ Merges runs (joinRuns segments) ∧
      ∀ others, MaximalRuns segments others → others = runs) ∧
    (let kept := normalize (world.codeForLiteral setting) segments;
      kept.IsChain (fun segment next => ¬segment.Alike next) ∧
      kept.IsChain (fun segment next => segment.kind = .program → next.kind = .literal →
        ∀ tag, segment.tag = some tag → next.tag = some tag →
          world.adapterForTag setting.registry tag = none ∨
            ∃ adapter, world.adapterForTag setting.registry tag = some adapter ∧
              (world.adapters.get adapter).adapter.codeForLiteral next.text = none) ∧
      normalize (world.codeForLiteral setting) kept = kept ∧
      ∀ tag adapter, (∀ segment ∈ segments, segment.tag = some tag) →
        world.adapterForTag setting.registry tag = some adapter →
        (∀ text, ((world.adapters.get adapter).adapter.codeForLiteral text).isSome) →
        ∃ literals programs, kept = literals ++ programs ∧
          literals.length ≤ 1 ∧ programs.length ≤ 1 ∧
          (∀ segment ∈ literals, segment.kind = .literal) ∧
          ∀ segment ∈ programs, segment.kind = .program) := by
  have maximal := splitBy_joins_eq_iff.1 (rfl : segments.splitBy joins = _)
  have reduced := reduced_normalize (world.codeForLiteral setting) segments
  have unabsorbing := unabsorbing_normalize (world.codeForLiteral setting) segments
  refine ⟨⟨_, maximal, maximal.forall₂_merges, fun others other =>
    (splitBy_joins_eq_iff.2 other).symm⟩, reduced, ?_, normalize_eq_self reduced unabsorbing, ?_⟩
  · refine unabsorbing.imp fun segment next stays program literal tag tagged nextTagged => ?_
    rw [← codeForLiteral_eq_none_iff, ← Option.not_isSome_iff_eq_none]
    exact fun written => stays ⟨program, literal, tag, tagged, nextTagged, written⟩
  · intro tag adapter tagged resolved printable
    refine normalize_of_one_language tagged fun text => ?_
    rw [World.codeForLiteral, resolved]
    exact printable text

/-- A host whose only adapter is the standard one. -/
def printingHost : World where
  toLanguages := .of [{ adapter := Mini.standard, claimed := true }] [[⟨0⟩]]

def printingSetting : Setting where
  registry := ⟨0⟩
  sourced := false
  options := {}

/-- A program between two literals, with a further program. -/
def printedPieces : List RawSegment :=
  [.literal "A" (some "mini") ⟨1, 1⟩, .program "print 1;" (some "mini") ⟨1, 2⟩,
    .literal "B" (some "mini") ⟨1, 12⟩, .program "print 2;" (some "mini") ⟨1, 13⟩]

theorem normalize_normalForm_printed :
    (∀ segment ∈ printedPieces, segment.tag = some "mini") ∧
      printingHost.adapterForTag printingSetting.registry "mini" = some ⟨0⟩ ∧
      (∀ text, ((printingHost.adapters.get ⟨0⟩).adapter.codeForLiteral text).isSome) ∧
      normalize (printingHost.codeForLiteral printingSetting) printedPieces =
        [.literal "A" (some "mini") ⟨1, 1⟩,
          .program "print 1;print \"B\";print 2;" (some "mini") ⟨1, 13⟩] ∧
      ∃ literals programs,
        normalize (printingHost.codeForLiteral printingSetting) printedPieces =
          literals ++ programs ∧
        literals.length ≤ 1 ∧ programs.length ≤ 1 ∧
        (∀ segment ∈ literals, segment.kind = .literal) ∧
        ∀ segment ∈ programs, segment.kind = .program := by
  have tagged : ∀ segment ∈ printedPieces, segment.tag = some "mini" := by decide
  have resolved : printingHost.adapterForTag printingSetting.registry "mini" = some ⟨0⟩ := by
    decide
  have printable (text : String) :
      ((printingHost.adapters.get ⟨0⟩).adapter.codeForLiteral text).isSome := rfl
  refine ⟨tagged, resolved, printable, rfl, ?_⟩
  exact (normalize_normalForm printingHost printingSetting printedPieces).2.2.2.2 "mini" ⟨0⟩
    tagged resolved printable

end DocumentHost.RawSegment
