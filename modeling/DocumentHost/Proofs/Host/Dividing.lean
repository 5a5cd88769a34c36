import DocumentHost.Proofs.Host.SplitParts

/-!
# Dividing a document

A document is split exactly along the delimiters that open first in it.  Its scriptlets are taken
in order; once they are all accepted, the segments are the literal stretches that are not empty,
with the programs of the scriptlets between them, each made from the body of its scriptlet.
-/

namespace DocumentHost

open HostM

/-- Answers that fit the scriptlets behind a place: nothing for a comment, and for every other body
one program, at the place of its opening, that carries the wording of the body.  A tag is in effect
there, which a scriptlet may change, and a number of segments stand in front. -/
inductive AnswersFor (world : World) (setting : Setting) (document : Document)
    (opening closing : List Char) :
    Option String → Nat → Position → List Stretch → List Answer → Prop where
  | nil {active : Option String} {number : Nat} {position : Position} :
      AnswersFor world setting document opening closing active number position [] []
  | comment {active : Option String} {number : Nat} {position : Position} {stretch : Stretch}
      {stretches : List Stretch} {answers : List Answer}
      (comment : setting.options.markers.IsComment stretch.body)
      (rest : AnswersFor world setting document opening closing active
        (number + literalCount stretch.literal)
        (position.after (stretch.joined opening closing)) stretches answers) :
      AnswersFor world setting document opening closing active number position
        (stretch :: stretches) ((none, active) :: answers)
  | program {active next : Option String} {number : Nat} {position : Position} {stretch : Stretch}
      {stretches : List Stretch} {program : RawSegment} {answers : List Answer}
      (noComment : ¬setting.options.markers.IsComment stretch.body)
      (kind : program.kind = .program) (place : program.position = position.after stretch.literal)
      (carries : world.Carries setting document active (number + literalCount stretch.literal)
        (setting.options.markers.wording stretch.body) program)
      (sticks : next =
        (world.stickingTag? setting (setting.options.markers.wording stretch.body)).or active)
      (rest : AnswersFor world setting document opening closing next
        (number + literalCount stretch.literal + 1)
        (position.after (stretch.joined opening closing)) stretches answers) :
      AnswersFor world setting document opening closing active number position
        (stretch :: stretches) ((some program, next) :: answers)

section

variable {origin world behind : World} {setting : Setting} {document : Document}
  {opening closing : List Char} {active : Option String} {number : Nat} {position : Position}
  {stretches : List Stretch} {answers : List Answer}

/-- By induction on the scriptlets.  None of them changes what a tag stands for. -/
theorem answersFor_of_acceptAll (same : World.SameTongue origin world)
    (accepted : (acceptAll setting document opening closing active number position
      stretches).eval world = (.ok answers, behind)) :
    AnswersFor origin setting document opening closing active number position stretches
      answers := by
  induction stretches generalizing active number position world answers with
  | nil =>
      cases accepted
      exact .nil
  | cons stretch rest ih =>
      rw [acceptAll] at accepted
      obtain ⟨⟨segment, next⟩, between, own, accepted⟩ := eval_bind_eq_ok_iff.1 accepted
      obtain ⟨others, after, further, returned⟩ := eval_bind_eq_ok_iff.1 accepted
      cases returned
      have fits := ih (same.trans (.of_scriptletSegment own)) further
      obtain ⟨sticks, answered⟩ := World.carries_of_scriptletSegment rfl own
      rw [same.stickingTag?] at sticks
      rcases answered with ⟨comment, rfl⟩ | ⟨noComment, program, rfl, kind, place, carries⟩
      · have untouched : next = active := by
          rw [sticks, World.stickingTag?, if_pos (.inl comment), Option.none_or]
        subst untouched
        exact .comment (treatmentOf_eq_comment_iff.1 comment) fits
      · exact .program (fun comment => noComment (treatmentOf_eq_comment_iff.2 comment)) kind place
          (same.carries carries) sticks fits

theorem filter_literalSegments (text : List Char) (tag : Option String) (position : Position) :
    (literalSegments text tag position).filter RawSegment.isLiteral =
      literalSegments text tag position ∧
    (literalSegments text tag position).filter (fun segment => !segment.isLiteral) = [] := by
  unfold literalSegments
  split <;> exact ⟨rfl, rfl⟩

theorem text_literalSegments (text : List Char) (tag : Option String) (position : Position) :
    (literalSegments text tag position).map RawSegment.text =
      ([text].filter fun literal => !literal.isEmpty).map String.ofList := by
  cases text <;> rfl

/-- The literals of an arrangement are the stretches that are not empty. -/
theorem literals_arrange (last : List Char) (tag : Option String)
    (fits : AnswersFor world setting document opening closing active number position stretches
      answers) :
    ((arrange opening closing last tag position stretches answers).filter
        RawSegment.isLiteral).map RawSegment.text =
      ((stretches.map Stretch.literal ++ [last]).filter fun literal =>
        !literal.isEmpty).map String.ofList := by
  induction fits generalizing tag with
  | nil => rw [arrange_nil, (filter_literalSegments _ _ _).1, text_literalSegments, List.map_nil,
      List.nil_append]
  | comment _ _ ih =>
      rw [arrange, List.filter_append, List.map_append, ih, Option.toList_none, List.append_nil,
        (filter_literalSegments _ _ _).1, text_literalSegments, ← List.map_append,
        ← List.filter_append]
      rfl
  | @program _ _ _ _ _ _ program _ _ kind _ _ _ _ ih =>
      have noLiteral : [program].filter RawSegment.isLiteral = [] := by
        simp [RawSegment.isLiteral, kind]
      rw [arrange, List.filter_append, List.map_append, ih, Option.toList_some,
        List.filter_append, noLiteral, List.append_nil, (filter_literalSegments _ _ _).1,
        text_literalSegments, ← List.map_append, ← List.filter_append]
      rfl

/-- The other segments of an arrangement are the programs of the answers. -/
theorem programs_arrange (last : List Char) (tag : Option String)
    (fits : AnswersFor world setting document opening closing active number position stretches
      answers) :
    (arrange opening closing last tag position stretches answers).filter
        (fun segment => !segment.isLiteral) =
      answers.filterMap Prod.fst := by
  induction fits generalizing tag with
  | nil => rw [arrange_nil, (filter_literalSegments _ _ _).2, List.filterMap_nil]
  | comment _ _ ih =>
      rw [arrange, List.filter_append, ih, Option.toList_none, List.append_nil,
        (filter_literalSegments _ _ _).2]
      rfl
  | @program _ _ _ _ _ _ program _ _ kind _ _ _ _ ih =>
      have kept : [program].filter (fun segment => !segment.isLiteral) = [program] := by
        simp [RawSegment.isLiteral, kind]
      rw [arrange, List.filter_append, ih, Option.toList_some, List.filter_append, kept,
        (filter_literalSegments _ _ _).2]
      rfl

end

/-- A document is split along a division.  The scriptlets of the division are taken in
order; the first that is refused ends the split with its refusal. -/
structure SplitAlong (setting : Setting) (document : Document) (world : World)
    (opening closing : List Char) (division : Division) : Prop where
  /-- Each non-empty literal stretch is a literal with exactly its text, and each body
  that is no comment is a program made from it. -/
  accepted : ∀ answers behind, division.unclosed = none →
    (acceptAll setting document opening closing (world.initialTag setting document) 0 .start
      division.stretches).eval world = (.ok answers, behind) →
    ∃ segments,
      (splitDocument setting document).eval world = (.ok segments, behind) ∧
      segments = arrange opening closing division.last (world.initialTag setting document) .start
        division.stretches answers ∧
      AnswersFor world setting document opening closing (world.initialTag setting document) 0 .start
        division.stretches answers ∧
      (segments.filter RawSegment.isLiteral).map RawSegment.text =
        (division.literals.filter fun literal => !literal.isEmpty).map String.ofList ∧
      segments.filter (fun segment => !segment.isLiteral) = answers.filterMap Prod.fst
  /-- An opening without a closing is an error at that opening. -/
  unclosed : ∀ answers behind inside, division.unclosed = some inside →
    (acceptAll setting document opening closing (world.initialTag setting document) 0 .start
      division.stretches).eval world = (.ok answers, behind) →
    (splitDocument setting document).eval world =
      (.error (.malformed
        (document.place (Position.start.after
          (division.closedPart opening closing ++ division.last)))
        ("unterminated scriptlet, expected '" ++ String.ofList closing ++ "'")), behind)
  refused : ∀ error behind,
    (acceptAll setting document opening closing (world.initialTag setting document) 0 .start
      division.stretches).eval world = (.error error, behind) →
    (splitDocument setting document).eval world = (.error error, behind)

theorem splitAlong_of_divides {setting : Setting} {document : Document} {world : World}
    {fence : Fence} {division : Division}
    (found : Fence.ofDocument? setting.options.delimiters document.text.toList = some fence)
    (divides : Divides fence.opening fence.closing document.text.toList division) :
    SplitAlong setting document world fence.opening fence.closing division := by
  have split := eval_splitDocument_of_divides found divides world
  dsimp only at split
  constructor
  · intro answers behind closed accepted
    rw [accepted] at split
    have fits := answersFor_of_acceptAll (.refl world) accepted
    refine ⟨_, ?_, rfl, fits, literals_arrange _ _ fits, programs_arrange _ _ fits⟩
    rw [split, outcomeAlong, closed]
    rfl
  · intro answers behind inside unclosed accepted
    rw [split, accepted, outcomeAlong, unclosed]
    rfl
  · intro error behind refused
    rw [split, refused, outcomeAlong]

/-- A document is split exactly along its delimiters.  If no usable pair opens in it, it
is one literal.  Otherwise one pair opens first, which divides the text in one way and
without loss, and the document is split along that division. -/
theorem splitDocument_along_delimiters (setting : Setting) (document : Document)
    (world : World) :
    ((∀ pair ∈ setting.options.delimiters, pair.Usable →
        ¬pair.opening.toList <:+: document.text.toList) →
      (splitDocument setting document).eval world =
        (.ok [.literal document.text (world.initialTag setting document) .start], world)) ∧
    ((∃ pair ∈ setting.options.delimiters, pair.Usable ∧
        pair.opening.toList <:+: document.text.toList) →
      ∃ front pair back before inside, setting.options.delimiters = front ++ pair :: back ∧
        OpensFirst document.text.toList front pair back before inside) ∧
    ∀ front pair back before inside, setting.options.delimiters = front ++ pair :: back →
      OpensFirst document.text.toList front pair back before inside →
      (∃! division, Divides pair.opening.toList pair.closing.toList document.text.toList
        division) ∧
      ∀ division,
        Divides pair.opening.toList pair.closing.toList document.text.toList division →
        division.joined pair.opening.toList pair.closing.toList = document.text.toList ∧
        SplitAlong setting document world pair.opening.toList pair.closing.toList division := by
  refine ⟨?_, ?_, ?_⟩
  · intro noOpening
    rw [splitDocument, eval_bind_of_ok (eval_get world)]
    dsimp only
    rw [Fence.ofDocument?_eq_none_iff.2 noOpening]
    rfl
  · rintro ⟨pair, member, usable, opens⟩
    cases found : Fence.foremost? document.text.toList
        (setting.options.delimiters.filterMap Fence.ofDelimiters?) with
    | none =>
        have missing : Fence.ofDocument? setting.options.delimiters document.text.toList = none := by
          rw [Fence.ofDocument?, found]
          rfl
        exact absurd opens (Fence.ofDocument?_eq_none_iff.1 missing pair member usable)
    | some result =>
        obtain ⟨front, pair, back, before, inside, among, -, -, opens⟩ :=
          Fence.exists_opensFirst found
        exact ⟨front, pair, back, before, inside, among, opens⟩
  · intro front pair back before inside among opens
    obtain ⟨fence, found, ofPair⟩ := Fence.ofDocument?_eq_some among opens
    obtain ⟨-, opening, closing⟩ := Fence.ofDelimiters?_eq_some ofPair
    rw [← opening, ← closing]
    refine ⟨existsUnique_divides fence.opening_ne_nil _ _, ?_⟩
    intro division divides
    exact ⟨divides.joined_eq, splitAlong_of_divides found divides⟩

end DocumentHost
