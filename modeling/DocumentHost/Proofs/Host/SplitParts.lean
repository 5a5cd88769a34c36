import DocumentHost.Proofs.Host.SideBySide
import DocumentHost.Proofs.Language.MiniSegments
import DocumentHost.Proofs.Segment.Parts
import DocumentHost.Proofs.Text.Position

/-!
# Splitting a document part by part

The tag of a scriptlet stays in effect behind it if the scriptlet is neither a comment nor
in-flow code and the tag stands for an adapter that is not ephemeral.  So the tag in effect at a
part of a document depends on the scriptlets in front of it, and a document is split into one
segment for each part, in the tag in effect there, unless one of its scriptlets is refused.
-/

namespace DocumentHost

open HostM

namespace World

/-! ## Tags in effect -/

/-- The adapter for a tag, if there is a tag. -/
def languageOf? (world : World) (setting : Setting) (tag : Option String) : Option Adapter :=
  (tag.bind (world.adapterForTag setting.registry)).map fun id =>
    (world.adapters.get id).adapter

/-- The tag that a scriptlet leaves in effect, if it changes it. -/
def stickingTag? (world : World) (setting : Setting) (wording : Wording) : Option String :=
  if wording.treatment = .comment ∨ wording.treatment = .inFlow then none
  else wording.tag.filter fun tag =>
    (world.languageOf? setting (some tag)).any fun adapter => !adapter.profile.ephemeral

/-- The tag in effect behind some scriptlets: the last one that sticks, or else the initial
one. -/
def tagInEffect (world : World) (setting : Setting) (document : Document)
    (earlier : List (List Char)) : Option String :=
  ((earlier.filterMap fun body =>
      world.stickingTag? setting (setting.options.markers.wording body)).getLast?).or
    (world.initialTag setting document)

variable {world between behind : World} {setting : Setting} {document : Document}

/-- A scriptlet in front of a place decides the tag there, unless its own does not stick. -/
theorem tagInEffect_concat (earlier : List (List Char)) (body : List Char) :
    world.tagInEffect setting document (earlier ++ [body]) =
      (world.stickingTag? setting (setting.options.markers.wording body)).or
        (world.tagInEffect setting document earlier) := by
  rw [tagInEffect, tagInEffect, List.filterMap_append, List.getLast?_append,
    List.filterMap_cons, List.filterMap_nil]
  cases world.stickingTag? setting (setting.options.markers.wording body) <;> simp

namespace SameTongue

/-- Treating a scriptlet does not change what a tag stands for. -/
theorem of_scriptletSegment {tag : Option String} {number : Nat} {body : List Char}
    {position : Position} {outcome : Except ParsingError (Option RawSegment × Option String)}
    (done : (scriptletSegment setting document tag number body position).eval world =
      (outcome, behind)) : SameTongue world behind := by
  have composing : Composing (SideBySide world world) setting.registry (fun _ => True)
      fun _ _ => True := SideBySide.composing (.refl world) fun _ _ => rfl
  have tongue : SameTongue world
      ((scriptletSegment setting document tag number body position).eval world).2 :=
    .of_agree (composing.answering.scriptletSegment_agree
      (fun name code tag isAsked => composing.seedInFlow_agree document name code isAsked)
      (fun _ _ => trivial) number fun _ _ => trivial)
  rwa [done] at tongue

theorem languageOf? (same : SameTongue world between) (setting : Setting) :
    between.languageOf? setting = world.languageOf? setting := by
  funext tag
  cases tag with
  | none => rfl
  | some tag =>
      simp only [World.languageOf?, Option.bind_some, same.adapterForTag, same.adapters.1]

end SameTongue

theorem languageOf?_of_adapterForTag {tag : String} {id : AdapterId}
    (found : world.adapterForTag setting.registry tag = some id) :
    world.languageOf? setting (some tag) = some (world.adapters.get id).adapter := by
  rw [languageOf?, Option.bind_some, found]
  rfl

theorem bind_languageOf? {tag : String} {id : AdapterId}
    (found : world.adapterForTag setting.registry tag = some id)
    (generate : Adapter → Option String) :
    (world.languageOf? setting (some tag)).bind generate =
      generate (world.adapters.get id).adapter := by
  rw [languageOf?_of_adapterForTag found, Option.bind_some]

/-! ## What a scriptlet becomes -/

/-- The segment of a scriptlet where a tag is in effect. -/
structure Carries (world : World) (setting : Setting) (document : Document)
    (active : Option String) (number : Nat) (wording : Wording) (segment : RawSegment) :
    Prop where
  /-- Without a tag of its own a scriptlet has the one in effect; there is one. -/
  untagged : wording.tag = none → active.isSome ∧ segment.tag = active
  tagged : ∀ tag, wording.tag = some tag → wording.treatment ≠ .inFlow → segment.tag = some tag
  /-- In-flow code has the tag in effect, whatever its own is. -/
  inFlow : wording.treatment = .inFlow → active.isSome ∧ segment.tag = active
  plain : wording.treatment = .code → segment.text = wording.code
  expression : wording.treatment = .expression →
    (world.languageOf? setting segment.tag).bind
      (fun adapter => adapter.codeForExpression wording.code) = some segment.text
  documentInclude : wording.treatment = .documentInclude →
    (world.languageOf? setting segment.tag).bind
      (fun adapter => adapter.codeForInclude wording.code) = some segment.text
  /-- In-flow code in the language in effect stays where it is. -/
  inline : wording.treatment = .inFlow → wording.tag.or active = active →
    segment.text = wording.code
  /-- Other in-flow code is included under its name, by code in the language in effect. -/
  included : wording.treatment = .inFlow → wording.tag.or active ≠ active →
    (world.languageOf? setting active).bind (fun adapter =>
      adapter.codeForInclude ("\"" ++ inFlowDocumentName document number ++ "\"")) =
        some segment.text

theorem eq_some_of_requireCode {place : Place} {id : AdapterId} {kind : CodeKind}
    {code : Option String} {text : String}
    (required : requireCode world place id kind code = .ok text) : code = some text := by
  cases code with
  | none => cases required
  | some own =>
      cases required
      rfl

theorem eq_some_of_codeForExpression {place : Place} {id : AdapterId} {code text : String}
    (generated : (codeForExpression place id code).eval world = (.ok text, behind)) :
    (world.adapters.get id).adapter.codeForExpression code = some text := by
  rw [codeForExpression, eval_bind_of_ok (eval_get _), eval_ofExcept] at generated
  exact eq_some_of_requireCode (congrArg Prod.fst generated)

theorem eq_some_of_codeForInclude {place : Place} {id : AdapterId} {code text : String}
    (generated : (codeForInclude place id code).eval world = (.ok text, behind)) :
    (world.adapters.get id).adapter.codeForInclude code = some text := by
  rw [codeForInclude, eval_bind_of_ok (eval_get _), eval_ofExcept] at generated
  exact eq_some_of_requireCode (congrArg Prod.fst generated)

/-- In-flow code in another language is included by code in the one in effect. -/
theorem included_of_inFlowSegment {active : Option String} {number : Nat} {code tag : String}
    {position : Position} {segment : RawSegment}
    (accepted : (inFlowSegment setting document active number code tag position).eval world =
      (.ok segment, behind)) :
    active.isSome ∧ segment.kind = .program ∧ segment.tag = active ∧
      segment.position = position ∧
      (world.languageOf? setting active).bind (fun adapter =>
        adapter.codeForInclude ("\"" ++ inFlowDocumentName document number ++ "\"")) =
          some segment.text := by
  unfold inFlowSegment at accepted
  rw [eval_bind_of_ok (eval_get _)] at accepted
  dsimp only at accepted
  split at accepted
  · cases accepted
  cases active with
  | none => cases accepted
  | some tagInEffect =>
      obtain ⟨id, start, required, rest⟩ := eval_bind_eq_ok_iff.1 accepted
      obtain ⟨found, rfl⟩ := eval_requireAdapter_eq_ok_iff.1 required
      obtain ⟨_, between, seeds, rest⟩ := eval_bind_eq_ok_iff.1 rest
      obtain ⟨text, _, generated, returned⟩ := eval_bind_eq_ok_iff.1 rest
      cases returned
      have tongue : SameTongue start between := by
        have kept := SameTongue.seedInFlow setting document
          (inFlowDocumentName document number) code tag start
        rwa [seeds] at kept
      refine ⟨rfl, rfl, rfl, rfl, ?_⟩
      rw [bind_languageOf? found, tongue.adapters.1]
      exact eq_some_of_codeForInclude generated

/-- The tag in effect behind a scriptlet is its own if that sticks. -/
theorem or_stickingTag? {wording : Wording} {active : Option String} {tag : String}
    {id : AdapterId} (isTag : wording.tag.or active = some tag)
    (found : world.adapterForTag setting.registry tag = some id)
    (noComment : wording.treatment ≠ .comment) :
    (world.stickingTag? setting wording).or active =
      if wording.tag.isSome && wording.treatment != .inFlow && !(world.profile id).ephemeral then
        some tag
      else active := by
  obtain ⟨treatment, own, code⟩ := wording
  cases own with
  | none => simp [stickingTag?]
  | some own =>
      obtain rfl := Option.some.inj isTag
      have language : (world.adapters.get id).adapter.profile = world.profile id := rfl
      by_cases inFlow : treatment = .inFlow
      · simp [stickingTag?, inFlow]
      · cases ephemeral : (world.profile id).ephemeral <;>
          simp [stickingTag?, inFlow, noComment, languageOf?_of_adapterForTag found, language,
            ephemeral, Option.filter]

namespace Carries

variable {active : Option String} {number : Nat} {wording : Wording} {segment : RawSegment}

/-- Code that is not in-flow is in the tag of its own, or else in the one in effect. -/
theorem of_or_eq_some {tag text : String} {position : Position}
    (isTag : wording.tag.or active = some tag) (noInFlow : wording.treatment ≠ .inFlow)
    (plain : wording.treatment = .code → text = wording.code)
    (expression : wording.treatment = .expression →
      (world.languageOf? setting (some tag)).bind
        (fun adapter => adapter.codeForExpression wording.code) = some text)
    (documentInclude : wording.treatment = .documentInclude →
      (world.languageOf? setting (some tag)).bind
        (fun adapter => adapter.codeForInclude wording.code) = some text) :
    world.Carries setting document active number wording
      (.program text (some tag) position) where
  untagged untagged := by
    rw [untagged, Option.none_or] at isTag
    exact ⟨by simp [isTag], isTag.symm⟩
  tagged own isOwn _ := by
    rw [isOwn, Option.some_or] at isTag
    exact isTag.symm
  inFlow inFlow := absurd inFlow noInFlow
  plain := plain
  expression := expression
  documentInclude := documentInclude
  inline inFlow := absurd inFlow noInFlow
  included inFlow := absurd inFlow noInFlow

theorem of_inFlow (inFlow : wording.treatment = .inFlow) (isSome : active.isSome)
    (isActive : segment.tag = active)
    (inline : wording.tag.or active = active → segment.text = wording.code)
    (included : wording.tag.or active ≠ active →
      (world.languageOf? setting active).bind (fun adapter =>
        adapter.codeForInclude ("\"" ++ inFlowDocumentName document number ++ "\"")) =
          some segment.text) :
    world.Carries setting document active number wording segment where
  untagged _ := ⟨isSome, isActive⟩
  tagged _ _ other := absurd inFlow other
  inFlow _ := ⟨isSome, isActive⟩
  plain other := by simp [inFlow] at other
  expression other := by simp [inFlow] at other
  documentInclude other := by simp [inFlow] at other
  inline _ := inline
  included _ := included

end Carries

/-- A scriptlet that is accepted becomes a segment in its place, unless it is a comment, and
leaves the tag in effect that sticks. -/
theorem carries_of_scriptletSegment {active next : Option String} {number : Nat}
    {body : List Char} {position : Position} {answer : Option RawSegment} {wording : Wording}
    (isWording : setting.options.markers.wording body = wording)
    (accepted : (scriptletSegment setting document active number body position).eval world =
      (.ok (answer, next), behind)) :
    next = (world.stickingTag? setting wording).or active ∧
      (wording.treatment = .comment ∧ answer = none ∨
        wording.treatment ≠ .comment ∧ ∃ segment, answer = some segment ∧
          segment.kind = .program ∧ segment.position = position ∧
          world.Carries setting document active number wording segment) := by
  rw [scriptletSegment_eq, isWording] at accepted
  dsimp only at accepted
  split at accepted
  · rename_i comment
    cases accepted
    exact ⟨by simp [stickingTag?, comment], .inl ⟨comment, rfl⟩⟩
  rename_i noComment
  cases isTag : wording.tag.or active with
  | none =>
      rw [isTag] at accepted
      cases accepted
  | some tag =>
      rw [isTag] at accepted
      obtain ⟨id, start, required, rest⟩ := eval_bind_eq_ok_iff.1 accepted
      obtain ⟨found, rfl⟩ := eval_requireAdapter_eq_ok_iff.1 required
      rw [eval_bind_of_ok (eval_get _)] at rest
      rw [or_stickingTag? isTag found noComment]
      obtain ⟨treatment, own, code⟩ := wording
      cases treatment with
      | comment => exact absurd rfl noComment
      | code =>
          cases rest
          exact ⟨rfl, .inr ⟨noComment, _, rfl, rfl, rfl,
            .of_or_eq_some isTag nofun (fun _ => rfl) nofun nofun⟩⟩
      | expression =>
          obtain ⟨text, _, generated, returned⟩ := eval_bind_eq_ok_iff.1 rest
          cases returned
          have expression := (bind_languageOf? found fun adapter =>
            adapter.codeForExpression code).trans (eq_some_of_codeForExpression generated)
          exact ⟨rfl, .inr ⟨noComment, _, rfl, rfl, rfl,
            .of_or_eq_some isTag nofun nofun (fun _ => expression) nofun⟩⟩
      | documentInclude =>
          obtain ⟨text, _, generated, returned⟩ := eval_bind_eq_ok_iff.1 rest
          cases returned
          have documentInclude := (bind_languageOf? found fun adapter =>
            adapter.codeForInclude code).trans (eq_some_of_codeForInclude generated)
          exact ⟨rfl, .inr ⟨noComment, _, rfl, rfl, rfl,
            .of_or_eq_some isTag nofun nofun nofun fun _ => documentInclude⟩⟩
      | inFlow =>
          dsimp only at rest isTag
          by_cases same : active = some tag
          · rw [if_pos same] at rest
            cases rest
            exact ⟨rfl, .inr ⟨noComment, _, rfl, rfl, rfl,
              .of_inFlow rfl (by simp [same]) same.symm (fun _ => rfl)
                fun other => absurd (isTag.trans same.symm) other⟩⟩
          · rw [if_neg same] at rest
            obtain ⟨segment, _, done, returned⟩ := eval_bind_eq_ok_iff.1 rest
            cases returned
            obtain ⟨isSome, kind, isActive, place, included⟩ := included_of_inFlowSegment done
            exact ⟨rfl, .inr ⟨noComment, _, rfl, kind, place,
              .of_inFlow rfl isSome isActive
                (fun inline => absurd (inline.symm.trans isTag) same) fun _ => included⟩⟩

/-! ## The segments of parts -/

/-- A segment stands for a part of a document. -/
structure Renders (world : World) (setting : Setting) (document : Document) (part : Part)
    (segment : RawSegment) : Prop where
  kind : segment.kind = part.kind
  position : segment.position = .behind part.passed
  literal : part.kind = .literal → segment.text = String.ofList part.text ∧
    segment.tag = world.tagInEffect setting document part.earlier
  program : part.kind = .program →
    world.Carries setting document (world.tagInEffect setting document part.earlier) part.number
      (setting.options.markers.wording part.text) segment

namespace SameTongue

theorem stickingTag? (same : SameTongue world between) (setting : Setting) (wording : Wording) :
    between.stickingTag? setting wording = world.stickingTag? setting wording := by
  rw [World.stickingTag?, World.stickingTag?, same.languageOf?]

theorem carries (same : SameTongue world between) {active : Option String} {number : Nat}
    {wording : Wording} {segment : RawSegment}
    (carries : between.Carries setting document active number wording segment) :
    world.Carries setting document active number wording segment := by
  have languages := same.languageOf? setting
  exact
    { carries with
      expression := languages ▸ carries.expression
      documentInclude := languages ▸ carries.documentInclude
      included := languages ▸ carries.included }

end SameTongue

section

variable {origin : World} {opening closing last passed : List Char}
  {earlier : List (List Char)} {number : Nat}

theorem renders_literals (text : List Char) :
    List.Forall₂ (origin.Renders setting document) (Part.literals text passed earlier number)
      (literalSegments text (origin.tagInEffect setting document earlier)
        (.behind passed)) := by
  rw [Part.literals, literalSegments]
  split
  · exact .nil
  · exact .cons ⟨rfl, rfl, fun _ => ⟨rfl, rfl⟩, fun other => by cases other⟩ .nil

theorem length_literals (text : List Char) :
    (Part.literals text passed earlier number).length = literalCount text := by
  rw [Part.literals, literalCount]
  split <;> rfl

/-- A scriptlet that is accepted stands for its part, and leaves the tag in effect that the
scriptlets up to it make. -/
theorem renders_of_scriptletSegment (same : SameTongue origin world) {body : List Char}
    {answer : Option RawSegment} {next : Option String}
    (accepted : (scriptletSegment setting document (origin.tagInEffect setting document earlier)
      number body (.behind passed)).eval world = (.ok (answer, next), behind)) :
    next = origin.tagInEffect setting document (earlier ++ [body]) ∧
      List.Forall₂ (origin.Renders setting document)
        (Part.scriptlets setting.options.markers body passed earlier number) answer.toList := by
  obtain ⟨isNext, answered⟩ := carries_of_scriptletSegment rfl accepted
  rw [same.stickingTag?] at isNext
  refine ⟨by rw [isNext, tagInEffect_concat], ?_⟩
  rw [Part.scriptlets]
  rcases answered with ⟨comment, rfl⟩ | ⟨noComment, segment, rfl, kind, place, carries⟩
  · rw [if_pos comment]
    exact .nil
  · rw [if_neg noComment]
    refine .cons ⟨kind, place, fun other => ?_, fun _ => same.carries carries⟩ .nil
    cases other

/-- By induction on the stretches, with the tag in effect and the position computed from the
scriptlets and the text in front of each. -/
theorem renders_arrange {stretches : List Stretch} {answers : List Answer}
    (same : SameTongue origin world)
    (accepted : (acceptAll setting document opening closing
      (origin.tagInEffect setting document earlier) number (.behind passed) stretches).eval
        world = (.ok answers, behind)) :
    List.Forall₂ (origin.Renders setting document)
      (Division.partsBehind setting.options.markers opening closing last passed earlier number
        stretches)
      (arrange opening closing last (origin.tagInEffect setting document earlier)
        (.behind passed) stretches answers) := by
  induction stretches generalizing earlier number passed world answers with
  | nil =>
      rw [Division.partsBehind, arrange_nil]
      exact renders_literals last
  | cons stretch rest ih =>
      rw [acceptAll] at accepted
      obtain ⟨⟨answer, next⟩, between, own, accepted⟩ := eval_bind_eq_ok_iff.1 accepted
      obtain ⟨others, after, further, returned⟩ := eval_bind_eq_ok_iff.1 accepted
      cases returned
      dsimp only at further
      rw [← Position.behind_append] at own further
      obtain ⟨rfl, rendered⟩ := renders_of_scriptletSegment same own
      rw [Division.partsBehind, arrange, ← Position.behind_append, length_literals,
        rendered.length_eq]
      exact List.rel_append (List.rel_append (renders_literals stretch.literal) rendered)
        (ih (same.trans (.of_scriptletSegment own)) further)

/-- A scriptlet is refused where a document is split, in a state that answers as the one in
which the split began. -/
structure RefusesPart (origin : World) (setting : Setting) (document : Document) (part : Part)
    (between : World) (error : ParsingError) (behind : World) : Prop where
  kind : part.kind = .program
  tongue : SameTongue origin between
  refused : (scriptletSegment setting document
    (origin.tagInEffect setting document part.earlier) part.number part.text
      (.behind part.passed)).eval between = (.error error, behind)

/-- By induction on the stretches, up to the one that is refused.  A comment never is. -/
theorem refuses_of_acceptAll {stretches : List Stretch} {error : ParsingError}
    (same : SameTongue origin world)
    (refused : (acceptAll setting document opening closing
      (origin.tagInEffect setting document earlier) number (.behind passed) stretches).eval
        world = (.error error, behind)) :
    ∃ part ∈ Division.partsBehind setting.options.markers opening closing last passed earlier
      number stretches, ∃ between,
        origin.RefusesPart setting document part between error behind := by
  induction stretches generalizing earlier number passed world with
  | nil => cases refused
  | cons stretch rest ih =>
      rw [acceptAll] at refused
      rw [Division.partsBehind, length_literals]
      rcases eval_bind_eq_error_iff.1 refused with
        own | ⟨⟨answer, next⟩, between, own, others⟩
      · have noComment :
            (setting.options.markers.wording stretch.body).treatment ≠ .comment := by
          intro comment
          rw [scriptletSegment_eq, if_pos comment] at own
          cases own
        rw [← Position.behind_append] at own
        rw [Part.scriptlets, if_neg noComment]
        exact ⟨⟨.program, stretch.body, passed ++ stretch.literal, earlier,
          number + literalCount stretch.literal⟩, by simp, world, rfl, same, own⟩
      · rcases eval_bind_eq_error_iff.1 others with further | ⟨_, _, -, returned⟩
        · rw [← Position.behind_append] at own further
          obtain ⟨rfl, rendered⟩ := renders_of_scriptletSegment same own
          obtain ⟨part, member, refuses⟩ :=
            ih (same.trans (.of_scriptletSegment own)) further
          rw [rendered.length_eq]
          exact ⟨part, List.mem_append_right _ member, refuses⟩
        · cases returned

end

/-- A document that is split has one segment for each of its parts. -/
theorem renders_of_splitDocument {segments : List RawSegment}
    (split : (splitDocument setting document).eval world = (.ok segments, behind)) :
    ∃ parts, PartsOf setting.options document.text.toList parts ∧
      List.Forall₂ (world.Renders setting document) parts segments := by
  rcases whole_or_divided setting document world with
    ⟨partsOf, whole⟩ | ⟨pair, division, first, divides, along⟩
  · rw [whole] at split
    cases split
    refine ⟨_, partsOf, .cons ⟨rfl, rfl, fun _ => ⟨?_, rfl⟩, fun other => ?_⟩ .nil⟩
    · exact String.ofList_toList.symm
    · cases other
  · refine ⟨_, .divided first divides, ?_⟩
    rw [along] at split
    dsimp only at split
    rcases accepted : (acceptAll setting document pair.opening.toList pair.closing.toList
      (world.initialTag setting document) 0 .start division.stretches).eval world with
      ⟨error | answers, after⟩
    · rw [accepted] at split
      cases split
    · rw [accepted] at split
      dsimp only [outcomeAlong] at split
      split at split
      · cases split
      · cases split
        exact renders_arrange (.refl world) accepted

/-- A document that is not split has a scriptlet that is refused, or an opening behind all its
parts that nothing closes. -/
theorem refuses_of_splitDocument {error : ParsingError}
    (failed : (splitDocument setting document).eval world = (.error error, behind)) :
    (∃ parts, PartsOf setting.options document.text.toList parts ∧ ∃ part ∈ parts, ∃ between,
      world.RefusesPart setting document part between error behind) ∨
    ∃ pair passed inside, LeftOpen setting.options document.text.toList pair passed inside ∧
      error = .malformed (document.place (.behind passed))
        ("unterminated scriptlet, expected '" ++ pair.closing ++ "'") := by
  rcases whole_or_divided setting document world with
    ⟨-, whole⟩ | ⟨pair, division, first, divides, along⟩
  · rw [whole] at failed
    cases failed
  · rw [along] at failed
    dsimp only at failed
    rcases accepted : (acceptAll setting document pair.opening.toList pair.closing.toList
      (world.initialTag setting document) 0 .start division.stretches).eval world with
      ⟨refusal | answers, after⟩
    · rw [accepted] at failed
      cases failed
      exact .inl ⟨_, .divided first divides, refuses_of_acceptAll (.refl world) accepted⟩
    · rw [accepted] at failed
      dsimp only [outcomeAlong] at failed
      cases closed : division.unclosed with
      | none =>
          rw [closed] at failed
          cases failed
      | some inside =>
          rw [closed] at failed
          cases failed
          refine .inr ⟨pair, _, inside, ⟨first, ⟨division, divides, closed, rfl⟩, ?_,
            divides.noClosing closed⟩, ?_⟩
          · rw [← divides.joined_eq, Division.joined, closed]
            simp
          · rw [Position.start_after, String.ofList_toList]

end World

end DocumentHost
