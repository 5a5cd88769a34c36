import DocumentHost.Proofs.Host.InFlow
import DocumentHost.Proofs.Host.SplitParts
import DocumentHost.Proofs.Segment.Tracking

/-!
# Positions are exact

A segment is at the place where its part stands in the document, and so is the error of a
scriptlet that is refused, unless the error comes from in-flow code that was compiled for it.
-/

namespace DocumentHost

open HostM World

/-- An error that a scriptlet at a place is refused with, other than one of in-flow code: there
is no adapter for a tag, or the adapter does not generate what is needed, or in-flow code has
nowhere to go. -/
inductive RefusedAt (document : Document) (position : Position) : ParsingError → Prop where
  | noAdapter (tag : String) :
      RefusedAt document position (.noAdapter (document.place position) tag)
  | unsupported (adapter : String) (code : CodeKind) :
      RefusedAt document position (.unsupported (document.place position) adapter code)
  | needsSource : RefusedAt document position (.needsSource document.name)

namespace RefusedAt

variable {setting : Setting} {document : Document} {position : Position} {error : ParsingError}
  {world behind : World}

theorem of_requireAdapter {tag : String}
    (failed : (requireAdapter setting (document.place position) tag).eval world =
      (.error error, behind)) : RefusedAt document position error := by
  rw [eval_requireAdapter] at failed
  cases found : world.adapterForTag setting.registry tag with
  | none =>
      rw [found] at failed
      cases failed
      exact .noAdapter tag
  | some id =>
      rw [found] at failed
      cases failed

theorem of_requireCode {id : AdapterId} {kind : CodeKind} {code : Option String}
    (failed : requireCode world (document.place position) id kind code = .error error) :
    RefusedAt document position error := by
  cases code with
  | none =>
      cases failed
      exact .unsupported _ _
  | some text => cases failed

theorem of_codeForExpression {id : AdapterId} {code : String}
    (failed : (codeForExpression (document.place position) id code).eval world =
      (.error error, behind)) : RefusedAt document position error := by
  rw [codeForExpression, eval_bind_of_ok (eval_get _), eval_ofExcept] at failed
  exact of_requireCode (congrArg Prod.fst failed)

theorem of_codeForInclude {id : AdapterId} {code : String}
    (failed : (codeForInclude (document.place position) id code).eval world =
      (.error error, behind)) : RefusedAt document position error := by
  rw [codeForInclude, eval_bind_of_ok (eval_get _), eval_ofExcept] at failed
  exact of_requireCode (congrArg Prod.fst failed)

/-- In-flow code is refused in its place, or cannot be compiled and put into the source. -/
theorem of_inFlowSegment {active : Option String} {number : Nat} {code tag : String}
    (failed : (inFlowSegment setting document active number code tag position).eval world =
      (.error error, behind)) :
    RefusedAt document position error ∨
      (seedInFlow setting document (inFlowDocumentName document number) code tag).eval world =
        (.error error, behind) := by
  unfold inFlowSegment at failed
  rw [eval_bind_of_ok (eval_get _)] at failed
  dsimp only at failed
  split at failed
  · cases failed
    exact .inl .needsSource
  cases active with
  | none =>
      cases failed
      exact .inl (.noAdapter "")
  | some active =>
      rcases eval_bind_eq_error_iff.1 failed with required | ⟨id, between, required, rest⟩
      · exact .inl (.of_requireAdapter required)
      obtain ⟨-, rfl⟩ := eval_requireAdapter_eq_ok_iff.1 required
      rcases eval_bind_eq_error_iff.1 rest with seeds | ⟨_, _, -, rest⟩
      · exact .inr seeds
      rcases eval_bind_eq_error_iff.1 rest with generated | ⟨_, _, -, returned⟩
      · exact .inl (.of_codeForInclude generated)
      · cases returned

/-- A scriptlet is refused in its place, or its in-flow code cannot be compiled and put into the
source. -/
theorem of_scriptletSegment {active : Option String} {number : Nat} {body : List Char}
    (failed : (scriptletSegment setting document active number body position).eval world =
      (.error error, behind)) :
    RefusedAt document position error ∨
      ∃ code, inFlowCode? setting.options.markers active number body = some code ∧
        (seedInFlow setting document (code.name document) code.text code.language).eval world =
          (.error error, behind) := by
  have isCode : inFlowCode? setting.options.markers active number body =
      let wording := setting.options.markers.wording body
      (wording.tag.or active).bind fun language =>
        if wording.treatment = .inFlow ∧ active ≠ some language then
          some ⟨number, language, wording.code⟩
        else none := by
    rw [inFlowCode?, Markers.wording]
    dsimp only
    cases (leadingTag (treatmentOf body setting.options.markers.treatments).2).1.map
      String.ofList <;> cases active <;> rfl
  rw [isCode]
  rw [scriptletSegment_eq] at failed
  generalize setting.options.markers.wording body = wording at failed
  obtain ⟨treatment, own, code⟩ := wording
  dsimp only at failed ⊢
  split at failed
  · cases failed
  cases isTag : own.or active with
  | none =>
      rw [isTag] at failed
      cases failed
      exact .inl (.noAdapter "")
  | some tag =>
      rw [isTag] at failed
      dsimp only at failed ⊢
      rcases eval_bind_eq_error_iff.1 failed with required | ⟨id, between, required, rest⟩
      · exact .inl (.of_requireAdapter required)
      obtain ⟨-, rfl⟩ := eval_requireAdapter_eq_ok_iff.1 required
      rw [eval_bind_of_ok (eval_get _)] at rest
      cases treatment with
      | comment | code => cases rest
      | expression =>
          rcases eval_bind_eq_error_iff.1 rest with generated | ⟨_, _, -, returned⟩
          · exact .inl (.of_codeForExpression generated)
          · cases returned
      | documentInclude =>
          rcases eval_bind_eq_error_iff.1 rest with generated | ⟨_, _, -, returned⟩
          · exact .inl (.of_codeForInclude generated)
          · cases returned
      | inFlow =>
          dsimp only at rest
          by_cases same : active = some tag
          · rw [if_pos same] at rest
            cases rest
          · rw [if_neg same] at rest
            rw [Option.bind_some, if_pos ⟨rfl, same⟩]
            rcases eval_bind_eq_error_iff.1 rest with inFlow | ⟨_, _, -, returned⟩
            · exact (of_inFlowSegment inFlow).imp_right fun seeds => ⟨_, rfl, seeds⟩
            · cases returned

end RefusedAt

/-- Positions are exact.  The tracker is never asked for what lies behind it, and gives the
pieces along which a document is split.  If it is split, each segment is at the place where its
part stands in the document.  If it is not, an opening that nothing closes is reported in its
place, or a scriptlet is refused in its place, or with an error from compiling and seeding its
in-flow code. -/
theorem positions_exact (setting : Setting) (document : Document) (world : World) :
    (∀ fence, Piece.track? fence document.text.toList 0 .start =
      some (Piece.cut fence document.text.toList .start)) ∧
    (∀ segments behind, (splitDocument setting document).eval world = (.ok segments, behind) →
      ∃ parts, PartsOf setting.options document.text.toList parts ∧
        (∀ part ∈ parts, part.StandsIn setting.options document.text.toList) ∧
        List.Forall₂
          (fun part segment =>
            segment.kind = part.kind ∧ segment.position = .behind part.passed ∧
              (part.kind = .literal → segment.text = String.ofList part.text))
          parts segments) ∧
    ∀ error behind, (splitDocument setting document).eval world = (.error error, behind) →
      (∃ pair passed inside, LeftOpen setting.options document.text.toList pair passed inside ∧
        error = .malformed (document.place (.behind passed))
          ("unterminated scriptlet, expected '" ++ pair.closing ++ "'")) ∨
      ∃ parts, PartsOf setting.options document.text.toList parts ∧
        ∃ part ∈ parts, part.kind = .program ∧
          part.StandsIn setting.options document.text.toList ∧
          (RefusedAt document (.behind part.passed) error ∨
            ∃ code between, SameTongue world between ∧
              inFlowCode? setting.options.markers
                (world.tagInEffect setting document part.earlier) part.number part.text =
                  some code ∧
              (seedInFlow setting document (code.name document) code.text code.language).eval
                between = (.error error, behind)) := by
  refine ⟨fun fence => Piece.track?_eq_cut fence _, ?_, ?_⟩
  · intro segments behind split
    obtain ⟨parts, partsOf, rendered⟩ := renders_of_splitDocument split
    refine ⟨parts, partsOf, partsOf.standsIn, rendered.imp fun part segment renders => ?_⟩
    exact ⟨renders.kind, renders.position, fun literal => (renders.literal literal).1⟩
  · intro error behind failed
    rcases refuses_of_splitDocument failed with
      ⟨parts, partsOf, part, member, between, refuses⟩ | unclosed
    · refine .inr ⟨parts, partsOf, part, member, refuses.kind, partsOf.standsIn part member, ?_⟩
      exact (RefusedAt.of_scriptletSegment refuses.refused).imp_right
        fun ⟨code, isCode, seeds⟩ => ⟨code, between, refuses.tongue, isCode, seeds⟩
    · exact .inl unclosed

end DocumentHost
