import DocumentHost.Proofs.Host.Agreement
import DocumentHost.Proofs.Language.MiniSegments
import DocumentHost.Proofs.Segment.Passes

/-!
# Compiling asks for tags

The compiler sees the languages of a host through its questions only: which adapter stands
for a tag, and which tag a document starts out with.  Where two states have the same adapters
and answer these questions alike, as far as they are asked, a document is taken apart to the
same segments in both.
-/

namespace DocumentHost

/-! ## The tags of segments -/

/-- The tag of a segment, if it has one, is of a kind. -/
def RawSegment.Names (asked : String → Prop) (segment : RawSegment) : Prop :=
  ∀ tag, segment.tag = some tag → asked tag

namespace RawSegment

variable {asked : String → Prop} {codeFor otherCodeFor : String → String → Option String}

theorem tag_absorbAfter (codeFor : String → String → Option String)
    (previous segment : RawSegment) : (absorbAfter codeFor previous segment).tag = segment.tag := by
  rcases absorbAfter_eq codeFor previous segment with same | ⟨_, _, -, -, -, -, -, turned⟩
  · rw [same]
  · rw [turned]

/-- Merging gives no segment a tag that none had. -/
theorem names_normalize {segments : List RawSegment}
    (names : ∀ segment ∈ segments, segment.Names asked) :
    ∀ segment ∈ normalize codeFor segments, segment.Names asked := by
  have joined (segment next : RawSegment) (_ : segment.Names asked) (nextNames : next.Names asked)
      (_ : segment.joins next = true) : (segment.join next).Names asked := nextNames
  refine forall_joinRuns joined (forall_absorbLiterals ?_ (forall_joinRuns joined names))
  intro previous segment _ segmentNames tag isTag
  exact segmentNames tag (tag_absorbAfter codeFor previous segment ▸ isTag)

theorem absorbAfter_congr
    (same : ∀ tag text, asked tag → codeFor tag text = otherCodeFor tag text)
    (previous : RawSegment) {segment : RawSegment} (names : segment.Names asked) :
    absorbAfter codeFor previous segment = absorbAfter otherCodeFor previous segment := by
  obtain ⟨kind, text, tag, position⟩ := segment
  cases tag with
  | none => rfl
  | some tag => simp only [absorbAfter, same tag text (names tag rfl)]

/-- By induction on the segments behind. -/
theorem absorbFrom_congr
    (same : ∀ tag text, asked tag → codeFor tag text = otherCodeFor tag text)
    (previous : RawSegment) {segments : List RawSegment}
    (names : ∀ segment ∈ segments, segment.Names asked) :
    absorbFrom codeFor previous segments = absorbFrom otherCodeFor previous segments := by
  induction segments generalizing previous with
  | nil => rfl
  | cons segment rest ih =>
      rw [absorbFrom, absorbFrom, absorbAfter_congr same previous (names segment (by simp)),
        ih _ fun next member => names next (List.mem_cons_of_mem _ member)]

/-- Merging asks for code in the languages of the segments only. -/
theorem normalize_congr
    (same : ∀ tag text, asked tag → codeFor tag text = otherCodeFor tag text)
    {segments : List RawSegment} (names : ∀ segment ∈ segments, segment.Names asked) :
    normalize codeFor segments = normalize otherCodeFor segments := by
  have joinedNames : ∀ segment ∈ joinRuns segments, segment.Names asked :=
    forall_joinRuns (fun _ _ _ nextNames _ => nextNames) names
  unfold normalize
  congr 1
  cases joined : joinRuns segments with
  | nil => rfl
  | cons segment rest =>
      rw [joined] at joinedNames
      rw [absorbLiterals, absorbLiterals, absorbFrom_congr same segment
        fun next member => joinedNames next (List.mem_cons_of_mem _ member)]

end RawSegment

/-- The tag that a scriptlet gives itself. -/
def Piece.ownTag? (markers : Markers) : Piece → Option String
  | .scriptlet body _ =>
      if (treatmentOf body markers.treatments).1 = .comment then none
      else (leadingTag (treatmentOf body markers.treatments).2).1.map String.ofList
  | _ => none

/-- Related states have the same adapters, and they answer alike when they are asked for the
adapter of a tag of a kind. -/
structure Answering (Related : World → World → Prop) (registry : RegistryId)
    (asked : String → Prop) : Prop where
  adapters : ∀ {world other}, Related world other → SameAdapters world other
  sourced : ∀ {world other}, Related world other → other.source.isNone = world.source.isNone
  answers : ∀ {world other}, Related world other → ∀ tag, asked tag →
    world.adapterForTag registry tag = other.adapterForTag registry tag
  noteAll : ∀ {world other} texts, Related world other →
    Related (world.noteAll texts) (other.noteAll texts)

/-- Related states let a document start out with the same tag, and it is one of a kind. -/
structure StartsAlike (Related : World → World → Prop) (setting : Setting) (document : Document)
    (asked : String → Prop) : Prop where
  same : ∀ {world other}, Related world other →
    other.initialTag setting document = world.initialTag setting document
  asked : ∀ {world other}, Related world other → ∀ tag,
    world.initialTag setting document = some tag → asked tag

/-- In-flow code starts out with the tag that it is compiled for. -/
theorem StartsAlike.inFlow {Related : World → World → Prop} {asked : String → Prop}
    (setting : Setting) (document : Document) {tag : String} (isAsked : asked tag) :
    StartsAlike Related (setting.forInFlow tag) document asked where
  same _ := rfl
  asked _ other isTag := by
    obtain rfl : tag = other := Option.some.inj isTag
    exact isAsked

namespace Answering

variable {Related : World → World → Prop} {registry : RegistryId} {setting : Setting}
  {asked : String → Prop}

theorem requireAdapter_agree (answering : Answering Related setting.registry asked)
    (place : Place) {tag : String} (isAsked : asked tag) :
    Agree Related (requireAdapter setting place tag) (requireAdapter setting place tag) := by
  intro world other related
  rw [AgreeFrom, World.eval_requireAdapter, World.eval_requireAdapter,
    answering.answers related tag isAsked]
  exact ⟨rfl, related⟩

theorem compileSegment_agree (answering : Answering Related setting.registry asked)
    (document : Document) (isScriptlet : Bool) {segment : RawSegment}
    (names : segment.Names asked) :
    Agree Related (compileSegment setting document isScriptlet segment)
      (compileSegment setting document isScriptlet segment) := by
  obtain ⟨kind, text, tag, position⟩ := segment
  cases kind with
  | literal => exact .pure _
  | program =>
      cases tag with
      | none => exact .throw _
      | some tag =>
          refine (answering.requireAdapter_agree _ (names tag rfl)).bind fun id => ?_
          refine .get fun world other related => ?_
          rw [(answering.adapters related).1]
          exact (Agree.ofReported _ fun _ _ => answering.noteAll _).bind (fun program => .pure _)
            _ _ related

/-- By induction on the segments. -/
theorem compileSegments_agree (answering : Answering Related setting.registry asked)
    (document : Document) (isScriptlet : Bool) {segments : List RawSegment}
    (names : ∀ segment ∈ segments, segment.Names asked) :
    Agree Related (compileSegments setting document isScriptlet segments)
      (compileSegments setting document isScriptlet segments) := by
  induction segments with
  | nil => exact .pure []
  | cons segment rest ih =>
      refine (answering.compileSegment_agree document isScriptlet (names segment (by simp))).bind
        fun compiled => ?_
      exact (ih fun next member => names next (List.mem_cons_of_mem _ member)).bind
        fun others => .pure _

/-- By induction on the segments. -/
theorem prepareSegments_agree (answering : Answering Related registry asked)
    (segments : List Segment) :
    Agree Related (prepareSegments segments) (prepareSegments segments) := by
  induction segments with
  | nil => exact .pure ()
  | cons segment rest ih =>
      cases segment with
      | literal => exact ih
      | program text tag position adapter program =>
          exact (Agree.ofReported _ fun _ _ => answering.noteAll _).bind fun _ => ih

theorem programSegments_agree (answering : Answering Related setting.registry asked)
    {document : Document} (starts : StartsAlike Related setting document asked) :
    Agree Related (programSegments setting document) (programSegments setting document) := by
  unfold programSegments
  refine .get fun world other related => ?_
  rw [starts.same related]
  refine answering.compileSegments_agree document false ?_ _ _ related
  rw [List.forall_mem_singleton]
  exact starts.asked related

theorem codeForInclude_agree (answering : Answering Related registry asked)
    (place : Place) (adapter : AdapterId) (expression : String) :
    Agree Related (codeForInclude place adapter expression)
      (codeForInclude place adapter expression) := by
  refine .get fun world other related => ?_
  simp only [requireCode, Languages.profile, (answering.adapters related).1]
  exact .ofExcept related _

theorem codeForExpression_agree (answering : Answering Related registry asked)
    (place : Place) (adapter : AdapterId) (expression : String) :
    Agree Related (codeForExpression place adapter expression)
      (codeForExpression place adapter expression) := by
  refine .get fun world other related => ?_
  simp only [requireCode, Languages.profile, (answering.adapters related).1]
  exact .ofExcept related _

/-! ## Scriptlets

What is left open here is how in-flow code gets into the source. -/

section Seeding

variable {document : Document}

theorem inFlowSegment_agree (answering : Answering Related setting.registry asked)
    (seeds : ∀ name code tag, asked tag →
      Agree Related (seedInFlow setting document name code tag)
        (seedInFlow setting document name code tag))
    {activeTag : Option String} (active : ∀ tag, activeTag = some tag → asked tag)
    (number : Nat) (code : String) {tag : String} (isAsked : asked tag) (position : Position) :
    Agree Related (inFlowSegment setting document activeTag number code tag position)
      (inFlowSegment setting document activeTag number code tag position) := by
  unfold inFlowSegment
  refine .get fun world other related => ?_
  rw [answering.sourced related]
  refine .ite Iff.rfl (fun _ => .throw related _) fun _ => ?_
  cases activeTag with
  | none => exact .throw related _
  | some activeTag =>
      refine ((answering.requireAdapter_agree _ (active activeTag rfl)).bind fun adapter => ?_)
        _ _ related
      refine (seeds _ code tag isAsked).bind fun _ => ?_
      exact (answering.codeForInclude_agree _ adapter _).bind fun text => .pure _

/-- The language of a scriptlet: the one it gives itself, or else the active one. -/
theorem asked_of_own {markers : Markers} {body : List Char} {position : Position}
    {activeTag : Option String} (active : ∀ tag, activeTag = some tag → asked tag)
    (own : ∀ tag, (Piece.scriptlet body position).ownTag? markers = some tag → asked tag)
    (noComment : (treatmentOf body markers.treatments).1 ≠ .comment) :
    ∀ tag, ((leadingTag (treatmentOf body markers.treatments).2).1.map String.ofList).or
      activeTag = some tag → asked tag := by
  intro tag isTag
  cases explicit : (leadingTag (treatmentOf body markers.treatments).2).1 with
  | none =>
      rw [explicit] at isTag
      exact active tag isTag
  | some chars =>
      rw [explicit] at isTag
      refine own tag ?_
      rw [Piece.ownTag?, if_neg noComment, explicit]
      exact isTag

theorem scriptletSegment_agree (answering : Answering Related setting.registry asked)
    (seeds : ∀ name code tag, asked tag →
      Agree Related (seedInFlow setting document name code tag)
        (seedInFlow setting document name code tag))
    {activeTag : Option String} (active : ∀ tag, activeTag = some tag → asked tag)
    (number : Nat) {body : List Char} {position : Position}
    (own : ∀ tag, (Piece.scriptlet body position).ownTag? setting.options.markers = some tag →
      asked tag) :
    Agree Related (scriptletSegment setting document activeTag number body position)
      (scriptletSegment setting document activeTag number body position) := by
  have ofTag := asked_of_own active own
  unfold scriptletSegment
  generalize treatmentOf body setting.options.markers.treatments = treated at ofTag ⊢
  obtain ⟨treatment, marked⟩ := treated
  intro world other related
  refine .ite Iff.rfl (fun _ => .pure related _) fun noComment => ?_
  have ofTag := ofTag noComment
  generalize leadingTag marked = led at ofTag ⊢
  obtain ⟨explicit, code⟩ := led
  dsimp only at ofTag ⊢
  cases isTag : (explicit.map String.ofList).or activeTag with
  | none => exact .throw related _
  | some tag =>
      have isAsked := ofTag tag isTag
      refine ((answering.requireAdapter_agree _ isAsked).bind fun adapter => ?_) _ _ related
      refine .get fun world other related => ?_
      rw [Languages.profile, Languages.profile, (answering.adapters related).1]
      cases treatment with
      | comment => exact .pure related _
      | code => exact .pure related _
      | expression =>
          exact (answering.codeForExpression_agree _ adapter _).bind (fun text => .pure _) _ _
            related
      | documentInclude =>
          exact (answering.codeForInclude_agree _ adapter _).bind (fun text => .pure _) _ _
            related
      | inFlow =>
          refine .ite Iff.rfl (fun _ => .pure related _) fun _ => ?_
          exact (answering.inFlowSegment_agree seeds active number _ isAsked position).bind
            (fun segment => .pure _) _ _ related

/-- In-flow code becomes an include in the active language. -/
theorem tag_of_inFlowSegment {activeTag : Option String} {number : Nat} {code tag : String}
    {position : Position} {segment : RawSegment} {world after : World}
    (done : (inFlowSegment setting document activeTag number code tag position).eval world =
      (.ok segment, after)) : segment.tag = activeTag := by
  unfold inFlowSegment at done
  rw [HostM.eval_bind_of_ok (HostM.eval_get _)] at done
  dsimp only at done
  split at done
  · cases done
  cases activeTag with
  | none => cases done
  | some active =>
      obtain ⟨adapter, _, -, rest⟩ := HostM.eval_bind_eq_ok_iff.1 done
      obtain ⟨_, _, -, rest⟩ := HostM.eval_bind_eq_ok_iff.1 rest
      obtain ⟨text, _, -, returned⟩ := HostM.eval_bind_eq_ok_iff.1 rest
      cases returned
      rfl

/-- The segment of a scriptlet, and the tag in effect behind it. -/
theorem tags_of_scriptletSegment {activeTag nextTag : Option String} {number : Nat}
    {body : List Char} {position : Position} {segment : Option RawSegment} {world after : World}
    (active : ∀ tag, activeTag = some tag → asked tag)
    (own : ∀ tag, (Piece.scriptlet body position).ownTag? setting.options.markers = some tag →
      asked tag)
    (done : (scriptletSegment setting document activeTag number body position).eval world =
      (.ok (segment, nextTag), after)) :
    (∀ raw, segment = some raw → raw.Names asked) ∧ ∀ tag, nextTag = some tag → asked tag := by
  have ofTag := asked_of_own active own
  unfold scriptletSegment at done
  generalize treatmentOf body setting.options.markers.treatments = treated at ofTag done
  obtain ⟨treatment, marked⟩ := treated
  dsimp only at ofTag done
  split at done
  · cases done
    exact ⟨nofun, active⟩
  rename_i noComment
  have ofTag := ofTag noComment
  generalize leadingTag marked = led at ofTag done
  obtain ⟨explicit, code⟩ := led
  dsimp only at ofTag done
  cases isTag : (explicit.map String.ofList).or activeTag with
  | none =>
      rw [isTag] at done
      cases done
  | some tag =>
      rw [isTag] at done
      have isAsked := ofTag tag isTag
      have names (text : String) (raw : RawSegment)
          (isRaw : some (RawSegment.program text (some tag) position) = some raw) :
          raw.Names asked := by
        cases isRaw
        intro other isOther
        cases isOther
        exact isAsked
      have next (sticks : Bool) (other : String)
          (isOther : (if sticks then some tag else activeTag) = some other) : asked other := by
        cases sticks with
        | true =>
            cases isOther
            exact isAsked
        | false => exact active other isOther
      obtain ⟨adapter, between, -, rest⟩ := HostM.eval_bind_eq_ok_iff.1 done
      rw [HostM.eval_bind_of_ok (HostM.eval_get _)] at rest
      cases treatment with
      | comment | code =>
          cases rest
          exact ⟨names _, next _⟩
      | expression | documentInclude =>
          obtain ⟨text, _, -, returned⟩ := HostM.eval_bind_eq_ok_iff.1 rest
          cases returned
          exact ⟨names _, next _⟩
      | inFlow =>
          dsimp only at rest
          split at rest
          · cases rest
            exact ⟨names _, next _⟩
          · obtain ⟨raw, _, made, returned⟩ := HostM.eval_bind_eq_ok_iff.1 rest
            cases returned
            refine ⟨fun given isGiven other isOther => ?_, next _⟩
            cases isGiven
            exact active other ((tag_of_inFlowSegment made).symm.trans isOther)

/-- By induction on the pieces. -/
theorem segmentsOfPieces_names {closing : String} {pieces : List Piece} {tag : Option String}
    {number : Nat} (active : ∀ other, tag = some other → asked other)
    (own : ∀ piece ∈ pieces, ∀ other, piece.ownTag? setting.options.markers = some other →
      asked other) {world after : World} {segments : List RawSegment}
    (done : (segmentsOfPieces setting document closing tag number pieces).eval world =
      (.ok segments, after)) : ∀ segment ∈ segments, segment.Names asked := by
  induction pieces generalizing tag number world segments with
  | nil =>
      cases done
      exact nofun
  | cons piece rest ih =>
      have ownRest := fun next member => own next (List.mem_cons_of_mem piece member)
      cases piece with
      | literal text position =>
          obtain ⟨others, _, behind, returned⟩ := HostM.eval_bind_eq_ok_iff.1 done
          cases returned
          exact List.forall_mem_cons.2 ⟨active, ih active ownRest behind⟩
      | unclosed position => cases done
      | scriptlet body position =>
          obtain ⟨⟨segment, nextTag⟩, between, treated, behind⟩ := HostM.eval_bind_eq_ok_iff.1 done
          obtain ⟨names, nextAsked⟩ := tags_of_scriptletSegment active (own _ (by simp)) treated
          cases segment with
          | none => exact ih nextAsked ownRest behind
          | some segment =>
              obtain ⟨others, _, behind, returned⟩ := HostM.eval_bind_eq_ok_iff.1 behind
              cases returned
              exact List.forall_mem_cons.2 ⟨names segment rfl, ih nextAsked ownRest behind⟩

/-- By induction on the pieces. -/
theorem segmentsOfPieces_agree (answering : Answering Related setting.registry asked)
    (seeds : ∀ name code tag, asked tag →
      Agree Related (seedInFlow setting document name code tag)
        (seedInFlow setting document name code tag))
    (closing : String) {pieces : List Piece} {tag : Option String} (number : Nat)
    (active : ∀ other, tag = some other → asked other)
    (own : ∀ piece ∈ pieces, ∀ other, piece.ownTag? setting.options.markers = some other →
      asked other) :
    Agree Related (segmentsOfPieces setting document closing tag number pieces)
      (segmentsOfPieces setting document closing tag number pieces) := by
  induction pieces generalizing tag number with
  | nil => exact .pure []
  | cons piece rest ih =>
      have ownRest := fun next member => own next (List.mem_cons_of_mem piece member)
      cases piece with
      | literal text position =>
          exact (ih (number + 1) active ownRest).bind fun others => .pure _
      | unclosed position => exact .throw _
      | scriptlet body position =>
          unfold segmentsOfPieces
          refine (answering.scriptletSegment_agree seeds active number
            (own _ (by simp))).bind_giving (fun _ _ _ outcome succeeded =>
              tags_of_scriptletSegment active (own _ (by simp)) (Prod.ext succeeded rfl)) ?_
          rintro ⟨_ | segment, nextTag⟩ ⟨-, nextAsked⟩
          · exact ih number nextAsked ownRest
          · exact (ih (number + 1) nextAsked ownRest).bind fun others => .pure _

/-- The scriptlets of a document that give themselves a tag give themselves one of a kind. -/
def Owns (asked : String → Prop) (options : CompileOptions) (document : Document) : Prop :=
  ∀ fence, Fence.ofDocument? options.delimiters document.text.toList = some fence →
    ∀ piece ∈ Piece.cut fence document.text.toList .start, ∀ tag,
      piece.ownTag? options.markers = some tag → asked tag

theorem splitDocument_agree (answering : Answering Related setting.registry asked)
    (seeds : ∀ name code tag, asked tag →
      Agree Related (seedInFlow setting document name code tag)
        (seedInFlow setting document name code tag))
    (starts : StartsAlike Related setting document asked)
    (owns : Owns asked setting.options document) :
    Agree Related (splitDocument setting document) (splitDocument setting document) := by
  unfold splitDocument
  refine .get fun world other related => ?_
  rw [starts.same related]
  dsimp only
  cases found : Fence.ofDocument? setting.options.delimiters document.text.toList with
  | none => exact .pure related _
  | some fence =>
      exact answering.segmentsOfPieces_agree seeds _ 0 (starts.asked related) (owns fence found)
        _ _ related

theorem splitDocument_names (starts : StartsAlike Related setting document asked)
    (owns : Owns asked setting.options document) :
    Gives Related (fun segments => ∀ segment ∈ segments, RawSegment.Names asked segment)
      (splitDocument setting document) := by
  intro world other related segments succeeded
  rw [splitDocument, HostM.eval_bind_of_ok (HostM.eval_get _)] at succeeded
  dsimp only at succeeded
  split at succeeded
  · cases succeeded
    exact List.forall_mem_singleton.2 (starts.asked related)
  · rename_i fence found
    exact segmentsOfPieces_names (starts.asked related) (owns fence found)
      (Prod.ext succeeded rfl)

theorem scriptletSegments_agree (answering : Answering Related setting.registry asked)
    (seeds : ∀ name code tag, asked tag →
      Agree Related (seedInFlow setting document name code tag)
        (seedInFlow setting document name code tag))
    (starts : StartsAlike Related setting document asked)
    (owns : Owns asked setting.options document) :
    Agree Related (scriptletSegments setting document) (scriptletSegments setting document) := by
  unfold scriptletSegments
  refine (answering.splitDocument_agree seeds starts owns).bind_giving
    (splitDocument_names starts owns) fun raw names => ?_
  refine .get fun world other related => ?_
  have sameCode (tag text : String) (isAsked : asked tag) :
      world.codeForLiteral setting tag text = other.codeForLiteral setting tag text := by
    rw [World.codeForLiteral, World.codeForLiteral, answering.answers related tag isAsked,
      (answering.adapters related).1]
  rw [← RawSegment.normalize_congr sameCode names]
  refine answering.compileSegments_agree document true ?_ _ _ related
  have merged : ∀ segment ∈ RawSegment.normalize (world.codeForLiteral setting) raw,
      segment.Names asked := RawSegment.names_normalize names
  split
  · split
    · exact names
    · exact merged
  · exact merged

end Seeding

end Answering

end DocumentHost
