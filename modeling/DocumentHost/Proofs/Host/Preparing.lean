import DocumentHost.Proofs.Host.Checking

/-!
# Texts that are checked ahead

Programs can be checked when they are compiled, or when they are run.  A compilation that
checks them comes upon in-flow code first, each time before it is put into the source, and
upon the programs of the document last.  Up to the first text that is no program it gives what
the one gives that checks nothing; there it stops with the error with which the text would
fail if it were run.
-/

namespace DocumentHost

open World

open Mini (Parses FailsFirst firstMistake?)

/-! ## Two compilations side by side -/

/-- What a compilation comes to that checks some texts on its way, next to what one comes to
that checks none: the same as long as all texts are programs, and otherwise a mistake, unless
something else has failed before. -/
inductive Ahead {α : Type} (fragments : List Fragment) :
    (eager lazy : Except ParsingError α) → Prop where
  | done (sound : firstMistake? fragments = none) (value : α) :
      Ahead fragments (.ok value) (.ok value)
  | failed {failure : ParsingError} (plain : ∀ error, failure ≠ .preparation error) :
      Ahead fragments (.error failure) (.error failure)
  | stopped {error : PreparationError} (mistake : firstMistake? fragments = some error)
      (lazy : Except ParsingError α) : Ahead fragments (.error (.preparation error)) lazy

/-- Two compilations that go on side by side, the first checking some texts on its way. -/
structure AheadFrom {α : Type} (Related : α → World → World → Prop) (fragments : List Fragment)
    (world other : World) (eager lazy : HostM ParsingError α) : Prop where
  outcome : Ahead fragments (eager.eval world).1 (lazy.eval other).1
  related : ∀ value, (eager.eval world).1 = .ok value →
    Related value (eager.eval world).2 (lazy.eval other).2

section Side

variable {α β : Type} {fragments front behind : List Fragment} {world other : World}

theorem Ahead.of_ok {value : α} {lazy : Except ParsingError α}
    (ahead : Ahead fragments (.ok value) lazy) :
    firstMistake? fragments = none ∧ lazy = .ok value := by
  cases ahead with
  | done sound => exact ⟨sound, rfl⟩

/-- Texts that are programs make no difference. -/
theorem Ahead.passing {eager lazy : Except ParsingError α} (sound : firstMistake? front = none)
    (ahead : Ahead behind eager lazy) : Ahead (front ++ behind) eager lazy := by
  have same : firstMistake? (front ++ behind) = firstMistake? behind := by
    rw [Mini.firstMistake?_append, sound, Option.none_or]
  cases ahead with
  | done sound => exact .done (same.trans sound) _
  | failed plain => exact .failed plain
  | stopped mistake => exact .stopped (same.trans mistake) _

/-- What is done alike in both, and checks nothing. -/
theorem AheadFrom.of_agree {Related : World → World → Prop} {eager lazy : HostM ParsingError α}
    (agree : AgreeFrom Related world other eager lazy)
    (plain : ∀ error, (lazy.eval other).1 ≠ .error (.preparation error)) :
    AheadFrom (fun _ => Related) [] world other eager lazy := by
  obtain ⟨same, related⟩ := agree
  refine ⟨?_, fun _ _ => related⟩
  rw [same]
  cases outcome : (lazy.eval other).1 with
  | ok value => exact .done rfl value
  | error failure =>
      refine .failed fun error isPreparation => plain error ?_
      rw [outcome, isPreparation]

theorem AheadFrom.bind {Between : α → World → World → Prop} {Related : β → World → World → Prop}
    {eager lazy : HostM ParsingError α} {next otherNext : α → HostM ParsingError β}
    (first : AheadFrom Between front world other eager lazy)
    (nexts : ∀ value between otherBetween, lazy.eval other = (.ok value, otherBetween) →
      Between value between otherBetween →
      AheadFrom Related behind between otherBetween (next value) (otherNext value)) :
    AheadFrom Related (front ++ behind) world other (eager >>= next) (lazy >>= otherNext) := by
  obtain ⟨ahead, related⟩ := first
  rcases evaluated : eager.eval world with ⟨failure | value, between⟩
  · rcases otherEvaluated : lazy.eval other with ⟨outcome, otherBetween⟩
    rw [evaluated, otherEvaluated] at ahead
    refine ⟨?_, fun value given => ?_⟩
    · rw [HostM.eval_bind_of_error evaluated]
      cases ahead with
      | failed plain =>
          rw [HostM.eval_bind_of_error otherEvaluated]
          exact .failed plain
      | stopped mistake =>
          refine .stopped ?_ _
          rw [Mini.firstMistake?_append, mistake, Option.some_or]
    · rw [HostM.eval_bind_of_error evaluated] at given
      cases given
  · rw [evaluated] at ahead related
    obtain ⟨sound, succeeded⟩ := ahead.of_ok
    have otherEvaluated : lazy.eval other = (.ok value, (lazy.eval other).2) :=
      Prod.ext succeeded rfl
    obtain ⟨further, relatedBehind⟩ := nexts value between _ otherEvaluated (related value rfl)
    rw [← HostM.eval_bind_of_ok evaluated, ← HostM.eval_bind_of_ok otherEvaluated]
      at further relatedBehind
    exact ⟨further.passing sound, relatedBehind⟩

theorem AheadFrom.bind_agree {Between : World → World → Prop} {Related : β → World → World → Prop}
    {eager lazy : HostM ParsingError α} {next otherNext : α → HostM ParsingError β}
    (first : AgreeFrom Between world other eager lazy)
    (plain : ∀ error, (lazy.eval other).1 ≠ .error (.preparation error))
    (nexts : ∀ value between otherBetween, Between between otherBetween →
      AheadFrom Related behind between otherBetween (next value) (otherNext value)) :
    AheadFrom Related behind world other (eager >>= next) (lazy >>= otherNext) :=
  (AheadFrom.of_agree first plain).bind fun value between otherBetween _ =>
    nexts value between otherBetween

theorem AheadFrom.get {Related : α → World → World → Prop}
    {next otherNext : World → HostM ParsingError α}
    (nexts : AheadFrom Related fragments world other (next world) (otherNext other)) :
    AheadFrom Related fragments world other (MonadState.get >>= next)
      (MonadState.get >>= otherNext) := by
  obtain ⟨ahead, related⟩ := nexts
  refine ⟨?_, ?_⟩
  · rw [HostM.eval_bind_of_ok (HostM.eval_get _), HostM.eval_bind_of_ok (HostM.eval_get _)]
    exact ahead
  · rw [HostM.eval_bind_of_ok (HostM.eval_get _), HostM.eval_bind_of_ok (HostM.eval_get _)]
    exact related

/-- Both compilations fail before anything is checked. -/
theorem AheadFrom.throw {Related : α → World → World → Prop} {failure : ParsingError}
    (plain : ∀ error, failure ≠ .preparation error) :
    AheadFrom Related fragments world other (throw failure) (throw failure) :=
  ⟨.failed plain, fun _ given => by cases given⟩

/-- Both compilations carry out the branch of a condition on which they agree. -/
theorem AheadFrom.ite {Related : α → World → World → Prop} {condition otherCondition : Prop}
    [Decidable condition] [Decidable otherCondition]
    {first second otherFirst otherSecond : HostM ParsingError α}
    (same : condition ↔ otherCondition)
    (firsts : condition → AheadFrom Related fragments world other first otherFirst)
    (seconds : ¬condition → AheadFrom Related fragments world other second otherSecond) :
    AheadFrom Related fragments world other (if condition then first else second)
      (if otherCondition then otherFirst else otherSecond) := by
  by_cases holds : condition
  · rw [if_pos holds, if_pos (same.1 holds)]
    exact firsts holds
  · rw [if_neg holds, if_neg fun otherHolds => holds (same.2 otherHolds)]
    exact seconds holds

theorem AheadFrom.pure {Related : α → World → World → Prop} {value : α}
    (related : Related value world other) :
    AheadFrom Related [] world other (pure value) (pure value) := by
  refine ⟨.done rfl _, fun given isGiven => ?_⟩
  cases isGiven
  exact related

end Side

/-! ## Failures that are no mistakes -/

theorem requireAdapter_plain (setting : Setting) (place : Place) (tag : String) (world : World)
    (error : PreparationError) :
    ((requireAdapter setting place tag).eval world).1 ≠ .error (.preparation error) := by
  rw [eval_requireAdapter]
  cases world.adapterForTag setting.registry tag <;> nofun

theorem requireCode_plain (world : World) (place : Place) (adapter : AdapterId) (kind : CodeKind)
    (code : Option String) (error : PreparationError) :
    requireCode world place adapter kind code ≠ .error (.preparation error) := by
  cases code <;> nofun

theorem codeForInclude_plain (place : Place) (adapter : AdapterId) (expression : String)
    (world : World) (error : PreparationError) :
    ((codeForInclude place adapter expression).eval world).1 ≠ .error (.preparation error) := by
  rw [codeForInclude, HostM.eval_bind_of_ok (HostM.eval_get _), HostM.eval_ofExcept]
  exact requireCode_plain _ _ _ _ _ _

theorem codeForExpression_plain (place : Place) (adapter : AdapterId) (expression : String)
    (world : World) (error : PreparationError) :
    ((codeForExpression place adapter expression).eval world).1 ≠ .error (.preparation error) := by
  rw [codeForExpression, HostM.eval_bind_of_ok (HostM.eval_get _), HostM.eval_ofExcept]
  exact requireCode_plain _ _ _ _ _ _

/-- Mini fragments can be compiled whatever they say. -/
theorem compileSegments_plain {setting : Setting} {world : World}
    (mini : world.MiniRegistry setting.registry) (document : Document) (isScriptlet : Bool)
    (segments : List RawSegment) (error : PreparationError) :
    ((compileSegments setting document isScriptlet segments).eval world).1 ≠
      .error (.preparation error) := by
  rw [eval_compileSegments mini]
  have first (segment : RawSegment) :
      world.miniSegment setting document isScriptlet segment ≠ .error (.preparation error) := by
    unfold miniSegment
    dsimp only
    split
    · nofun
    · nofun
    · split <;> nofun
  induction segments with
  | nil => nofun
  | cons segment rest ih =>
      rw [List.mapM_cons]
      dsimp only at ih ⊢
      cases compiled : world.miniSegment setting document isScriptlet segment with
      | error failure =>
          intro same
          obtain rfl : failure = .preparation error := Except.error.inj same
          exact first segment compiled
      | ok segment =>
          cases others : rest.mapM (world.miniSegment setting document isScriptlet) with
          | error failure => exact fun same => ih (others.trans same)
          | ok others => nofun

/-- Pairs of states in which a document is compiled with and without checking, when a number of
segments has been made: both have the same Mini adapters and answer alike, and in-flow code can
be put into the source of both under the numbers that are wanted. -/
structure Sowing (Related : Nat → World → World → Prop) (wanted : Nat → Prop) (setting : Setting)
    (document : Document) : Prop where
  answering : ∀ number, Answering (Related number) setting.registry fun _ => True
  mini : ∀ {number world other}, Related number world other →
    world.MiniRegistry setting.registry
  starts : ∀ {number world other}, Related number world other →
    other.initialTag setting document = world.initialTag setting document
  onward : ∀ {number world other}, Related number world other → Related (number + 1) world other
  seeds : ∀ {number world other} (code tag : String), wanted number →
    Related number world other →
    ((seedInFlow (setting.preparing true) document (inFlowDocumentName document number) code
      tag).eval world).1 = .ok () →
    ((seedInFlow (setting.preparing false) document (inFlowDocumentName document number) code
      tag).eval other).1 = .ok () →
    Related (number + 1)
      ((seedInFlow (setting.preparing true) document (inFlowDocumentName document number) code
        tag).eval world).2
      ((seedInFlow (setting.preparing false) document (inFlowDocumentName document number) code
        tag).eval other).2

theorem compileSegments_preparing (setting : Setting) (ahead : Bool) (document : Document)
    (isScriptlet : Bool) (segments : List RawSegment) :
    compileSegments (setting.preparing ahead) document isScriptlet segments =
      compileSegments setting document isScriptlet segments := by
  induction segments with
  | nil => rfl
  | cons segment rest ih =>
      rw [compileSegments, compileSegments, ih]
      rfl

namespace Sowing

variable {Related : Nat → World → World → Prop} {wanted : Nat → Prop} {setting : Setting}
  {document : Document} {number : Nat} {world other : World}

theorem requireAdapter_agree (sowing : Sowing Related wanted setting document) (place : Place)
    (tag : String) :
    Agree (Related number) (requireAdapter (setting.preparing true) place tag)
      (requireAdapter (setting.preparing false) place tag) :=
  (sowing.answering number).requireAdapter_agree place trivial

theorem otherMini (sowing : Sowing Related wanted setting document)
    (related : Related number world other) : other.MiniRegistry setting.registry :=
  ((sowing.answering number).adapters related).miniRegistry (sowing.mini related)

/-- In-flow code is checked before it is put into the source. -/
theorem seedInFlow_ahead (sowing : Sowing Related wanted setting document) {code : InFlowCode}
    (isWanted : wanted code.number) (related : Related code.number world other) :
    AheadFrom (fun _ => Related (code.number + 1)) [code.fragment document] world other
      (seedInFlow (setting.preparing true) document (code.name document) code.text code.language)
      (seedInFlow (setting.preparing false) document (code.name document) code.text
        code.language) := by
  suffices outcome : Ahead [code.fragment document]
      ((seedInFlow (setting.preparing true) document (code.name document) code.text
        code.language).eval world).1
      ((seedInFlow (setting.preparing false) document (code.name document) code.text
        code.language).eval other).1 by
    refine ⟨outcome, fun _ given => sowing.seeds code.text code.language isWanted related given ?_⟩
    rw [given] at outcome
    exact outcome.of_ok.2
  rw [eval_seedInFlow (sowing.mini related), eval_seedInFlow (sowing.otherMini related),
    (sowing.answering code.number).answers related code.language trivial]
  cases other.adapterForTag setting.registry code.language with
  | none => exact .failed nofun
  | some adapter =>
      rw [if_pos rfl]
      cases mistake : firstMistake? [code.fragment document] with
      | some error => exact .stopped mistake _
      | none =>
          dsimp only
          rw [plantInFlow_succeeds, if_neg (by decide)]
          dsimp only
          rw [plantInFlow_succeeds]
          exact .done mistake _

theorem inFlowSegment_ahead (sowing : Sowing Related wanted setting document) (code : InFlowCode)
    (isWanted : wanted code.number) (related : Related code.number world other)
    (activeTag : Option String)
    (position : Position) :
    AheadFrom (fun _ => Related (code.number + 1)) [code.fragment document] world other
      (inFlowSegment (setting.preparing true) document activeTag code.number code.text
        code.language position)
      (inFlowSegment (setting.preparing false) document activeTag code.number code.text
        code.language position) := by
  unfold inFlowSegment
  refine .get ?_
  dsimp only
  rw [(sowing.answering code.number).sourced related]
  refine .ite Iff.rfl (fun _ => .throw nofun) fun _ => ?_
  cases activeTag with
  | none => exact .throw nofun
  | some active =>
      refine .bind_agree (sowing.requireAdapter_agree _ active _ _ related)
        (requireAdapter_plain _ _ _ _) fun adapter _ _ relatedBehind => ?_
      rw [← List.append_nil [code.fragment document]]
      refine (sowing.seedInFlow_ahead isWanted relatedBehind).bind fun _ _ _ _ seeded => ?_
      exact .bind_agree ((sowing.answering _).codeForInclude_agree _ adapter _ _ _ seeded)
        (codeForInclude_plain _ _ _ _) fun text _ _ coded => .pure coded

/-- Only in-flow code in another language is checked. -/
theorem scriptletSegment_ahead (sowing : Sowing Related wanted setting document)
    (related : Related number world other) (activeTag : Option String) (body : List Char)
    (position : Position)
    (all : ∀ code ∈ inFlowCode? setting.options.markers activeTag number body,
      wanted code.number) :
    AheadFrom (fun outcome => Related (number + outcome.1.toList.length))
      ((inFlowCode? setting.options.markers activeTag number body).toList.map
        (InFlowCode.fragment document)) world other
      (scriptletSegment (setting.preparing true) document activeTag number body position)
      (scriptletSegment (setting.preparing false) document activeTag number body position) := by
  unfold scriptletSegment
  unfold inFlowCode? at all ⊢
  rw [Setting.markers_preparing, Setting.markers_preparing]
  generalize treatmentOf body setting.options.markers.treatments = treated at all ⊢
  obtain ⟨treatment, marked⟩ := treated
  dsimp only at all ⊢
  generalize leadingTag marked = led at all ⊢
  obtain ⟨explicit, code⟩ := led
  dsimp only at all ⊢
  have ends (raw : RawSegment) (nextTag : Option String) {world other : World}
      (further : Related (number + 1) world other) :
      AheadFrom (fun (outcome : Option RawSegment × Option String) =>
        Related (number + outcome.1.toList.length)) [] world other (pure (some raw, nextTag))
          (pure (some raw, nextTag)) :=
    .pure further
  generalize (explicit.map String.ofList).or activeTag = chosen at all ⊢
  cases chosen with
  | none => exact .ite Iff.rfl (fun _ => .pure related) fun _ => .throw nofun
  | some tag =>
      by_cases isCode : treatment = .inFlow ∧ activeTag ≠ some tag
      · obtain ⟨rfl, differs⟩ := isCode
        dsimp only at all ⊢
        rw [if_pos ⟨rfl, differs⟩] at all
        rw [if_pos ⟨rfl, differs⟩, if_neg (by decide), if_neg (by decide)]
        refine .bind_agree (sowing.requireAdapter_agree _ tag _ _ related)
          (requireAdapter_plain _ _ _ _) fun adapter between otherBetween relatedBehind => .get ?_
        rw [if_neg differs, if_neg differs, Languages.profile, Languages.profile,
          ((sowing.answering number).adapters relatedBehind).1, ← List.append_nil (List.map _ _)]
        refine (sowing.inFlowSegment_ahead ⟨number, tag, String.ofList code⟩ (all _ rfl)
          relatedBehind activeTag position).bind fun raw _ _ _ planted => ends raw _ planted
      · dsimp only
        rw [if_neg isCode]
        refine .ite Iff.rfl (fun _ => .pure related) fun _ => ?_
        refine .bind_agree (sowing.requireAdapter_agree _ tag _ _ related)
          (requireAdapter_plain _ _ _ _) fun adapter between otherBetween relatedBehind => .get ?_
        have further := sowing.onward relatedBehind
        rw [Languages.profile, Languages.profile, ((sowing.answering number).adapters relatedBehind).1]
        cases treatment with
        | comment | code => exact ends _ _ further
        | expression =>
            exact .bind_agree
              ((sowing.answering number).codeForExpression_agree _ adapter _ _ _ relatedBehind)
              (codeForExpression_plain _ _ _ _) fun _ _ _ coded => ends _ _ (sowing.onward coded)
        | documentInclude =>
            exact .bind_agree
              ((sowing.answering number).codeForInclude_agree _ adapter _ _ _ relatedBehind)
              (codeForInclude_plain _ _ _ _) fun _ _ _ coded => ends _ _ (sowing.onward coded)
        | inFlow =>
            have same : activeTag = some tag := by
              by_contra differs
              exact isCode ⟨rfl, differs⟩
            dsimp only
            rw [if_pos same, if_pos same]
            exact ends _ _ further

/-- By induction on the pieces. -/
theorem segmentsOfPieces_ahead (sowing : Sowing Related wanted setting document) (closing : String)
    (tag : Option String) (pieces : List Piece) (related : Related number world other)
    (all : ∀ code ∈ inFlowCodesOfPieces (setting.preparing false) document tag number pieces other,
      wanted code.number) :
    AheadFrom (fun _ world other => ∃ last, Related last world other)
      ((inFlowCodesOfPieces (setting.preparing false) document tag number pieces other).map
        (InFlowCode.fragment document)) world other
      (segmentsOfPieces (setting.preparing true) document closing tag number pieces)
      (segmentsOfPieces (setting.preparing false) document closing tag number pieces) := by
  induction pieces generalizing tag number world other with
  | nil => exact .pure ⟨number, related⟩
  | cons piece rest ih =>
      cases piece with
      | literal text position =>
          have behind := ih tag (sowing.onward related) all
          rw [← List.append_nil (List.map _ _)]
          exact behind.bind fun others _ _ _ last => .pure last
      | unclosed position => exact .throw nofun
      | scriptlet body position =>
          rw [inFlowCodesOfPieces] at all ⊢
          rw [List.map_append]
          refine (sowing.scriptletSegment_ahead related tag body position fun code isCode =>
            all code (List.mem_append_left _ (Option.mem_toList.2 isCode))).bind
              fun outcome between otherBetween treated further => ?_
          rw [treated] at all ⊢
          obtain ⟨segment, nextTag⟩ := outcome
          have behind := ih nextTag further fun code member =>
            all code (List.mem_append_right _ member)
          cases segment with
          | none => exact behind
          | some segment =>
              rw [← List.append_nil (List.map _ _)]
              exact behind.bind fun others _ _ _ last => .pure last

/-- As long as nothing is stopped, both come upon the same codes.  By induction on the pieces. -/
theorem inFlowCodesOfPieces_eq (sowing : Sowing Related wanted setting document)
    (all : ∀ number, wanted number) {closing : String} {tag : Option String}
    {pieces : List Piece} {raw : List RawSegment} {after : World}
    (related : Related number world other)
    (split : (segmentsOfPieces (setting.preparing true) document closing tag number pieces).eval
      world = (.ok raw, after)) :
    inFlowCodesOfPieces (setting.preparing true) document tag number pieces world =
      inFlowCodesOfPieces (setting.preparing false) document tag number pieces other := by
  induction pieces generalizing tag number raw world other with
  | nil => rfl
  | cons piece rest ih =>
      cases piece with
      | literal text position =>
          obtain ⟨others, between, ends, isRaw⟩ := HostM.eval_bind_eq_ok_iff.1 split
          cases isRaw
          exact ih (sowing.onward related) ends
      | unclosed position => rfl
      | scriptlet body position =>
          obtain ⟨segment, nextTag, between, others, treated, ends⟩ :=
            exists_of_segmentsOfPieces_scriptlet split
          obtain ⟨ahead, relatedBehind⟩ := sowing.scriptletSegment_ahead related tag body position
            fun code _ => all code.number
          rw [treated] at ahead relatedBehind
          have lazilyTreated : (scriptletSegment (setting.preparing false) document tag number body
              position).eval other = (.ok (segment, nextTag), _) := Prod.ext ahead.of_ok.2 rfl
          rw [inFlowCodesOfPieces, inFlowCodesOfPieces, treated, lazilyTreated]
          exact congrArg _ (ih (relatedBehind _ rfl) ends)

theorem splitDocument_ahead (sowing : Sowing Related wanted setting document)
    (related : Related 0 world other)
    (all : ∀ code ∈ other.inFlowCodes (setting.preparing false) document, wanted code.number) :
    AheadFrom (fun _ world other => ∃ last, Related last world other)
      ((other.inFlowCodes (setting.preparing false) document).map (InFlowCode.fragment document))
      world other (splitDocument (setting.preparing true) document)
      (splitDocument (setting.preparing false) document) := by
  have starts : other.initialTag (setting.preparing false) document =
      world.initialTag (setting.preparing true) document := sowing.starts related
  unfold splitDocument
  unfold World.inFlowCodes at all ⊢
  refine .get ?_
  rw [starts] at all ⊢
  rw [Setting.delimiters_preparing] at all
  rw [Setting.delimiters_preparing, Setting.delimiters_preparing]
  dsimp only
  cases found : Fence.ofDocument? setting.options.delimiters document.text.toList with
  | none => exact .pure ⟨0, related⟩
  | some fence =>
      rw [found] at all
      exact sowing.segmentsOfPieces_ahead _ _ _ related all

theorem compileSegments_ahead (sowing : Sowing Related wanted setting document)
    (related : Related number world other) (isScriptlet : Bool) (segments : List RawSegment) :
    AheadFrom (fun _ world other => ∃ last, Related last world other) [] world other
      (compileSegments (setting.preparing true) document isScriptlet segments)
      (compileSegments (setting.preparing false) document isScriptlet segments) := by
  rw [compileSegments_preparing, compileSegments_preparing]
  have agree := (sowing.answering number).compileSegments_agree document isScriptlet
    (fun segment (_ : segment ∈ segments) _ _ => trivial) world other related
  exact .of_agree ⟨agree.1, number, agree.2⟩
    (compileSegments_plain (sowing.otherMini related) document isScriptlet segments)

theorem scriptletSegments_ahead (sowing : Sowing Related wanted setting document)
    (related : Related 0 world other)
    (all : ∀ code ∈ other.inFlowCodes (setting.preparing false) document, wanted code.number) :
    AheadFrom (fun _ world other => ∃ last, Related last world other)
      ((other.inFlowCodes (setting.preparing false) document).map (InFlowCode.fragment document))
      world other (scriptletSegments (setting.preparing true) document)
      (scriptletSegments (setting.preparing false) document) := by
  unfold scriptletSegments
  rw [← List.append_nil (List.map _ _)]
  refine (sowing.splitDocument_ahead related all).bind fun raw between otherBetween _ last => .get ?_
  obtain ⟨last, relatedBehind⟩ := last
  have sameCode : between.codeForLiteral (setting.preparing true) =
      otherBetween.codeForLiteral (setting.preparing false) := by
    funext tag text
    have answers : between.adapterForTag (setting.preparing true).registry tag =
        otherBetween.adapterForTag (setting.preparing false).registry tag :=
      (sowing.answering last).answers relatedBehind tag trivial
    rw [World.codeForLiteral, World.codeForLiteral, answers,
      ((sowing.answering last).adapters relatedBehind).1]
  rw [sameCode]
  exact sowing.compileSegments_ahead relatedBehind true _

/-- Whatever parser the options name, nothing but in-flow code is checked before the segments
of a document are there. -/
theorem documentSegments_ahead (sowing : Sowing Related wanted setting document)
    (related : Related 0 world other)
    (all : ∀ code ∈ other.codesAhead (setting.preparing false) document, wanted code.number) :
    AheadFrom (fun _ world other => ∃ last, Related last world other)
      ((other.codesAhead (setting.preparing false) document).map (InFlowCode.fragment document))
      world other (documentSegments (setting.preparing true) document)
      (documentSegments (setting.preparing false) document) := by
  have starts : other.initialTag (setting.preparing false) document =
      world.initialTag (setting.preparing true) document := sowing.starts related
  have allCodes (parser : setting.options.parser = scriptletsParser) :
      ∀ code ∈ other.inFlowCodes (setting.preparing false) document, wanted code.number := by
    rwa [World.codesAhead, if_pos (show (setting.preparing false).options.parser = _ from parser)]
      at all
  unfold documentSegments World.codesAhead
  change AheadFrom _ (List.map _ (if setting.options.parser = scriptletsParser then _ else _)) _ _
    (if setting.options.parser = programParser then _
      else if setting.options.parser = textParser then _
      else if setting.options.parser = scriptletsParser then _ else _)
    (if setting.options.parser = programParser then _
      else if setting.options.parser = textParser then _
      else if setting.options.parser = scriptletsParser then _ else _)
  by_cases isProgram : setting.options.parser = programParser
  · rw [if_pos isProgram, if_pos isProgram, isProgram, if_neg (by decide)]
    unfold programSegments
    refine .get ?_
    dsimp only
    rw [starts]
    exact sowing.compileSegments_ahead related false _
  rw [if_neg isProgram, if_neg isProgram]
  by_cases isText : setting.options.parser = textParser
  · rw [if_pos isText, if_pos isText, isText, if_neg (by decide)]
    exact sowing.compileSegments_ahead related false _
  rw [if_neg isText, if_neg isText]
  by_cases isScriptlets : setting.options.parser = scriptletsParser
  · rw [if_pos isScriptlets, if_pos isScriptlets, if_pos isScriptlets]
    exact sowing.scriptletSegments_ahead related (allCodes isScriptlets)
  · rw [if_neg isScriptlets, if_neg isScriptlets, if_neg isScriptlets]
    exact .throw nofun

/-- Any state is compiled in side by side with itself. -/
theorem concordant (mini : world.MiniRegistry setting.registry) (document : Document) :
    Sowing (fun _ => Concordant world world) (fun _ => True) setting document where
  answering _ := Concordant.answering ⟨rfl, rfl⟩ rfl fun _ _ => rfl
  mini concordant := concordant.tongue.adapters.miniRegistry mini
  starts concordant := by
    rw [concordant.tongue.initialTag, concordant.otherTongue.initialTag]
  onward concordant := concordant
  seeds code tag _ concordant _ _ :=
    ⟨concordant.tongue.trans (.seedInFlow _ document _ code tag _),
      concordant.otherTongue.trans (.seedInFlow _ document _ code tag _)⟩

end Sowing

/-! ## Compiling with and without checking -/

section Whole

variable {setting : Setting} {world : World}

/-- What has been compiled with checking is sound. -/
theorem sound_of_newExecutable (mini : world.MiniRegistry setting.registry) {document : Document}
    {executable : ExecutableId} {after : World}
    (made : (newExecutable (setting.preparing true) document).eval world =
      (.ok executable, after)) : (after.executables.get executable).Sound := by
  rw [newExecutable_eq] at made
  obtain ⟨segments, between, compiled, makes⟩ := HostM.eval_bind_eq_ok_iff.1 made
  have form := Form.of_makeExecutable makes
  have written := ofText_of_documentSegments
    (show world.MiniRegistry (setting.preparing true).registry from mini) compiled
  rw [eval_makeExecutable_preparing written setting true, if_pos rfl] at makes
  refine ⟨?_, ?_⟩
  · rw [form.segments, form.documentName]
    exact written
  · rw [Executable.texts, form.segments, form.documentName]
    cases mistake : firstMistake? (segments.filterMap (Segment.fragment? document.name)) with
    | none => exact Mini.firstMistake?_eq_none_iff.1 mistake
    | some error =>
        rw [mistake] at makes
        cases makes

/-- What a compilation with checking comes to, where the one without succeeds: the first text
that is no program stops it, of the in-flow codes and then of the document's own programs. -/
theorem newExecutable_eager_of_lazy (mini : world.MiniRegistry setting.registry)
    {document : Document} {executable : ExecutableId} {after : World}
    (made : (newExecutable (setting.preparing false) document).eval world =
      (.ok executable, after)) :
    match firstMistake? ((world.codesAhead (setting.preparing false) document).map
        (InFlowCode.fragment document) ++ (after.executables.get executable).texts) with
    | none => ∃ other eagerAfter,
        (newExecutable (setting.preparing true) document).eval world = (.ok other, eagerAfter) ∧
          (eagerAfter.executables.get other).segments =
            (after.executables.get executable).segments
    | some error => ((newExecutable (setting.preparing true) document).eval world).1 =
        .error (.preparation error) := by
  obtain ⟨ahead, -⟩ := (Sowing.concordant mini document).documentSegments_ahead
    ⟨.refl world, .refl world⟩ fun _ _ => trivial
  rw [newExecutable_eq] at made
  obtain ⟨segments, between, compiled, makes⟩ := HostM.eval_bind_eq_ok_iff.1 made
  have form := Form.of_makeExecutable makes
  have texts : (after.executables.get executable).texts =
      segments.filterMap (Segment.fragment? document.name) := by
    rw [Executable.texts, form.segments, form.documentName]
  have written := ofText_of_documentSegments
      (show world.MiniRegistry (setting.preparing false).registry from mini) compiled
  rw [texts, Mini.firstMistake?_append, newExecutable_eq]
  rcases eagerCompiled : (documentSegments (setting.preparing true) document).eval world with
    ⟨outcome, eagerBetween⟩
  rw [compiled, eagerCompiled] at ahead
  cases ahead with
  | stopped mistake =>
      rw [mistake, HostM.eval_bind_of_error eagerCompiled]
      rfl
  | done sound =>
      have eagerMade := eval_makeExecutable_preparing written setting true eagerBetween
      rw [if_pos rfl] at eagerMade
      rw [sound, Option.none_or, HostM.eval_bind_of_ok eagerCompiled]
      cases mistake : firstMistake? (segments.filterMap (Segment.fragment? document.name)) with
      | some error =>
          rw [mistake] at eagerMade
          exact congrArg Prod.fst eagerMade
      | none =>
          rw [mistake] at eagerMade
          have eagerForm := Form.of_makeExecutable eagerMade
          exact ⟨_, _, eagerMade, eagerForm.segments.trans form.segments.symm⟩

/-- Where a compilation without checking fails, so does the one with checking, unless it has
been stopped by an in-flow code before. -/
theorem newExecutable_eager_of_failed (mini : world.MiniRegistry setting.registry)
    {document : Document} {failure : ParsingError}
    (failed : ((newExecutable (setting.preparing false) document).eval world).1 =
      .error failure) :
    Ahead ((world.codesAhead (setting.preparing false) document).map (InFlowCode.fragment document))
      ((newExecutable (setting.preparing true) document).eval world).1
      (.error failure : Except ParsingError ExecutableId) := by
  obtain ⟨ahead, -⟩ := (Sowing.concordant mini document).documentSegments_ahead
    ⟨.refl world, .refl world⟩ fun _ _ => trivial
  rw [newExecutable_eq] at failed ⊢
  rcases compiled : (documentSegments (setting.preparing false) document).eval world with
    ⟨raised | segments, between⟩
  · rw [HostM.eval_bind_of_error compiled] at failed
    obtain rfl : raised = failure := Except.error.inj failed
    rcases eagerCompiled : (documentSegments (setting.preparing true) document).eval world with
      ⟨outcome, eagerBetween⟩
    rw [compiled, eagerCompiled] at ahead
    cases ahead with
    | failed plain =>
        rw [HostM.eval_bind_of_error eagerCompiled]
        exact .failed plain
    | stopped mistake =>
        rw [HostM.eval_bind_of_error eagerCompiled]
        exact .stopped mistake _
  · have written := ofText_of_documentSegments
      (show world.MiniRegistry (setting.preparing false).registry from mini) compiled
    rw [HostM.eval_bind_of_ok compiled, eval_makeExecutable_preparing written,
      if_neg (by decide)] at failed
    cases failed

/-- The texts that a compilation with checking comes upon: the in-flow codes that it puts into the
source, and then the programs of what the document is compiled to. -/
def World.fragmentsAhead (world : World) (setting : Setting) (document : Document) :
    List Fragment :=
  (world.codesAhead (setting.preparing false) document).map (InFlowCode.fragment document) ++
    match (newExecutable (setting.preparing false) document).eval world with
    | (.ok executable, after) => (after.executables.get executable).texts
    | (.error _, _) => []

/-- A compilation with checking that succeeds has come upon the same in-flow codes. -/
theorem codesAhead_eq (mini : world.MiniRegistry setting.registry) {document : Document}
    {executable : ExecutableId} {after : World}
    (made : (newExecutable (setting.preparing true) document).eval world =
      (.ok executable, after)) :
    world.codesAhead (setting.preparing true) document =
      world.codesAhead (setting.preparing false) document := by
  unfold World.codesAhead
  change (if setting.options.parser = scriptletsParser then _ else _) =
    (if setting.options.parser = scriptletsParser then _ else _)
  by_cases parser : setting.options.parser = scriptletsParser
  · have eagerParser : (setting.preparing true).options.parser = scriptletsParser := parser
    rw [if_pos parser, if_pos parser]
    simp only [newExecutable, eagerParser] at made
    rw [if_neg (by decide), if_neg (by decide), if_pos trivial] at made
    obtain ⟨segments, between, compiled, -⟩ := HostM.eval_bind_eq_ok_iff.1 made
    obtain ⟨raw, behind, splits, -⟩ := HostM.eval_bind_eq_ok_iff.1 compiled
    rw [splitDocument, HostM.eval_bind_of_ok (HostM.eval_get _)] at splits
    dsimp only at splits
    unfold World.inFlowCodes
    rw [Setting.delimiters_preparing] at splits
    rw [Setting.delimiters_preparing, Setting.delimiters_preparing]
    cases found : Fence.ofDocument? setting.options.delimiters document.text.toList with
    | none => rfl
    | some fence =>
        rw [found] at splits
        exact (Sowing.concordant mini document).inFlowCodesOfPieces_eq (fun _ => trivial)
          ⟨.refl world, .refl world⟩ splits
  · rw [if_neg parser, if_neg parser]

/-- A compilation with checking succeeds just if the one without does and all texts are
programs. -/
theorem newExecutable_eager_iff (mini : world.MiniRegistry setting.registry)
    (document : Document) :
    (∃ executable after, (newExecutable (setting.preparing true) document).eval world =
        (.ok executable, after)) ↔
      (∃ executable after, (newExecutable (setting.preparing false) document).eval world =
        (.ok executable, after)) ∧
      ∀ fragment ∈ world.fragmentsAhead setting document, Parses fragment := by
  rw [← Mini.firstMistake?_eq_none_iff, World.fragmentsAhead]
  rcases lazily : (newExecutable (setting.preparing false) document).eval world with
    ⟨failure | executable, after⟩
  · have ahead := newExecutable_eager_of_failed mini (congrArg Prod.fst lazily)
    refine ⟨fun ⟨other, behind, eagerly⟩ => ?_, fun ⟨⟨_, _, made⟩, _⟩ => by cases made⟩
    rw [eagerly] at ahead
    cases ahead
  · have made := newExecutable_eager_of_lazy mini lazily
    dsimp only
    cases mistake : firstMistake? ((world.codesAhead (setting.preparing false) document).map
        (InFlowCode.fragment document) ++ (after.executables.get executable).texts) with
    | none =>
        rw [mistake] at made
        obtain ⟨other, behind, eagerly, -⟩ := made
        exact ⟨fun _ => ⟨⟨executable, after, rfl⟩, rfl⟩, fun _ => ⟨other, behind, eagerly⟩⟩
    | some error =>
        rw [mistake] at made
        refine ⟨fun ⟨other, behind, eagerly⟩ => ?_, fun ⟨_, sound⟩ => by cases sound⟩
        rw [eagerly] at made
        cases made

/-- If a compilation is stopped by a mistake, it is that of the first text that is no program. -/
theorem failsFirst_of_newExecutable_eager (mini : world.MiniRegistry setting.registry)
    {document : Document} {error : PreparationError}
    (stopped : ((newExecutable (setting.preparing true) document).eval world).1 =
      .error (.preparation error)) :
    FailsFirst (world.fragmentsAhead setting document) error := by
  apply FailsFirst.of_firstMistake?
  rw [World.fragmentsAhead]
  rcases lazily : (newExecutable (setting.preparing false) document).eval world with
    ⟨failure | executable, after⟩
  · have ahead := newExecutable_eager_of_failed mini (congrArg Prod.fst lazily)
    rw [stopped] at ahead
    dsimp only
    rw [List.append_nil]
    cases ahead with
    | failed plain => exact absurd rfl (plain error)
    | stopped mistake => exact mistake
  · have made := newExecutable_eager_of_lazy mini lazily
    dsimp only
    cases mistake : firstMistake? ((world.codesAhead (setting.preparing false) document).map
        (InFlowCode.fragment document) ++ (after.executables.get executable).texts) with
    | none =>
        rw [mistake] at made
        obtain ⟨other, behind, eagerly, -⟩ := made
        rw [eagerly] at stopped
        cases stopped
    | some found =>
        rw [mistake] at made
        rw [made] at stopped
        cases stopped
        rfl

end Whole

end DocumentHost
