import DocumentHost.Proofs.Host.Obtaining
import DocumentHost.Proofs.Language.MiniSegments

/-!
# What the adapters settle

A document without in-flow code is compiled without a look at anything but the adapters:
in all hosts with the same adapters it is compiled to the same segments, and apart from
the new executable the state is as before.
-/

namespace DocumentHost

/-- The adapters alone settle how an operation ends, and it changes nothing. -/
def Settled {ε α : Type} (origin : World) (action : HostM ε α) : Prop :=
  ∃ outcome, ∀ world, SameAdapters origin world → action.eval world = (outcome, world)

namespace Settled

variable {ε ε' α β : Type} {origin : World}

theorem pure (value : α) : Settled origin (pure value : HostM ε α) :=
  ⟨.ok value, fun _ _ => rfl⟩

theorem throw (error : ε) : Settled origin (throw error : HostM ε α) :=
  ⟨.error error, fun _ _ => rfl⟩

theorem ofExcept (outcome : Except ε α) : Settled origin (HostM.ofExcept outcome) :=
  ⟨outcome, fun world _ => HostM.eval_ofExcept outcome world⟩

theorem bind {action : HostM ε α} {next : α → HostM ε β} (settled : Settled origin action)
    (nexts : ∀ value, Settled origin (next value)) : Settled origin (action >>= next) := by
  obtain ⟨outcome, ends⟩ := settled
  cases outcome with
  | error error =>
      refine ⟨.error error, fun world same => ?_⟩
      exact HostM.eval_bind_of_error (ends world same)
  | ok value =>
      obtain ⟨further, endsFurther⟩ := nexts value
      refine ⟨further, fun world same => ?_⟩
      rw [HostM.eval_bind_of_ok (ends world same)]
      exact endsFurther world same

/-- What comes next may look at the state as far as the adapters settle it. -/
theorem get {next : World → HostM ε α} {settledNext : HostM ε α}
    (settled : Settled origin settledNext)
    (nexts : ∀ world, SameAdapters origin world → next world = settledNext) :
    Settled origin (MonadState.get >>= next) := by
  obtain ⟨outcome, ends⟩ := settled
  refine ⟨outcome, fun world same => ?_⟩
  rw [HostM.eval_bind_of_ok (HostM.eval_get _), nexts world same]
  exact ends world same

/-- What comes next is what it is in the state one starts from. -/
theorem getAt {next : World → HostM ε α} (settled : Settled origin (next origin))
    (nexts : ∀ world, SameAdapters origin world → next world = next origin) :
    Settled origin (MonadState.get >>= next) :=
  settled.get nexts

theorem ite {condition : Prop} [Decidable condition] {first second : HostM ε α}
    (firsts : Settled origin first) (seconds : ¬condition → Settled origin second) :
    Settled origin (if condition then first else second) := by
  split
  · exact firsts
  · rename_i fails
    exact seconds fails

end Settled

/-! ## Compiling -/

/-- A text in which options find no in-flow code. -/
def CompileOptions.Plain (options : CompileOptions) (text : String) : Prop :=
  options.parser = scriptletsParser →
    ∀ fence, Fence.ofDocument? options.delimiters text.toList = some fence →
      ∀ body position, Piece.scriptlet body position ∈ Piece.cut fence text.toList .start →
        (treatmentOf body options.markers.treatments).1 ≠ .inFlow

section Compiling

variable {origin : World} {setting : Setting}

theorem requireAdapter_settled (univocal : origin.Univocal setting.registry) (place : Place)
    (tag : String) : Settled origin (requireAdapter setting place tag) := by
  refine ⟨(origin.adapterForTag setting.registry tag).elim (.error (.noAdapter place tag)) .ok,
    fun world same => ?_⟩
  rw [World.eval_requireAdapter, same.adapterForTag univocal]

theorem compileSegments_settled (univocal : origin.Univocal setting.registry)
    (mini : origin.MiniRegistry setting.registry) (document : Document) (isScriptlet : Bool)
    (segments : List RawSegment) :
    Settled origin (compileSegments setting document isScriptlet segments) := by
  refine ⟨segments.mapM (origin.miniSegment setting document isScriptlet),
    fun world same => ?_⟩
  rw [World.eval_compileSegments (same.miniRegistry mini), same.miniSegment univocal]

theorem codeForExpression_settled (place : Place) (adapter : AdapterId) (expression : String) :
    Settled origin (codeForExpression place adapter expression) := by
  refine .get (.ofExcept (requireCode origin place adapter .expressionOutput
    ((origin.adapters.get adapter).adapter.codeForExpression expression))) fun world same => ?_
  simp only [requireCode, Languages.profile, same.1]

theorem codeForInclude_settled (place : Place) (adapter : AdapterId) (expression : String) :
    Settled origin (codeForInclude place adapter expression) := by
  refine .get (.ofExcept (requireCode origin place adapter .documentInclude
    ((origin.adapters.get adapter).adapter.codeForInclude expression))) fun world same => ?_
  simp only [requireCode, Languages.profile, same.1]

theorem scriptletSegment_settled (univocal : origin.Univocal setting.registry)
    (document : Document) (activeTag : Option String) (number : Nat) {body : List Char}
    (position : Position)
    (plain : (treatmentOf body setting.options.markers.treatments).1 ≠ .inFlow) :
    Settled origin (scriptletSegment setting document activeTag number body position) := by
  unfold scriptletSegment
  generalize treatmentOf body setting.options.markers.treatments = treated at plain ⊢
  obtain ⟨treatment, marked⟩ := treated
  refine .ite (.pure _) fun _ => ?_
  generalize leadingTag marked = led
  obtain ⟨explicit, code⟩ := led
  dsimp only
  cases (explicit.map String.ofList).or activeTag with
  | none => exact .throw _
  | some tag =>
      refine (requireAdapter_settled univocal _ tag).bind fun adapter => ?_
      let sticks := (explicit.map String.ofList).isSome && treatment != .inFlow &&
        !(origin.profile adapter).ephemeral
      let nextTag := if sticks then some tag else activeTag
      cases treatment with
      | inFlow => exact absurd rfl plain
      | comment | code =>
          refine .get (.pure (some (.program (String.ofList code) (some tag) position), nextTag))
            fun world same => ?_
          rw [Languages.profile, ← same.1]
          rfl
      | expression =>
          refine .get ((codeForExpression_settled (document.place position) adapter
            (String.ofList code)).bind fun text =>
              .pure (some (.program text (some tag) position), nextTag)) fun world same => ?_
          rw [Languages.profile, ← same.1]
          rfl
      | documentInclude =>
          refine .get ((codeForInclude_settled (document.place position) adapter
            (String.ofList code)).bind fun text =>
              .pure (some (.program text (some tag) position), nextTag)) fun world same => ?_
          rw [Languages.profile, ← same.1]
          rfl

/-- By induction on the pieces. -/
theorem segmentsOfPieces_settled (univocal : origin.Univocal setting.registry)
    (document : Document) (closing : String) (tag : Option String) (number : Nat)
    {pieces : List Piece}
    (plain : ∀ body position, Piece.scriptlet body position ∈ pieces →
      (treatmentOf body setting.options.markers.treatments).1 ≠ .inFlow) :
    Settled origin (segmentsOfPieces setting document closing tag number pieces) := by
  induction pieces generalizing tag number with
  | nil => exact .pure []
  | cons piece rest ih =>
      have restPlain := fun body position member =>
        plain body position (List.mem_cons_of_mem piece member)
      cases piece with
      | literal text position =>
          exact (ih tag (number + 1) restPlain).bind fun others => .pure _
      | unclosed position => exact .throw _
      | scriptlet body position =>
          unfold segmentsOfPieces
          refine (scriptletSegment_settled univocal document tag number position
            (plain body position (by simp))).bind ?_
          rintro ⟨_ | segment, nextTag⟩
          · exact ih nextTag number restPlain
          · exact (ih nextTag (number + 1) restPlain).bind fun others => .pure _

theorem splitDocument_settled (univocal : origin.Univocal setting.registry)
    {document : Document} (scriptlets : setting.options.parser = scriptletsParser)
    (plain : setting.options.Plain document.text) :
    Settled origin (splitDocument setting document) := by
  have bodies := plain scriptlets
  unfold splitDocument
  cases found : Fence.ofDocument? setting.options.delimiters document.text.toList with
  | none =>
      refine .get (.pure [.literal document.text (origin.initialTag setting document) .start])
        fun world same => ?_
      rw [same.initialTag univocal]
      simp only [found]
  | some fence =>
      refine .get (segmentsOfPieces_settled univocal document (String.ofList fence.closing)
        (origin.initialTag setting document) 0 (bodies fence found)) fun world same => ?_
      rw [same.initialTag univocal]
      simp only [found]

theorem scriptletSegments_settled (univocal : origin.Univocal setting.registry)
    (mini : origin.MiniRegistry setting.registry) {document : Document}
    (scriptlets : setting.options.parser = scriptletsParser)
    (plain : setting.options.Plain document.text) :
    Settled origin (scriptletSegments setting document) := by
  unfold scriptletSegments
  refine (splitDocument_settled univocal scriptlets plain).bind fun raw => ?_
  refine .getAt (compileSegments_settled univocal mini document true _) fun world same => ?_
  rw [same.codeForLiteral univocal]

/-- The programs among some segments are Mini programs. -/
def MadeOfMini (segments : List Segment) : Prop :=
  ∀ text tag position adapter program,
    Segment.program text tag position adapter program ∈ segments →
    ∃ fragment, program = Mini.programOf fragment

theorem MadeOfMini.speakMini {segments : List Segment} (made : MadeOfMini segments) :
    SpeakMini segments := by
  intro text tag position adapter program member
  obtain ⟨fragment, rfl⟩ := made text tag position adapter program member
  exact World.programOf_asks fragment

theorem madeOfMini_of_mapM {document : Document} {isScriptlet : Bool} {raw : List RawSegment}
    {segments : List Segment}
    (compiled : raw.mapM (origin.miniSegment setting document isScriptlet) = .ok segments) :
    MadeOfMini segments := by
  rw [Outcome.mapM_eq_ok_iff] at compiled
  intro text tag position adapter program member
  induction compiled with
  | nil => cases member
  | @cons segment _ _ _ segmentCompiled _ ih =>
      rcases List.mem_cons.1 member with rfl | inRest
      · simp only [World.miniSegment] at segmentCompiled
        split at segmentCompiled
        · cases segmentCompiled
        · cases segmentCompiled
        · split at segmentCompiled
          · cases segmentCompiled
          · cases segmentCompiled
            exact ⟨_, rfl⟩
      · exact ih inRest

theorem prepareSegments_settled {segments : List Segment} (made : MadeOfMini segments) :
    Settled origin (prepareSegments segments) := by
  induction segments with
  | nil => exact .pure ()
  | cons segment rest ih =>
      have restMade : MadeOfMini rest := fun text tag position adapter program member =>
        made text tag position adapter program (List.mem_cons_of_mem _ member)
      cases segment with
      | literal text position => exact ih restMade
      | program text tag position adapter program =>
          obtain ⟨fragment, rfl⟩ := made text tag position adapter program (by simp)
          have quiet : Settled origin (HostM.ofReported (Mini.programOf fragment).prepare) := by
            refine ⟨(Mini.programOf fragment).prepare.outcome, fun world _ => ?_⟩
            rw [HostM.eval_ofReported, Mini.programOf, World.noteAll_nil]
          exact quiet.bind fun _ => ih restMade

end Compiling

/-! ## Executables -/

/-- The executable of a document that has been compiled to segments. -/
def Document.executable (document : Document) (setting : Setting) (segments : List Segment)
    (lastUsed : Instant) : Executable where
  documentName := document.name
  partition := document.partition
  timestamp := document.timestamp
  setting := setting
  segments := segments
  lastUsed := lastUsed

/-- With the adapters of a state, a document is compiled to some segments. -/
def World.Compiles (origin : World) (setting : Setting) (document : Document)
    (segments : List Segment) : Prop :=
  ∀ world, SameAdapters origin world →
    (newExecutable setting document).eval world =
      let added := world.executables.add (document.executable setting segments world.clock)
      (.ok added.1, { world.tick with executables := added.2 })

/-- With the adapters of a state, a document cannot be compiled. -/
def World.Refuses (origin : World) (setting : Setting) (document : Document)
    (error : ParsingError) : Prop :=
  ∀ world, SameAdapters origin world →
    (newExecutable setting document).eval world = (.error error, world) ∨
      (newExecutable setting document).eval world = (.error error, world.tick)

section Executables

variable {origin : World} {setting : Setting} {document : Document}

theorem World.Compiles.of_same {other : World} {segments : List Segment}
    (compiles : origin.Compiles setting document segments) (same : SameAdapters origin other) :
    other.Compiles setting document segments :=
  fun world otherSame => compiles world (same.trans otherSame)

theorem World.Refuses.of_same {other : World} {error : ParsingError}
    (refuses : origin.Refuses setting document error) (same : SameAdapters origin other) :
    other.Refuses setting document error :=
  fun world otherSame => refuses world (same.trans otherSame)

theorem World.Compiles.unique {segments others : List Segment}
    (compiles : origin.Compiles setting document segments)
    (compilesToo : origin.Compiles setting document others) : segments = others := by
  have same : SameAdapters origin origin := ⟨rfl, rfl⟩
  have equal := (compiles origin same).symm.trans (compilesToo origin same)
  have added := congrArg (fun result => result.2.executables.items) equal
  simpa [Arena.add, Document.executable] using added

theorem makeExecutable_compiles_or_refuses {segments : List Segment} (made : MadeOfMini segments) :
    (∀ world, SameAdapters origin world →
      (makeExecutable setting document segments).eval world =
        let added := world.executables.add (document.executable setting segments world.clock)
        (.ok added.1, { world.tick with executables := added.2 })) ∨
    ∃ error, ∀ world, SameAdapters origin world →
      (makeExecutable setting document segments).eval world = (.error error, world.tick) := by
  obtain ⟨prepared, ends⟩ : Settled origin (prepareSegments segments) :=
    prepareSegments_settled made
  by_cases prepare : setting.options.prepare = true
  · cases prepared with
    | error error =>
        refine .inr ⟨.preparation error, fun world same => ?_⟩
        have failed : ((prepareSegments segments).convert ParsingError.preparation).eval
            world.tick = (.error (.preparation error), world.tick) :=
          HostM.eval_convert_of_error (ends world.tick same)
        rw [makeExecutable, HostM.eval_bind_of_ok (HostM.eval_readClock _)]
        dsimp only
        rw [if_pos prepare, HostM.eval_bind_of_error failed]
    | ok done =>
        refine .inl fun world same => ?_
        have succeeded : ((prepareSegments segments).convert ParsingError.preparation).eval
            world.tick = (.ok (), world.tick) :=
          HostM.eval_convert_of_ok (ends world.tick same)
        rw [makeExecutable, HostM.eval_bind_of_ok (HostM.eval_readClock _)]
        dsimp only
        rw [if_pos prepare, HostM.eval_bind_of_ok succeeded]
        rfl
  · refine .inl fun world _ => ?_
    rw [makeExecutable, HostM.eval_bind_of_ok (HostM.eval_readClock _)]
    dsimp only
    rw [if_neg prepare]
    rfl

/-- What is compiled to segments is compiled or refused, as the adapters settle it. -/
theorem compiles_or_refuses_of_settled (produce : HostM ParsingError (List Segment))
    (settled : Settled origin produce)
    (made : ∀ segments, (produce.eval origin).1 = .ok segments → MadeOfMini segments)
    (compile : newExecutable setting document = produce >>= makeExecutable setting document) :
    (∃ segments, MadeOfMini segments ∧ origin.Compiles setting document segments) ∨
      ∃ error, origin.Refuses setting document error := by
  obtain ⟨outcome, ends⟩ := settled
  cases outcome with
  | error error =>
      refine .inr ⟨error, fun world same => .inl ?_⟩
      rw [compile, HostM.eval_bind_of_error (ends world same)]
  | ok segments =>
      have mini : MadeOfMini segments := made segments (by rw [ends origin ⟨rfl, rfl⟩])
      rcases makeExecutable_compiles_or_refuses mini with completes | ⟨error, fails⟩
      · refine .inl ⟨segments, mini, fun world same => ?_⟩
        rw [compile, HostM.eval_bind_of_ok (ends world same)]
        exact completes world same
      · refine .inr ⟨error, fun world same => .inr ?_⟩
        rw [compile, HostM.eval_bind_of_ok (ends world same)]
        exact fails world same

/-- A document without in-flow code is compiled or refused, as the adapters settle it. -/
theorem compiles_or_refuses (univocal : origin.Univocal setting.registry)
    (mini : origin.MiniRegistry setting.registry) (plain : setting.options.Plain document.text) :
    (∃ segments, MadeOfMini segments ∧ origin.Compiles setting document segments) ∨
      ∃ error, origin.Refuses setting document error := by
  have compiled (isScriptlet : Bool) (raw : List RawSegment) (segments : List Segment)
      (succeeded : ((compileSegments setting document isScriptlet raw).eval origin).1 =
        .ok segments) : MadeOfMini segments := by
    rw [World.eval_compileSegments mini] at succeeded
    exact madeOfMini_of_mapM succeeded
  by_cases program : setting.options.parser = programParser
  · refine compiles_or_refuses_of_settled (programSegments setting document) ?_ ?_ ?_
    · refine .get (compileSegments_settled univocal mini document false
        [.program document.text (origin.initialTag setting document) .start]) fun world same => ?_
      rw [same.initialTag univocal]
    · intro segments succeeded
      rw [programSegments, HostM.eval_bind_of_ok (HostM.eval_get _)] at succeeded
      exact compiled _ _ _ succeeded
    · rw [newExecutable]
      simp only [if_pos program]
  by_cases text : setting.options.parser = textParser
  · refine compiles_or_refuses_of_settled (textSegments setting document) ?_ ?_ ?_
    · exact compileSegments_settled univocal mini document false _
    · exact fun segments succeeded => compiled _ _ _ succeeded
    · rw [newExecutable]
      simp only [if_neg program, if_pos text]
  by_cases scriptlets : setting.options.parser = scriptletsParser
  · refine compiles_or_refuses_of_settled (scriptletSegments setting document) ?_ ?_ ?_
    · exact scriptletSegments_settled univocal mini scriptlets plain
    · intro segments succeeded
      obtain ⟨outcome, ends⟩ := splitDocument_settled univocal scriptlets plain
      have split := ends origin ⟨rfl, rfl⟩
      cases outcome with
      | error error =>
          rw [scriptletSegments, HostM.eval_bind_of_error split] at succeeded
          cases succeeded
      | ok raw =>
          rw [eval_scriptletSegments split] at succeeded
          exact compiled _ _ _ succeeded
    · rw [newExecutable]
      simp only [if_neg program, if_neg text, if_pos scriptlets]
  · refine .inr ⟨.unknownParser setting.options.parser, fun world _ => .inl ?_⟩
    rw [newExecutable]
    simp only [if_neg program, if_neg text, if_neg scriptlets]
    rfl

end Executables

end DocumentHost
