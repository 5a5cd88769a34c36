import DocumentHost.Proofs.Host.Compiling
import DocumentHost.Proofs.Host.Releasing

/-!
# The languages of raw segments

A document that can be taken apart names only languages that are known: whatever in-flow
code is compiled meanwhile, the program segments have tags for which the registry has an
adapter, and the adapters stay as they are.
-/

namespace DocumentHost

/-- Two states are one, in a host that speaks Mini and still has the adapters that it had
in an earlier state. -/
structure StillSpeaking (origin world other : World) : Prop where
  same : other = world
  adapters : SameAdapters origin world
  speaks : world.SpeaksMini

theorem World.ReleasesOnly.sameAdapters {spared : ContextId → Prop} {world changed : World}
    (only : World.ReleasesOnly spared world changed) : SameAdapters world changed := by
  rw [only.rest]
  exact ⟨rfl, rfl⟩

theorem World.ReleasesOnly.executables_eq {spared : ContextId → Prop} {world changed : World}
    (only : World.ReleasesOnly spared world changed) : changed.executables = world.executables := by
  rw [only.rest]

namespace StillSpeaking

variable {origin world other : World}

theorem compiling (origin : World) : Compiling (StillSpeaking origin) where
  visible still := by rw [still.same]
  speaks still := still.speaks
  quiet {world other change} quiet still := {
    same := by rw [still.same]
    adapters := still.adapters.trans (quiet.sameAdapters world)
    speaks := still.speaks.of_eq (quiet.sameAdapters world) (quiet.executables world) }
  releaseUnheld {world other} still := by
    have only := World.ReleasesOnly.releaseUnheld world
    exact ⟨by rw [still.same], still.adapters.trans only.sameAdapters,
      still.speaks.of_eq only.sameAdapters only.executables_eq⟩
  addExecutable executable speak still :=
    ⟨by rw [still.same], still.adapters, still.speaks.addExecutable speak⟩

end StillSpeaking

/-- A host that speaks Mini still does so when a document has been compiled. -/
theorem World.SpeaksMini.newExecutable {origin : World} (speaks : origin.SpeaksMini)
    (setting : Setting) (document : Document) :
    ((newExecutable setting document).eval origin).2.SpeaksMini := by
  have still : StillSpeaking origin origin origin := ⟨rfl, ⟨rfl, rfl⟩, speaks⟩
  exact ((StillSpeaking.compiling origin).newExecutable_agree document _ _ still).2.speaks

/-- A literal, or a program in a language that is known. -/
def RawSegment.Known (world : World) (setting : Setting) (segment : RawSegment) : Prop :=
  segment.kind = .program →
    ∃ tag, segment.tag = some tag ∧ (world.adapterForTag setting.registry tag).isSome

section Known

variable {origin : World} {setting : Setting}

theorem requireAdapter_gives (univocal : origin.Univocal setting.registry) (place : Place)
    (tag : String) :
    Gives (StillSpeaking origin)
      (fun _ => (origin.adapterForTag setting.registry tag).isSome = true)
      (requireAdapter setting place tag) := by
  intro world other still id succeeded
  rw [World.eval_requireAdapter, ← still.adapters.adapterForTag univocal] at succeeded
  cases found : origin.adapterForTag setting.registry tag with
  | none =>
      rw [found] at succeeded
      cases succeeded
  | some adapter => rfl

theorem inFlowSegment_gives (univocal : origin.Univocal setting.registry) (document : Document)
    (activeTag : Option String) (number : Nat) (code tag : String) (position : Position) :
    Gives (StillSpeaking origin) (RawSegment.Known origin setting)
      (inFlowSegment setting document activeTag number code tag position) := by
  have compiling := StillSpeaking.compiling origin
  unfold inFlowSegment
  refine .get fun world other still => ?_
  dsimp only
  split
  · exact Gives.throw _ world other still
  cases activeTag with
  | none => exact Gives.throw _ world other still
  | some active =>
      refine (Gives.bind_giving (compiling.requireAdapter_agree _ active)
        (requireAdapter_gives univocal _ active) fun adapter isKnown => ?_) world other still
      refine .bind (compiling.seedInFlow_agree document _ code tag) fun _ => ?_
      refine .bind (compiling.codeForInclude_agree _ adapter _) fun text => ?_
      exact .pure fun _ => ⟨active, rfl, isKnown⟩

theorem scriptletSegment_gives (univocal : origin.Univocal setting.registry) (document : Document)
    (activeTag : Option String) (number : Nat) (body : List Char) (position : Position) :
    Gives (StillSpeaking origin)
      (fun result => ∀ segment, result.1 = some segment → segment.Known origin setting)
      (scriptletSegment setting document activeTag number body position) := by
  have compiling := StillSpeaking.compiling origin
  unfold scriptletSegment
  generalize treatmentOf body setting.options.markers.treatments = treated
  obtain ⟨treatment, marked⟩ := treated
  dsimp only
  split
  · exact .pure nofun
  generalize leadingTag marked = led
  obtain ⟨explicit, code⟩ := led
  dsimp only
  cases (explicit.map String.ofList).or activeTag with
  | none => exact .throw _
  | some tag =>
      refine .bind_giving (compiling.requireAdapter_agree _ tag)
        (requireAdapter_gives univocal _ tag) fun adapter isKnown => ?_
      have known (text : String) :
          (RawSegment.program text (some tag) position).Known origin setting :=
        fun _ => ⟨tag, rfl, isKnown⟩
      have given (text : String) (next : Option String) :
          ∀ segment, (some (RawSegment.program text (some tag) position), next).1 = some segment →
            segment.Known origin setting := by
        intro segment equal
        cases equal
        exact known text
      refine .get fun world other still => ?_
      cases treatment with
      | comment => exact Gives.pure (given _ _) world other still
      | code => exact Gives.pure (given _ _) world other still
      | expression =>
          exact Gives.bind (compiling.codeForExpression_agree _ adapter _)
            (fun text => .pure (given _ _)) world other still
      | documentInclude =>
          exact Gives.bind (compiling.codeForInclude_agree _ adapter _)
            (fun text => .pure (given _ _)) world other still
      | inFlow =>
          dsimp only
          split
          · exact Gives.pure (given _ _) world other still
          · refine Gives.bind_giving
              (compiling.inFlowSegment_agree document activeTag number _ tag position)
              (inFlowSegment_gives univocal document activeTag number _ tag position)
              (fun segment isKnown => .pure ?_) world other still
            intro other equal
            cases equal
            exact isKnown

/-- By induction on the pieces. -/
theorem segmentsOfPieces_gives (univocal : origin.Univocal setting.registry) (document : Document)
    (closing : String) (tag : Option String) (number : Nat) (pieces : List Piece) :
    Gives (StillSpeaking origin) (fun segments => ∀ segment ∈ segments, segment.Known origin setting)
      (segmentsOfPieces setting document closing tag number pieces) := by
  have compiling := StillSpeaking.compiling origin
  induction pieces generalizing tag number with
  | nil => exact .pure nofun
  | cons piece rest ih =>
      cases piece with
      | literal text position =>
          refine .bind_giving (compiling.segmentsOfPieces_agree document closing tag (number + 1) rest)
            (ih tag (number + 1)) fun others known => .pure ?_
          exact List.forall_mem_cons.2 ⟨nofun, known⟩
      | unclosed position => exact .throw _
      | scriptlet body position =>
          unfold segmentsOfPieces
          refine .bind_giving (compiling.scriptletSegment_agree document tag number body position)
            (scriptletSegment_gives univocal document tag number body position) ?_
          rintro ⟨_ | segment, nextTag⟩ known
          · exact ih nextTag number
          · refine .bind_giving
              (compiling.segmentsOfPieces_agree document closing nextTag (number + 1) rest)
              (ih nextTag (number + 1)) fun others othersKnown => .pure ?_
            exact List.forall_mem_cons.2 ⟨known segment rfl, othersKnown⟩

/-- The raw segments of a document are in languages that are known. -/
theorem splitDocument_known (speaks : origin.SpeaksMini) {document : Document} {behind : World}
    {segments : List RawSegment}
    (split : (splitDocument setting document).eval origin = (.ok segments, behind)) :
    (∀ segment ∈ segments, segment.Known origin setting) ∧ StillSpeaking origin behind behind := by
  have univocal := speaks.univocal setting.registry
  have still : StillSpeaking origin origin origin := ⟨rfl, ⟨rfl, rfl⟩, speaks⟩
  have compiling := StillSpeaking.compiling origin
  have gives : Gives (StillSpeaking origin)
      (fun segments => ∀ segment ∈ segments, segment.Known origin setting)
      (splitDocument setting document) := by
    unfold splitDocument
    refine .get fun world other still => ?_
    dsimp only
    split
    · refine Gives.pure ?_ world other still
      exact List.forall_mem_singleton.2 nofun
    · exact segmentsOfPieces_gives univocal document _ _ 0 _ world other still
  have agree : AgreeFrom (StillSpeaking origin) origin origin (splitDocument setting document)
      (splitDocument setting document) := compiling.splitDocument_agree document _ _ still
  rw [AgreeFrom, split] at agree
  exact ⟨gives origin origin still segments (by rw [split]), agree.2⟩

end Known

end DocumentHost
