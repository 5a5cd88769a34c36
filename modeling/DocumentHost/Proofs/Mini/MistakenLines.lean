import DocumentHost.Mini.Language
import DocumentHost.Proofs.Host.SplitParts

/-!
# Lines of mistakes

A mistake in a Mini program is reported at a line of its document, counted from the line of the
opening in front of the program.  Between the opening and the code may be line breaks: in the
delimiter itself, in a marker, and in the blank behind a tag.  They are not counted.
-/

namespace DocumentHost

open HostM World

variable {setting : Setting} {document : Document} {world behind : World}

/-- The programs of compiled segments are what their adapters make of the texts. -/
theorem compiled_of_compileSegments {isScriptlet : Bool} {raw : List RawSegment}
    {segments : List Segment}
    (compiled : (compileSegments setting document isScriptlet raw).eval world =
      (.ok segments, behind)) {text tag : String} {position : Position} {id : AdapterId}
    {program : Program} (member : .program text tag position id program ∈ segments) :
    ((world.adapters.get id).adapter.compile
      ⟨text, document.place position, isScriptlet⟩).outcome = .ok program := by
  induction raw generalizing world segments with
  | nil =>
      cases compiled
      cases member
  | cons segment rest ih =>
      rw [compileSegments] at compiled
      obtain ⟨first, between, own, compiled⟩ := eval_bind_eq_ok_iff.1 compiled
      obtain ⟨others, after, further, returned⟩ := eval_bind_eq_ok_iff.1 compiled
      cases returned
      rcases List.mem_cons.1 member with rfl | member
      · rw [compileSegment] at own
        split at own
        · cases own
        dsimp only at own
        split at own
        · cases own
        · obtain ⟨found, start, required, reported⟩ := eval_bind_eq_ok_iff.1 own
          obtain ⟨-, rfl⟩ := eval_requireAdapter_eq_ok_iff.1 required
          rw [eval_bind_of_ok (eval_get _)] at reported
          obtain ⟨made, _, outcome, returned⟩ := eval_bind_eq_ok_iff.1 reported
          cases returned
          rw [eval_ofReported] at outcome
          exact congrArg Prod.fst outcome
      · have adapters := (SameAdapters.tolerant.compileSegment _ _ _ _).leads own
        rw [adapters.1]
        exact ih further member

theorem sameAdapters_of_splitDocument {outcome : Except ParsingError (List RawSegment)}
    (split : (splitDocument setting document).eval world = (outcome, behind)) :
    SameAdapters world behind := by
  rw [splitDocument, eval_bind_of_ok (eval_get _)] at split
  dsimp only at split
  split at split
  · cases split
    exact ⟨rfl, rfl⟩
  · exact (SameAdapters.tolerant.segmentsOfPieces
      (fun _ => SameAdapters.heedless.plantInFlow document _) setting _ _ _ _).leads split

/-- A document with scriptlets is split, and what it is split into is merged and compiled. -/
theorem compiled_of_scriptletSegments {segments : List Segment}
    (compiled : (scriptletSegments setting document).eval world = (.ok segments, behind)) :
    (∃ raw between, (splitDocument setting document).eval world = (.ok raw, between)) ∧
      ∀ text tag position id program, .program text tag position id program ∈ segments →
        ((world.adapters.get id).adapter.compile ⟨text, document.place position, true⟩).outcome =
          .ok program := by
  obtain ⟨raw, between, split, merged⟩ := eval_bind_eq_ok_iff.1 compiled
  rw [eval_bind_of_ok (eval_get _)] at merged
  refine ⟨⟨raw, between, split⟩, fun text tag position id program member => ?_⟩
  rw [(sameAdapters_of_splitDocument split).1]
  exact compiled_of_compileSegments merged member

namespace Mini

/-- A fragment that does not parse cannot be prepared and does not run. -/
theorem programOf_of_mistake {text : String} {mistake : SyntaxError}
    (unparsed : parse text = .error mistake) (place : Place) (isScriptlet : Bool) :
    (programOf ⟨text, place, isScriptlet⟩).prepare.outcome =
        .error (preparationError place mistake) ∧
      (programOf ⟨text, place, isScriptlet⟩).run =
        .fail (.ofPreparation (preparationError place mistake)) := by
  constructor <;> simp [programOf, statementsOf, unparsed, Except.mapError, Except.map]

/-- A document that is compiled has its parts in one way, and where the code of a scriptlet is a
segment of its own and a Mini program that does not parse, it cannot be prepared.  The mistake is
reported at its line in the code, as if the code began on the line of the opening.  That is the
line of the mistake in the document just when there is no line break between the place of the
opening and that of the code. -/
theorem mistaken_lines {segments : List Segment}
    (compiled : (scriptletSegments setting document).eval world = (.ok segments, behind)) :
    ∃ parts, PartsOf setting.options document.text.toList parts ∧
      ∀ part ∈ parts, part.kind = .program →
        ∀ tag id program profile mistake,
          let code := (setting.options.markers.wording part.text).code
          .program code tag (.behind part.passed) id program ∈ segments →
          (world.adapters.get id).adapter = adapter profile → parse code = .error mistake →
          ∃ pair lead error, FirstPair setting.options document.text.toList pair ∧
            let front := pair.opening.toList ++ lead
            let line := (Position.behind (part.passed ++ front)).line + mistake.position.line - 1
            part.text = lead ++ code.toList ∧
            part.passed ++ front ++ code.toList ++ pair.closing.toList <+: document.text.toList ∧
            program.prepare.outcome = .error error ∧ program.run = .fail (.ofPreparation error) ∧
            error.place.document = document.name ∧
            error.place.position.line + front.count '\n' = line ∧
            (error.place.position.line = line ↔ '\n' ∉ front) := by
  obtain ⟨⟨raw, between, split⟩, made⟩ := compiled_of_scriptletSegments compiled
  obtain ⟨parts, partsOf, -⟩ := renders_of_splitDocument split
  refine ⟨parts, partsOf, ?_⟩
  intro part member kind tag id program profile mistake code own mini unparsed
  obtain ⟨pair, first, stands⟩ := (partsOf.standsIn part member).scriptlet kind
  obtain ⟨lead, joined⟩ := setting.options.markers.exists_append_code part.text
  have isProgram := made _ _ _ _ _ own
  rw [mini] at isProgram
  cases isProgram
  obtain ⟨prepared, run⟩ :=
    programOf_of_mistake unparsed (document.place (.behind part.passed)) true
  have counted := Position.line_behind_append part.passed (pair.opening.toList ++ lead)
  have positive : 0 < (Position.behind part.passed).line := by
    rw [Position.behind]
    exact Nat.add_pos_left Nat.one_pos _
  refine ⟨pair, lead, _, first, joined, ?_, prepared, run, rfl, ?_, ?_⟩
  · rw [joined] at stands
    simpa [List.append_assoc] using stands
  · change (Position.behind part.passed).line + mistake.position.line - 1 + _ = _
    rw [counted]
    omega
  · rw [← List.count_eq_zero, counted]
    change (Position.behind part.passed).line + mistake.position.line - 1 = _ ↔ _
    omega

section Bogus

/-- A host that speaks Mini. -/
def bogusHost : World where
  toLanguages := .of [⟨adapter (.ofTag "Mini" "mini"), true⟩] [[⟨0⟩]]

/-- A document with a program that does not parse, on the line of its opening. -/
def bogus : Document where
  name := "page"
  text := "ok\n<%mini print 1;\n bogus%>"
  timestamp := ⟨0⟩

def bogusSetting : Setting where
  registry := ⟨0⟩
  sourced := false
  options := { parser := scriptletsParser, defaultTag := some "mini", delimiters := [⟨"<%", "%>"⟩] }

def bogusProgram : Program :=
  programOf ⟨"print 1;\n bogus", ⟨"page", ⟨2, 1⟩⟩, true⟩

theorem scriptletSegments_bogus :
    (scriptletSegments bogusSetting bogus).eval bogusHost =
      (.ok [.literal "ok\n" ⟨1, 1⟩, .program "print 1;\n bogus" "mini" ⟨2, 1⟩ ⟨0⟩ bogusProgram],
        bogusHost) := by
  have split : (splitDocument bogusSetting bogus).eval bogusHost =
      (.ok [.literal "ok\n" (some "mini") ⟨1, 1⟩,
        .program "print 1;\n bogus" (some "mini") ⟨2, 1⟩], bogusHost) := by cbv
  rw [scriptletSegments, eval_bind_of_ok split]
  rfl

/-- The scriptlet of the document. -/
def bogusPart : Part :=
  ⟨.program, "mini print 1;\n bogus".toList, "ok\n".toList, [], 1⟩

theorem partsOf_bogus :
    PartsOf bogusSetting.options bogus.text.toList
      [⟨.literal, "ok\n".toList, [], [], 0⟩, bogusPart] := by
  have opened : Text.FirstAt "<%".toList bogus.text.toList "ok\n".toList
      "mini print 1;\n bogus%>".toList := Text.cutAt?_eq_some_iff.1 (by decide)
  have closed : Text.FirstAt "%>".toList "mini print 1;\n bogus%>".toList
      "mini print 1;\n bogus".toList [] := Text.cutAt?_eq_some_iff.1 (by decide)
  have first : FirstPair bogusSetting.options bogus.text.toList ⟨"<%", "%>"⟩ :=
    ⟨[], [], _, _, rfl, ⟨by decide, by decide⟩, opened, nofun, nofun⟩
  exact .divided first (.scriptlet opened closed (.whole (by simp)))

/-- The mistake on the second line of the code is on the third line of the document. -/
theorem mistaken_lines_bogus :
    parse "print 1;\n bogus" = .error ⟨⟨2, 7⟩, .unknownStatement "bogus"⟩ ∧
      ∃ error, bogusProgram.prepare.outcome = .error error ∧ error.place.position.line = 3 := by
  have unparsed : parse "print 1;\n bogus" = .error ⟨⟨2, 7⟩, .unknownStatement "bogus"⟩ := rfl
  have code : (bogusSetting.options.markers.wording bogusPart.text).code = "print 1;\n bogus" := by
    decide +kernel
  have place : Position.behind bogusPart.passed = ⟨2, 1⟩ := by decide
  obtain ⟨parts, partsOf, lines⟩ := mistaken_lines scriptletSegments_bogus
  obtain rfl := partsOf.unique partsOf_bogus
  obtain ⟨pair, lead, error, -, joined, -, prepared, -, -, counted, -⟩ :=
    lines bogusPart (by simp) rfl "mini" ⟨0⟩ bogusProgram (.ofTag "Mini" "mini") _
      (by simp [code, place]) rfl (by rw [code]; exact unparsed)
  refine ⟨unparsed, error, prepared, ?_⟩
  rw [Position.line_behind_append, place] at counted
  dsimp only at counted
  omega

/-- A document whose program begins on the line behind its opening. -/
def broken : Document where
  name := "page"
  text := "<%mini\nprint 1;\nbogus%>"
  timestamp := ⟨0⟩

/-- Programs are prepared when the document is compiled. -/
def preparingSetting : Setting :=
  { bogusSetting with options := { bogusSetting.options with prepare := true } }

/-- The line break behind the tag is not counted. -/
theorem mistaken_line_behind_break :
    ∃ error mistake,
      ((newExecutable preparingSetting broken).eval bogusHost).1 = .error (.preparation error) ∧
      parse "print 1;\nbogus" = .error mistake ∧ error.cause = some mistake ∧
      broken.text.toList = "<%mini\n".toList ++ "print 1;\nbogus".toList ++ "%>".toList ∧
      error.place.position.line ≠
        (Position.behind "<%mini\n".toList).line + mistake.position.line - 1 := by
  refine ⟨⟨⟨"page", ⟨2, 6⟩⟩, "unknown statement 'bogus'",
    some ⟨⟨2, 6⟩, .unknownStatement "bogus"⟩⟩, ⟨⟨2, 6⟩, .unknownStatement "bogus"⟩,
    ?_, rfl, rfl, by decide, by decide⟩
  decide +kernel

end Bogus

end Mini

end DocumentHost
