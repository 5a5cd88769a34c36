import DocumentHost.Host.Compile
import DocumentHost.Proofs.Language.Univocal
import DocumentHost.Proofs.Outcome

/-!
# Segments in a Mini registry

In a registry that has Mini adapters only, a raw segment can be compiled as soon as the
language in effect is known there, whatever its text says; and compiling leaves the state
of the host as it is.
-/

namespace DocumentHost

namespace World

variable {world : World} {setting : Setting}

@[simp]
theorem noteAll_nil (world : World) : world.noteAll [] = world := by
  simp [noteAll]

/-- The compiled form of a raw segment in a registry of Mini adapters. -/
def miniSegment (world : World) (setting : Setting) (document : Document) (isScriptlet : Bool)
    (segment : RawSegment) : Except ParsingError Segment :=
  let place := document.place segment.position
  match segment.kind, segment.tag with
  | .literal, _ => .ok (.literal segment.text segment.position)
  | .program, none => .error (.noAdapter place "")
  | .program, some tag =>
      match world.adapterForTag setting.registry tag with
      | none => .error (.noAdapter place tag)
      | some id =>
          .ok (.program segment.text tag segment.position id
            (Mini.programOf ⟨segment.text, place, isScriptlet⟩))

theorem eval_requireAdapter (setting : Setting) (place : Place) (tag : String) (world : World) :
    (requireAdapter setting place tag).eval world =
      ((world.adapterForTag setting.registry tag).elim (.error (.noAdapter place tag)) .ok,
        world) := by
  rw [requireAdapter, HostM.eval_bind_of_ok (HostM.eval_get _)]
  cases world.adapterForTag setting.registry tag <;> rfl

theorem eval_requireAdapter_eq_ok_iff {setting : Setting} {place : Place} {tag : String}
    {world after : World} {adapter : AdapterId} :
    (requireAdapter setting place tag).eval world = (.ok adapter, after) ↔
      world.adapterForTag setting.registry tag = some adapter ∧ after = world := by
  rw [eval_requireAdapter]
  cases world.adapterForTag setting.registry tag with
  | none => simp
  | some found => simp [eq_comm]

theorem eval_compileSegment (mini : world.MiniRegistry setting.registry) (document : Document)
    (isScriptlet : Bool) (segment : RawSegment) :
    (compileSegment setting document isScriptlet segment).eval world =
      (world.miniSegment setting document isScriptlet segment, world) := by
  obtain ⟨kind, text, tag, position⟩ := segment
  cases kind with
  | literal => rfl
  | program =>
      cases tag with
      | none => rfl
      | some tag =>
          simp only [compileSegment, miniSegment]
          have required := eval_requireAdapter setting (document.place position) tag world
          cases found : world.adapterForTag setting.registry tag with
          | none =>
              rw [found] at required
              rw [HostM.eval_bind_of_error required]
          | some id =>
              rw [found] at required
              obtain ⟨profile, isMini⟩ := mini id (mem_of_adapterForTag found)
              rw [HostM.eval_bind_of_ok required, HostM.eval_bind_of_ok (HostM.eval_get _),
                isMini]
              have compiled := HostM.eval_ofReported
                ((Mini.adapter profile).compile ⟨text, document.place position, isScriptlet⟩) world
              rw [show (Mini.adapter profile).compile _ = ⟨[], .ok (Mini.programOf _)⟩ from rfl,
                noteAll_nil] at compiled
              exact HostM.eval_bind_of_ok compiled

theorem eval_compileSegments (mini : world.MiniRegistry setting.registry) (document : Document)
    (isScriptlet : Bool) (segments : List RawSegment) :
    (compileSegments setting document isScriptlet segments).eval world =
      (segments.mapM (world.miniSegment setting document isScriptlet), world) := by
  induction segments with
  | nil => rfl
  | cons segment rest ih =>
      have first := eval_compileSegment mini document isScriptlet segment
      rw [compileSegments, List.mapM_cons, HostM.eval_bind, first]
      cases world.miniSegment setting document isScriptlet segment with
      | error error => rfl
      | ok compiled =>
          change (_ >>= _ : HostM _ _).eval world = _
          rw [HostM.eval_bind, ih]
          cases rest.mapM (world.miniSegment setting document isScriptlet) <;> rfl

theorem programOf_asks (fragment : Fragment) : (Mini.programOf fragment).run.Asks Mini.Makes := by
  simp only [Mini.programOf]
  cases Mini.statementsOf fragment with
  | ok statements => exact Mini.runProgram_asks statements
  | error error => exact .fail _

/-- A program that has been compiled is that of its text, and the adapter of its tag has compiled
it. -/
theorem compiledFrom_of_mapM {document : Document} {isScriptlet : Bool} {raw : List RawSegment}
    {segments : List Segment}
    (compiled : raw.mapM (world.miniSegment setting document isScriptlet) = .ok segments)
    {text tag : String} {position : Position} {adapter : AdapterId} {program : Program}
    (member : Segment.program text tag position adapter program ∈ segments) :
    world.adapterForTag setting.registry tag = some adapter ∧
      program = Mini.programOf ⟨text, document.place position, isScriptlet⟩ := by
  rw [Outcome.mapM_eq_ok_iff] at compiled
  induction compiled with
  | nil => cases member
  | @cons segment _ _ _ segmentCompiled _ ih =>
      rcases List.mem_cons.1 member with rfl | inRest
      · simp only [miniSegment] at segmentCompiled
        split at segmentCompiled
        · cases segmentCompiled
        · cases segmentCompiled
        · split at segmentCompiled
          · cases segmentCompiled
          · rename_i found
            cases segmentCompiled
            exact ⟨found, rfl⟩
      · exact ih inRest

/-- What has been compiled speaks Mini. -/
theorem speakMini_of_mapM {document : Document} {isScriptlet : Bool} {raw : List RawSegment}
    {segments : List Segment}
    (compiled : raw.mapM (world.miniSegment setting document isScriptlet) = .ok segments) :
    SpeakMini segments := by
  intro text tag position adapter program member
  obtain ⟨-, rfl⟩ := compiledFrom_of_mapM compiled member
  exact programOf_asks _

end World

/-- The compiled form depends on the adapters only. -/
theorem SameAdapters.miniSegment {world other : World} (same : SameAdapters world other)
    {setting : Setting} (univocal : world.Univocal setting.registry) (document : Document)
    (isScriptlet : Bool) :
    world.miniSegment setting document isScriptlet =
      other.miniSegment setting document isScriptlet := by
  funext segment
  simp only [World.miniSegment, same.adapterForTag univocal]

end DocumentHost
