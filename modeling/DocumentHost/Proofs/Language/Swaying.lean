import DocumentHost.Proofs.Host.Composing
import DocumentHost.Proofs.Host.Programs

/-!
# Being swayed by what ran last

Where several adapters answer to a tag, the adapter that the current context used last is
taken if it is among them, and otherwise the foremost one.  So what ran last sways the
compilation of a document just when it is one of several that answer to a tag or an extension
that the compilation asks for, and not the foremost.
-/

namespace DocumentHost

namespace World

/-! ## Answers -/

/-- The adapter that ran last is one of several candidates, and not the foremost. -/
def Sways (world : World) (candidates : List AdapterId) : Prop :=
  ∃ last, world.lastUsed = some last ∧ 1 < candidates.length ∧ last ∈ candidates ∧
    world.foremost candidates ≠ some last

theorem preferred_eq_foremost_iff (world : World) (candidates : List AdapterId) :
    world.preferred candidates = world.foremost candidates ↔ ¬world.Sways candidates := by
  rw [preferred, Sways]
  cases world.lastUsed with
  | none => simp
  | some last =>
      dsimp only
      split
      · rename_i several
        rw [Bool.and_eq_true, decide_eq_true_eq, List.contains_iff_mem] at several
        constructor
        · rintro foremost ⟨_, equal, -, -, other⟩
          cases equal
          exact other foremost.symm
        · intro unswayed
          by_contra other
          exact unswayed ⟨last, rfl, several.1, several.2, fun foremost => other foremost.symm⟩
      · rename_i notSeveral
        rw [Bool.and_eq_true, decide_eq_true_eq, List.contains_iff_mem] at notSeveral
        refine iff_of_true rfl ?_
        rintro ⟨_, equal, several, member, -⟩
        cases equal
        exact notSeveral ⟨several, member⟩

/-- The tags for which the compilation of a document may ask: the one it starts out with, and
those that its scriptlets give themselves. -/
inductive Asks (world : World) (setting : Setting) (document : Document) : String → Prop where
  | initial {tag : String} (parser : setting.options.parser ≠ textParser)
      (isTag : world.initialTag setting document = some tag) : Asks world setting document tag
  | own {tag : String} {fence : Fence} {piece : Piece}
      (parser : setting.options.parser = scriptletsParser)
      (found : Fence.ofDocument? setting.options.delimiters document.text.toList = some fence)
      (member : piece ∈ Piece.cut fence document.text.toList .start)
      (isTag : piece.ownTag? setting.options.markers = some tag) : Asks world setting document tag

/-- The adapter that ran last sways nothing that the compilation of a document asks for. -/
structure Unswayed (world : World) (setting : Setting) (document : Document) : Prop where
  extension : setting.options.parser ≠ textParser → setting.options.defaultTag = none →
    ∀ extension, (nameExtension? document.name).or document.tag = some extension →
      ¬world.Sways (world.declaring setting.registry AdapterProfile.extensions extension)
  tags : ∀ tag, world.Asks setting document tag →
    ¬world.Sways (world.declaring setting.registry AdapterProfile.tags tag)

/-- A host outside of any execution. -/
def outside (world : World) : World :=
  { world with current := none }

/-- Outside of any execution nothing has run last. -/
theorem unswayed_of_current {world : World} (none : world.current = none) (setting : Setting)
    (document : Document) : world.Unswayed setting document := by
  have nothing (candidates : List AdapterId) : ¬world.Sways candidates := by
    rintro ⟨last, used, -⟩
    rw [lastUsed, none] at used
    cases used
  exact ⟨fun _ _ _ _ => nothing _, fun _ _ => nothing _⟩

end World

open World

namespace SameAdapters

variable {world other : World} {registry : RegistryId}

theorem foremost (same : SameAdapters world other) (candidates : List AdapterId) :
    other.foremost candidates = world.foremost candidates := by
  unfold World.foremost
  rw [same.profile]

/-- If nothing is swayed, a tag is answered by the foremost adapter. -/
theorem adapterForTag_of_unswayed (same : SameAdapters world other) {tag : String}
    (unswayed : ¬world.Sways (world.declaring registry AdapterProfile.tags tag))
    (otherUnswayed : ¬other.Sways (other.declaring registry AdapterProfile.tags tag)) :
    world.adapterForTag registry tag = other.adapterForTag registry tag := by
  rw [adapterForTag_eq, adapterForTag_eq, (preferred_eq_foremost_iff _ _).2 unswayed,
    (preferred_eq_foremost_iff _ _).2 otherUnswayed, same.foremost, same.declaring]

/-- If nothing is swayed, a document starts out with the tag of the foremost adapter. -/
theorem initialTag_of_unswayed (same : SameAdapters world other) {setting : Setting}
    {document : Document} (parser : setting.options.parser ≠ textParser)
    (unswayed : world.Unswayed setting document) (otherUnswayed : other.Unswayed setting document) :
    other.initialTag setting document = world.initialTag setting document := by
  rw [World.initialTag, World.initialTag]
  cases chosen : setting.options.defaultTag with
  | some tag => rfl
  | none =>
      rw [adapterForExtension_eq, adapterForExtension_eq]
      cases found : (nameExtension? document.name).or document.tag with
      | none => rfl
      | some extension =>
          have first := unswayed.extension parser chosen extension found
          have second := otherUnswayed.extension parser chosen extension found
          rw [Option.bind_some, Option.bind_some, (preferred_eq_foremost_iff _ _).2 first,
            (preferred_eq_foremost_iff _ _).2 second, same.foremost, same.declaring]
          rw [same.profile]

end SameAdapters

end DocumentHost
