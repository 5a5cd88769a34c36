import DocumentHost.Language.Echo
import DocumentHost.Mini.Language
import DocumentHost.Proofs.Host.SplitParts

/-!
# Tags that stick

The tag of a scriptlet sticks if the scriptlet is neither a comment nor in-flow code and the
tag stands for an adapter that is not ephemeral.  The tag in effect at a part of a document is
the last one in front of it that sticks, or else the initial one, and the segment of the part
is made in it.
-/

namespace DocumentHost.World

variable {world : World} {setting : Setting} {document : Document}

/-- The tag of a scriptlet stays in effect behind it. -/
structure Sticks (world : World) (setting : Setting) (body : List Char) (tag : String) :
    Prop where
  noComment : (setting.options.markers.wording body).treatment ≠ .comment
  noInFlow : (setting.options.markers.wording body).treatment ≠ .inFlow
  own : (setting.options.markers.wording body).tag = some tag
  lasting : ∃ adapter, world.languageOf? setting (some tag) = some adapter ∧
    adapter.profile.ephemeral = false

theorem stickingTag?_eq_some_iff {body : List Char} {tag : String} :
    world.stickingTag? setting (setting.options.markers.wording body) = some tag ↔
      world.Sticks setting body tag := by
  rw [stickingTag?]
  constructor
  · intro sticks
    split at sticks
    · cases sticks
    rename_i treated
    obtain ⟨own, lasting⟩ := Option.filter_eq_some_iff.1 sticks
    rw [not_or] at treated
    cases found : world.languageOf? setting (some tag) with
    | none => simp [found] at lasting
    | some adapter =>
        exact ⟨treated.1, treated.2, own, adapter, found, by simpa [found] using lasting⟩
  · rintro ⟨noComment, noInFlow, own, adapter, found, lasts⟩
    rw [if_neg (by simp [noComment, noInFlow]), own]
    simp [Option.filter, found, lasts]

theorem stickingTag?_eq_none_iff {body : List Char} :
    world.stickingTag? setting (setting.options.markers.wording body) = none ↔
      ∀ tag, ¬world.Sticks setting body tag := by
  rw [Option.eq_none_iff_forall_ne_some]
  exact forall_congr' fun tag => stickingTag?_eq_some_iff.not

/-- What follows a scriptlet whose tag sticks is in that tag, until another one sticks. -/
theorem tagInEffect_of_sticks {front back : List (List Char)} {body : List Char} {tag : String}
    (sticks : world.Sticks setting body tag)
    (last : ∀ later ∈ back, ∀ other, ¬world.Sticks setting later other) :
    world.tagInEffect setting document (front ++ body :: back) = some tag := by
  induction back using List.reverseRecOn with
  | nil => rw [tagInEffect_concat, stickingTag?_eq_some_iff.2 sticks, Option.some_or]
  | append_singleton back later ih =>
      rw [← List.cons_append, ← List.append_assoc, tagInEffect_concat,
        stickingTag?_eq_none_iff.2 (last later (by simp)), Option.none_or]
      exact ih fun earlier member => last earlier (by simp [member])

/-- Where no tag has stuck, the initial one is in effect. -/
theorem tagInEffect_of_none {earlier : List (List Char)}
    (none : ∀ body ∈ earlier, ∀ tag, ¬world.Sticks setting body tag) :
    world.tagInEffect setting document earlier = world.initialTag setting document := by
  induction earlier using List.reverseRecOn with
  | nil => rfl
  | append_singleton earlier body ih =>
      rw [tagInEffect_concat, stickingTag?_eq_none_iff.2 (none body (by simp)), Option.none_or]
      exact ih fun other member => none other (by simp [member])

/-- A scriptlet whose tag does not stick has no effect on what follows. -/
theorem tagInEffect_of_not_sticks {body : List Char}
    (passes : ∀ tag, ¬world.Sticks setting body tag) (front back : List (List Char)) :
    world.tagInEffect setting document (front ++ body :: back) =
      world.tagInEffect setting document (front ++ back) := by
  simp only [tagInEffect, List.filterMap_append, List.filterMap_cons,
    stickingTag?_eq_none_iff.2 passes]

/-- Where a document is split, it has its parts in one way, and a segment for each of them: a
literal in the tag in effect there, and a scriptlet in its own tag, or else in the one in
effect.  In-flow code is in the tag in effect whatever its own is.  What is in effect is the
last tag that has stuck, or else the initial one, and no other scriptlet has an effect on it. -/
theorem tags_stick {behind : World} {segments : List RawSegment}
    (split : (splitDocument setting document).eval world = (.ok segments, behind)) :
    (∃ parts, PartsOf setting.options document.text.toList parts ∧
      (∀ other, PartsOf setting.options document.text.toList other → other = parts) ∧
      parts.map Part.number = List.range parts.length ∧
      List.Forall₂ (world.Renders setting document) parts segments) ∧
    (∀ front body back tag, world.Sticks setting body tag →
      (∀ later ∈ back, ∀ other, ¬world.Sticks setting later other) →
      world.tagInEffect setting document (front ++ body :: back) = some tag) ∧
    (∀ earlier, (∀ body ∈ earlier, ∀ tag, ¬world.Sticks setting body tag) →
      world.tagInEffect setting document earlier = world.initialTag setting document) ∧
    ∀ front body back, (∀ tag, ¬world.Sticks setting body tag) →
      world.tagInEffect setting document (front ++ body :: back) =
        world.tagInEffect setting document (front ++ back) := by
  obtain ⟨parts, partsOf, rendered⟩ := renders_of_splitDocument split
  refine ⟨⟨parts, partsOf, fun other otherwise => otherwise.unique partsOf, partsOf.number,
    rendered⟩, ?_, ?_, ?_⟩
  · exact fun front body back tag => tagInEffect_of_sticks
  · exact fun earlier => tagInEffect_of_none
  · exact fun front body back passes => tagInEffect_of_not_sticks passes front back

section Mixed

/-- A host that speaks three languages, the last of them with an ephemeral adapter. -/
def mixedHost : World where
  toLanguages := .of
    [⟨Mini.adapter (.ofTag "Mini" "mini"), true⟩,
      ⟨Echo.adapter (.ofTag "Echo" "echo") {}, true⟩,
      ⟨Echo.adapter { AdapterProfile.ofTag "Flash" "flash" with ephemeral := true } {}, true⟩]
    [[⟨0⟩, ⟨1⟩, ⟨2⟩]]
  source := some (.inMemory "m")

/-- A document with scriptlets of every kind. -/
def mixed : Document where
  name := "page"
  text := "a<%echo one%>b<%--mini x%>c<%:mini print 1;%>d<%flash two%>e<% three%><%=mini 1%>f"
  timestamp := ⟨0⟩

def mixedSetting : Setting where
  registry := ⟨0⟩
  sourced := true
  options := { parser := scriptletsParser, defaultTag := some "mini" }

/-- The tags of in-flow code and of the ephemeral adapter do not stick. -/
theorem tags_stick_mixed :
    ∃ segments, ((splitDocument mixedSetting mixed).eval mixedHost).1 = .ok segments ∧
      segments.map RawSegment.tag =
        ["mini", "echo", "echo", "echo", "echo", "echo", "flash", "echo", "echo", "mini",
          "mini"].map some ∧
      ∃ parts, PartsOf mixedSetting.options mixed.text.toList parts ∧
        List.Forall₂ (mixedHost.Renders mixedSetting mixed) parts segments := by
  have tags : ((splitDocument mixedSetting mixed).eval mixedHost).1.map
      (fun segments => segments.map RawSegment.tag) =
        .ok (["mini", "echo", "echo", "echo", "echo", "echo", "flash", "echo", "echo", "mini",
          "mini"].map some) := by decide +kernel
  cases split : ((splitDocument mixedSetting mixed).eval mixedHost).1 with
  | error error =>
      rw [split] at tags
      cases tags
  | ok segments =>
      rw [split] at tags
      obtain ⟨⟨parts, partsOf, -, -, rendered⟩, -⟩ := tags_stick (Prod.fst_eq_iff.1 split)
      exact ⟨segments, rfl, Except.ok.inj tags, parts, partsOf, rendered⟩

end Mixed

end DocumentHost.World
