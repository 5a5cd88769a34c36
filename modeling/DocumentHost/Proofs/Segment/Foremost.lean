import DocumentHost.Proofs.Text.Occurrence
import DocumentHost.Segment.Piece

/-!
# The delimiters of a document

Of all usable pairs of delimiters a document has the one that opens first, of several
that open at one place the one that stands first in the options.
-/

namespace DocumentHost

/-- A pair is ignored if one of its delimiters is empty. -/
def Delimiters.Usable (pair : Delimiters) : Prop :=
  pair.opening ≠ "" ∧ pair.closing ≠ ""

/-- A pair opens in a text before all pairs in front of it in the options, and no later
than those behind it. -/
structure OpensFirst (text : List Char) (front : List Delimiters) (pair : Delimiters)
    (back : List Delimiters) (before inside : List Char) : Prop where
  usable : pair.Usable
  opened : Text.FirstAt pair.opening.toList text before inside
  earlier : ∀ other ∈ front, other.Usable → ∀ passed rest,
    text = passed ++ other.opening.toList ++ rest → before.length < passed.length
  noLater : ∀ other ∈ back, other.Usable → ∀ passed rest,
    text = passed ++ other.opening.toList ++ rest → before.length ≤ passed.length

namespace OpensFirst

variable {text before inside : List Char} {front back : List Delimiters} {pair : Delimiters}

/-- No usable pair opens before the foremost one. -/
theorem length_le (opens : OpensFirst text front pair back before inside) {other : Delimiters}
    (member : other ∈ front ++ pair :: back) (usable : other.Usable) {passed rest : List Char}
    (joined : text = passed ++ other.opening.toList ++ rest) :
    before.length ≤ passed.length := by
  rcases List.mem_append.1 member with inFront | member
  · exact (opens.earlier other inFront usable passed rest joined).le
  rcases List.mem_cons.1 member with rfl | inBack
  · exact opens.opened.earliest passed rest joined
  · exact opens.noLater other inBack usable passed rest joined

/-- A pair may be put in front that opens later or not at all. -/
theorem cons (opens : OpensFirst text front pair back before inside) {first : Delimiters}
    (later : first.Usable → ∀ passed rest,
      text = passed ++ first.opening.toList ++ rest → before.length < passed.length) :
    OpensFirst text (first :: front) pair back before inside := by
  refine { opens with earlier := ?_ }
  intro other member usable
  rcases List.mem_cons.1 member with rfl | member
  · exact later usable
  · exact opens.earlier other member usable

/-- Of two pairs the one that stands first among the pairs cannot be beaten. -/
theorem not_lt {otherFront otherBack : List Delimiters} {otherPair : Delimiters}
    {otherBefore otherInside : List Char}
    (opens : OpensFirst text front pair back before inside)
    (otherwise : OpensFirst text otherFront otherPair otherBack otherBefore otherInside)
    (same : front ++ pair :: back = otherFront ++ otherPair :: otherBack) :
    ¬front.length < otherFront.length := by
  intro shorter
  have inFront : pair ∈ otherFront := by
    have found : (otherFront ++ otherPair :: otherBack)[front.length]? = some pair := by
      rw [← same]
      simp
    rw [List.getElem?_append_left shorter] at found
    exact List.mem_of_getElem? found
  have earlier := otherwise.earlier pair inFront opens.usable _ _ opens.opened.joined
  have member : otherPair ∈ front ++ pair :: back := by
    rw [same]
    simp
  have noLater := opens.length_le member otherwise.usable otherwise.opened.joined
  omega

/-- One place in the options opens first. -/
theorem unique {otherFront otherBack : List Delimiters} {otherPair : Delimiters}
    {otherBefore otherInside : List Char}
    (opens : OpensFirst text front pair back before inside)
    (otherwise : OpensFirst text otherFront otherPair otherBack otherBefore otherInside)
    (same : front ++ pair :: back = otherFront ++ otherPair :: otherBack) : pair = otherPair := by
  have noEarlier := opens.not_lt otherwise same
  have noLater := otherwise.not_lt opens same.symm
  obtain ⟨-, rest⟩ := List.append_inj same (by omega)
  exact (List.cons.inj rest).1

end OpensFirst

namespace Fence

theorem ofDelimiters?_eq_some {pair : Delimiters} {fence : Fence}
    (made : ofDelimiters? pair = some fence) :
    pair.Usable ∧ fence.opening = pair.opening.toList ∧
      fence.closing = pair.closing.toList := by
  unfold ofDelimiters? at made
  split at made
  · rename_i nonempty
    cases made
    exact ⟨by simpa [Delimiters.Usable] using nonempty, rfl, rfl⟩
  · cases made

theorem ofDelimiters?_eq_none_iff {pair : Delimiters} :
    ofDelimiters? pair = none ↔ ¬pair.Usable := by
  simp [ofDelimiters?, Delimiters.Usable]

theorem offset?_eq_none_iff {fence : Fence} {text : List Char} :
    fence.offset? text = none ↔ ¬fence.opening <:+: text := by
  rw [offset?, Option.map_eq_none_iff, Text.cutAt?_eq_none_iff]

theorem exists_firstAt_of_offset? {fence : Fence} {text : List Char} {offset : Nat}
    (found : fence.offset? text = some offset) :
    ∃ before inside, Text.FirstAt fence.opening text before inside ∧ before.length = offset := by
  obtain ⟨⟨before, inside⟩, cut, rfl⟩ := Option.map_eq_some_iff.1 found
  exact ⟨before, inside, Text.firstAt_of_cutAt? cut, rfl⟩

/-- Nothing is foremost just when no fence opens. -/
theorem foremost?_eq_none_iff {text : List Char} {fences : List Fence} :
    foremost? text fences = none ↔ ∀ fence ∈ fences, ¬fence.opening <:+: text := by
  induction fences with
  | nil => simp [foremost?]
  | cons fence fences ih =>
      rw [foremost?, List.forall_mem_cons, ← ih, ← offset?_eq_none_iff]
      cases fence.offset? text with
      | none => simp
      | some here =>
          cases foremost? text fences with
          | none => simp
          | some there =>
              simp only [reduceCtorEq, false_and, iff_false]
              split <;> simp

/-- The foremost fence is that of the pair that opens first.  By induction on the
pairs: the first of them competes with the foremost of the others. -/
theorem exists_opensFirst {text : List Char} {delimiters : List Delimiters} {offset : Nat}
    {fence : Fence}
    (found : foremost? text (delimiters.filterMap ofDelimiters?) = some (offset, fence)) :
    ∃ front pair back before inside, delimiters = front ++ pair :: back ∧
      ofDelimiters? pair = some fence ∧ before.length = offset ∧
      OpensFirst text front pair back before inside := by
  induction delimiters generalizing offset fence with
  | nil => cases found
  | cons first others ih =>
      cases made : ofDelimiters? first with
      | none =>
          rw [List.filterMap_cons_none made] at found
          obtain ⟨front, pair, back, before, inside, rfl, ofPair, length, opens⟩ := ih found
          refine ⟨first :: front, pair, back, before, inside, rfl, ofPair, length, ?_⟩
          exact opens.cons fun usable => absurd usable (ofDelimiters?_eq_none_iff.1 made)
      | some own =>
          obtain ⟨usable, opening, -⟩ := ofDelimiters?_eq_some made
          rw [List.filterMap_cons_some made, foremost?] at found
          split at found
          · rename_i here there other atHere atThere
            obtain ⟨before, inside, opened, length⟩ := exists_firstAt_of_offset? atHere
            obtain ⟨front, pair, back, otherBefore, otherInside, rfl, ofPair, otherLength, opens⟩ :=
              ih atThere
            rw [opening] at opened
            split at found
            · rename_i noLater
              cases found
              refine ⟨[], first, _, before, inside, rfl, made, length, usable, opened, by simp, ?_⟩
              intro pair member usable passed rest joined
              have := opens.length_le member usable joined
              omega
            · rename_i later
              cases found
              refine ⟨first :: front, pair, back, otherBefore, otherInside, rfl, ofPair,
                otherLength, opens.cons ?_⟩
              intro _ passed rest joined
              have := opened.earliest passed rest joined
              omega
          · rename_i here atHere noOther
            cases found
            obtain ⟨before, inside, opened, length⟩ := exists_firstAt_of_offset? atHere
            rw [opening] at opened
            refine ⟨[], first, _, before, inside, rfl, made, length, usable, opened, by simp, ?_⟩
            intro pair member usable passed rest joined
            obtain ⟨fence, ofPair⟩ := Option.ne_none_iff_exists'.1
              (mt ofDelimiters?_eq_none_iff.1 (not_not.2 usable))
            have missing := foremost?_eq_none_iff.1 noOther fence
              (List.mem_filterMap.2 ⟨pair, member, ofPair⟩)
            rw [(ofDelimiters?_eq_some ofPair).2.1] at missing
            exact absurd ⟨passed, rest, joined.symm⟩ missing
          · rename_i noOpening
            obtain ⟨front, pair, back, before, inside, rfl, ofPair, length, opens⟩ := ih found
            refine ⟨first :: front, pair, back, before, inside, rfl, ofPair, length, opens.cons ?_⟩
            intro _ passed rest joined
            rw [offset?_eq_none_iff, opening] at noOpening
            exact absurd ⟨passed, rest, joined.symm⟩ noOpening

/-- The fence of a document is that of the pair that opens first. -/
theorem ofDocument?_eq_some {delimiters front back : List Delimiters} {pair : Delimiters}
    {text before inside : List Char} (among : delimiters = front ++ pair :: back)
    (opens : OpensFirst text front pair back before inside) :
    ∃ fence, ofDocument? delimiters text = some fence ∧ ofDelimiters? pair = some fence := by
  cases found : foremost? text (delimiters.filterMap ofDelimiters?) with
  | none =>
      obtain ⟨fence, ofPair⟩ := Option.ne_none_iff_exists'.1
        (mt ofDelimiters?_eq_none_iff.1 (not_not.2 opens.usable))
      have missing := foremost?_eq_none_iff.1 found fence
        (List.mem_filterMap.2 ⟨pair, by simp [among], ofPair⟩)
      rw [(ofDelimiters?_eq_some ofPair).2.1] at missing
      exact absurd opens.opened.isInfix missing
  | some result =>
      obtain ⟨otherFront, otherPair, otherBack, _, _, otherwise, ofPair, -, opensToo⟩ :=
        exists_opensFirst found
      rw [opens.unique opensToo (among.symm.trans otherwise)]
      exact ⟨result.2, by rw [ofDocument?, found]; rfl, ofPair⟩

/-- A document has no fence just when no usable pair opens in it. -/
theorem ofDocument?_eq_none_iff {delimiters : List Delimiters} {text : List Char} :
    ofDocument? delimiters text = none ↔
      ∀ pair ∈ delimiters, pair.Usable → ¬pair.opening.toList <:+: text := by
  rw [ofDocument?, Option.map_eq_none_iff, foremost?_eq_none_iff]
  constructor
  · intro missing pair member usable
    obtain ⟨fence, ofPair⟩ := Option.ne_none_iff_exists'.1
      (mt ofDelimiters?_eq_none_iff.1 (not_not.2 usable))
    rw [← (ofDelimiters?_eq_some ofPair).2.1]
    exact missing fence (List.mem_filterMap.2 ⟨pair, member, ofPair⟩)
  · intro missing fence member
    obtain ⟨pair, member, ofPair⟩ := List.mem_filterMap.1 member
    obtain ⟨usable, opening, -⟩ := ofDelimiters?_eq_some ofPair
    rw [opening]
    exact missing pair member usable

end Fence

end DocumentHost
