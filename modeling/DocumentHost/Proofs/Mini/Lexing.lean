import DocumentHost.Proofs.Mini.Completeness

/-!
# The lexemes of a text

A text falls into lexemes in one way.  The first character of a lexeme tells its kind,
and since words, numbers, indices and comments are taken at full length, it ends at one
place.
-/

namespace DocumentHost.Mini

/-- The kind of lexeme that begins with a character. -/
def kindAt (first : Char) : Nat :=
  if startsWord first then 0
  else if isDigit first || first = '-' then 1
  else if first = '$' then 2
  else if first = '"' then 3
  else if first = ';' then 5
  else if first = '#' then 6
  else 4

theorem Form.ctorIdx_eq {first : Char} {rest : List Char} {lexeme : Lexeme}
    (form : Form (first :: rest) lexeme) : lexeme.ctorIdx = kindAt first := by
  cases form with
  | word starts _ =>
      rw [kindAt, if_pos starts]
      rfl
  | natural _ decimal _ =>
      have digit : isDigit first = true := decimal first (by simp)
      rw [kindAt, if_neg (by simp [not_startsWord_of_isDigit digit]), if_pos (by simp [digit])]
      rfl
  | negative | argument | text | semicolon | comment => rfl
  | mark known =>
      revert known
      simp only [marks, List.mem_cons, List.not_mem_nil, or_false]
      rintro (rfl | rfl | rfl | rfl | rfl | rfl | rfl) <;> decide

/-- A longest run at the front of a text is determined by the text. -/
theorem run_unique {test : Char → Bool} {front otherFront rest otherRest : List Char}
    (passes : ∀ character ∈ front, test character = true)
    (otherPasses : ∀ character ∈ otherFront, test character = true)
    (stops : ∀ character ∈ rest.head?, test character = false)
    (otherStops : ∀ character ∈ otherRest.head?, test character = false)
    (same : front ++ rest = otherFront ++ otherRest) :
    front = otherFront ∧ rest = otherRest := by
  obtain ⟨taken, dropped⟩ := takeWhile_append_of_stops passes stops
  obtain ⟨otherTaken, otherDropped⟩ := takeWhile_append_of_stops otherPasses otherStops
  rw [same] at taken dropped
  exact ⟨taken.symm.trans otherTaken, dropped.symm.trans otherDropped⟩

theorem TextBody.unique {written otherWritten value otherValue rest otherRest : List Char}
    (body : TextBody written value) (otherBody : TextBody otherWritten otherValue)
    (same : written ++ '"' :: rest = otherWritten ++ '"' :: otherRest) :
    value = otherValue ∧ rest = otherRest := by
  obtain ⟨behind, read, rfl⟩ := readTextBody_complete body .start rest
  obtain ⟨otherBehind, otherRead, rfl⟩ := readTextBody_complete otherBody .start otherRest
  rw [same, otherRead] at read
  cases read
  exact ⟨rfl, rfl⟩

theorem continues_cons {first : Char} {rest : List Char} (starts : startsWord first = true)
    (continues : ∀ character ∈ rest, continuesWord character = true) :
    ∀ character ∈ first :: rest, continuesWord character = true :=
  List.forall_mem_cons.2 ⟨continuesWord_of_startsWord starts, continues⟩

/-- The first lexeme of a text is determined by the text, and so is what follows it. -/
theorem Form.unique {written otherWritten rest otherRest : List Char}
    {lexeme other : Lexeme} (form : Form written lexeme) (otherForm : Form otherWritten other)
    (stops : lexeme.StopsAt rest) (otherStops : other.StopsAt otherRest)
    (same : written ++ rest = otherWritten ++ otherRest) :
    lexeme = other ∧ rest = otherRest := by
  have kinds : lexeme.ctorIdx = other.ctorIdx := by
    obtain ⟨first, front, rfl, -⟩ := form.exists_cons
    obtain ⟨otherFirst, otherFront, rfl, -⟩ := otherForm.exists_cons
    rw [form.ctorIdx_eq, otherForm.ctorIdx_eq, (List.cons.inj same).1]
  cases form with
  | word starts continues =>
      cases otherForm with
      | word otherStarts otherContinues =>
          obtain ⟨front, rest⟩ := run_unique (continues_cons starts continues)
            (continues_cons otherStarts otherContinues) stops otherStops same
          exact ⟨by rw [front], rest⟩
      | natural | negative | argument | text | mark | semicolon | comment => cases kinds
  | natural nonempty decimal =>
      cases otherForm with
      | natural _ otherDecimal =>
          obtain ⟨rfl, rest⟩ := run_unique decimal otherDecimal stops otherStops same
          exact ⟨rfl, rest⟩
      | negative =>
          obtain ⟨digit, digits, rfl⟩ := List.exists_cons_of_ne_nil nonempty
          obtain rfl : digit = '-' := (List.cons.inj same).1
          exact absurd (decimal '-' (by simp)) (by decide)
      | word | argument | text | mark | semicolon | comment => cases kinds
  | negative _ decimal =>
      cases otherForm with
      | natural nonempty otherDecimal =>
          obtain ⟨digit, digits, rfl⟩ := List.exists_cons_of_ne_nil nonempty
          obtain rfl : '-' = digit := (List.cons.inj same).1
          exact absurd (otherDecimal '-' (by simp)) (by decide)
      | negative _ otherDecimal =>
          obtain ⟨rfl, rest⟩ :=
            run_unique decimal otherDecimal stops otherStops (List.cons.inj same).2
          exact ⟨rfl, rest⟩
      | word | argument | text | mark | semicolon | comment => cases kinds
  | argument _ decimal =>
      cases otherForm with
      | argument _ otherDecimal =>
          obtain ⟨rfl, rest⟩ :=
            run_unique decimal otherDecimal stops otherStops (List.cons.inj same).2
          exact ⟨rfl, rest⟩
      | word | natural | negative | text | mark | semicolon | comment => cases kinds
  | text body =>
      cases otherForm with
      | text otherBody =>
          simp only [List.cons_append, List.append_assoc, List.nil_append, List.cons.injEq,
            true_and] at same
          obtain ⟨rfl, rest⟩ := body.unique otherBody same
          exact ⟨rfl, rest⟩
      | word | natural | negative | argument | mark | semicolon | comment => cases kinds
  | mark =>
      cases otherForm with
      | mark =>
          obtain ⟨rfl, rest⟩ := List.cons.inj same
          exact ⟨rfl, rest⟩
      | word | natural | negative | argument | text | semicolon | comment => cases kinds
  | semicolon =>
      cases otherForm with
      | semicolon => exact ⟨rfl, (List.cons.inj same).2⟩
      | word | natural | negative | argument | text | mark | comment => cases kinds
  | comment oneLine =>
      cases otherForm with
      | comment otherOneLine =>
          have goesOn {body : List Char} (oneLine : ∀ character ∈ body, character ≠ '\n') :
              ∀ character ∈ body, (character != '\n') = true := by
            intro character member
            simpa using oneLine character member
          obtain ⟨-, rest⟩ := run_unique (goesOn oneLine) (goesOn otherOneLine) stops otherStops
            (List.cons.inj same).2
          exact ⟨rfl, rest⟩
      | word | natural | negative | argument | text | mark | semicolon => cases kinds

/-- A text falls into lexemes in one way. -/
theorem Spells.unique {text : List Char} {lexemes others : List Lexeme}
    (spells : Spells text lexemes) (otherwise : Spells text others) : lexemes = others := by
  induction spells generalizing others with
  | done =>
      have none := otherwise.length_le
      exact (List.length_eq_zero_iff.1 (Nat.le_zero.1 none)).symm
  | @blank character rest lexemes blank _ ih =>
      apply ih
      have behind := otherwise.dropBlanks
      rw [List.dropWhile_cons_of_pos blank] at behind
      exact behind.of_dropBlanks
  | @lexeme written rest lexeme lexemes form stops _ ih =>
      have solid : (written ++ rest).dropWhile Text.isProgramBlank = written ++ rest := by
        obtain ⟨first, front, rfl, noBlank⟩ := form.exists_cons
        rw [List.cons_append, List.dropWhile_cons_of_neg (by simp [noBlank])]
      cases others with
      | nil =>
          have nothing := solid.symm.trans otherwise.eq_nil_of_nil
          obtain ⟨first, front, rfl, -⟩ := form.exists_cons
          cases nothing
      | cons other others =>
          obtain ⟨otherWritten, otherRest, passed, otherForm, otherStops, further⟩ :=
            otherwise.exists_form
          obtain ⟨rfl, rfl⟩ := form.unique otherForm stops otherStops (solid.symm.trans passed)
          rw [ih further]

end DocumentHost.Mini
