import DocumentHost.Proofs.Mini.Soundness
import Mathlib.Data.List.DropRight

/-!
# What is derived is read

The reader of programs takes every lexeme at its full length and looks at one more
lexeme at most.  So it succeeds on every text that the grammar derives, with the
statements of the derivation.  The amount of fuel at a cursor is enough because a text
has at least as many characters as lexemes.
-/

namespace DocumentHost.Mini

open Outcome

/-! ## Lexemes -/

/-- The longest run at the front of a text that stops there. -/
theorem takeWhile_append_of_stops {test : Char → Bool} {front rest : List Char}
    (passes : ∀ character ∈ front, test character = true)
    (stops : ∀ character ∈ rest.head?, test character = false) :
    (front ++ rest).takeWhile test = front ∧ (front ++ rest).dropWhile test = rest := by
  rw [List.takeWhile_append_of_pos passes, List.dropWhile_append_of_pos passes]
  cases rest with
  | nil => simp
  | cons character rest =>
      have stopped : test character = false := stops character rfl
      simp [stopped]

theorem not_isDigit_of_startsWord {character : Char} (starts : startsWord character = true) :
    isDigit character = false := by
  cases digit : isDigit character with
  | false => rfl
  | true => rw [not_startsWord_of_isDigit digit] at starts; cases starts

theorem not_startsWord_of_mem_marks {character : Char} (known : character ∈ marks) :
    startsWord character = false ∧ isDigit character = false := by
  revert known
  simp only [marks, List.mem_cons, List.not_mem_nil, or_false]
  rintro (rfl | rfl | rfl | rfl | rfl | rfl | rfl) <;> decide

/-- A form that begins with a sign or a bracket is that mark. -/
theorem Form.eq_mark {first : Char} {rest : List Char} {lexeme : Lexeme}
    (form : Form (first :: rest) lexeme) (known : first ∈ marks) : lexeme = .mark first := by
  obtain ⟨noWord, noDigit⟩ := not_startsWord_of_mem_marks known
  cases form with
  | word starts _ => rw [noWord] at starts; cases starts
  | natural _ decimal _ =>
      have digit := decimal first (by simp)
      rw [noDigit] at digit
      cases digit
  | mark _ => rfl
  | negative | argument | text | semicolon | comment => exact absurd known (by decide)

/-- When a sign or a bracket is next in the text, it is the next lexeme. -/
theorem Spells.head?_eq_mark {text : List Char} {lexemes : List Lexeme} {character : Char}
    (spells : Spells text lexemes) (known : character ∈ marks)
    (next : (text.dropWhile Text.isProgramBlank).head? = some character) :
    lexemes.head? = some (.mark character) := by
  cases lexemes with
  | nil => simp [spells.eq_nil_of_nil] at next
  | cons lexeme lexemes =>
      obtain ⟨written, rest, passed, form, -, -⟩ := spells.exists_form
      obtain ⟨first, others, rfl, -⟩ := form.exists_cons
      rw [passed] at next
      obtain rfl : first = character := by simpa using next
      simp [form.eq_mark known]

theorem skipBlanks_rest (cursor : Cursor) :
    cursor.skipBlanks.rest = cursor.rest.dropWhile Text.isProgramBlank :=
  rfl

/-- A mark that is the next lexeme is next in the text. -/
theorem Spells.skipBlanks_mark {cursor : Cursor} {character : Char} {lexemes : List Lexeme}
    (spells : Spells cursor.rest (.mark character :: lexemes)) :
    cursor.skipBlanks.rest.head? = some character ∧
      Spells cursor.skipBlanks.step.rest lexemes := by
  obtain ⟨written, rest, passed, form, -, spells⟩ := spells.exists_form
  cases form
  have shape : cursor.skipBlanks.rest = character :: rest := passed
  exact ⟨by simp [shape], by rwa [step_rest shape]⟩

/-- Where no blanks stand in front, the next mark is found at once. -/
theorem Spells.rest_of_mark {text : List Char} {character : Char} {lexemes : List Lexeme}
    (spells : Spells text (.mark character :: lexemes))
    (solid : text.dropWhile Text.isProgramBlank = text) :
    ∃ rest, text = character :: rest ∧ Spells rest lexemes := by
  obtain ⟨written, rest, passed, form, -, spells⟩ := spells.exists_form
  rw [solid] at passed
  cases form
  exact ⟨rest, passed, spells⟩

theorem expect_eq_ok {cursor : Cursor} {character : Char} {lexemes : List Lexeme}
    (spells : Spells cursor.rest (.mark character :: lexemes)) :
    ∃ behind, expect character cursor = .ok behind ∧ Spells behind.rest lexemes := by
  obtain ⟨next, spells⟩ := spells.skipBlanks_mark
  exact ⟨_, by simp [expect, next], spells⟩

theorem readWord?_eq_some {cursor : Cursor} {word : String} {written rest : List Char}
    (passed : cursor.rest = written ++ rest) (form : Form written (.word word))
    (stops : (Lexeme.word word).StopsAt rest) :
    ∃ behind, readWord? cursor = some (word, behind) ∧ behind.rest = rest := by
  cases form with
  | @word first others starts continues =>
      have all : ∀ character ∈ first :: others, continuesWord character = true := by
        intro character member
        rcases List.mem_cons.1 member with rfl | member
        · exact continuesWord_of_startsWord starts
        · exact continues character member
      obtain ⟨taken, dropped⟩ := takeWhile_append_of_stops all stops
      refine ⟨cursor.skip continuesWord, ?_, by rw [Cursor.skip, passed, dropped]⟩
      rw [readWord?, Cursor.front, passed, taken]
      simp [starts]

/-- Where no blanks stand in front, the next word is found at once. -/
theorem readWord?_of_spells {cursor : Cursor} {word : String} {lexemes : List Lexeme}
    (solid : cursor.rest.dropWhile Text.isProgramBlank = cursor.rest)
    (spells : Spells cursor.rest (.word word :: lexemes)) :
    ∃ behind, readWord? cursor = some (word, behind) ∧ Spells behind.rest lexemes := by
  obtain ⟨written, rest, passed, form, stops, spells⟩ := spells.exists_form
  rw [solid] at passed
  obtain ⟨behind, found, rfl⟩ := readWord?_eq_some passed form stops
  exact ⟨behind, found, spells⟩

theorem readName_eq_ok {cursor : Cursor} {name : String} {lexemes : List Lexeme}
    (noKeyword : name ∉ keywords) (spells : Spells cursor.rest (.word name :: lexemes)) :
    ∃ behind, readName cursor = .ok (name, behind) ∧ Spells behind.rest lexemes := by
  have solid : cursor.skipBlanks.rest.dropWhile Text.isProgramBlank = cursor.skipBlanks.rest :=
    List.dropWhile_idempotent _ _
  obtain ⟨behind, found, spells⟩ := readWord?_of_spells solid spells.dropBlanks
  exact ⟨behind, by simp [readName, found, noKeyword], spells⟩

theorem readTextBody_complete {written value : List Char} (body : TextBody written value)
    (position : Position) (rest : List Char) :
    ∃ behind, readTextBody position (written ++ '"' :: rest) = .ok (value, behind) ∧
      behind.rest = rest := by
  induction body generalizing position with
  | nil => exact ⟨⟨rest, position.advance '"'⟩, by simp [readTextBody], rfl⟩
  | plain noQuote noBackslash _ ih =>
      rename_i character _ _ _
      obtain ⟨behind, read, passed⟩ := ih (position.advance character)
      refine ⟨behind, ?_, passed⟩
      rw [List.cons_append, readTextBody]
      · simp [noQuote, read, Except.map]
      · intro alone
        exact (noBackslash alone).elim
      · intro letter others escape
        exact (noBackslash escape).elim
  | escaped escapes _ ih =>
      rename_i letter _ _ _ _
      obtain ⟨behind, read, passed⟩ := ih ((position.advance '\\').advance letter)
      refine ⟨behind, ?_, passed⟩
      rw [List.cons_append, List.cons_append, readTextBody]
      simp [unescape?_eq_some_iff.2 escapes, read, Except.map]

/-! ## Numbers -/

theorem readInteger_eq_ok {cursor : Cursor} {value : Int} {written rest : List Char}
    (passed : cursor.rest = written ++ rest) (form : Form written (.integer value))
    (stops : (Lexeme.integer value).StopsAt rest) :
    ∃ behind, readInteger cursor = .ok (.integer value, behind) ∧ behind.rest = rest := by
  cases form with
  | natural nonempty decimal fits =>
      obtain ⟨taken, dropped⟩ := takeWhile_append_of_stops decimal stops
      have noSign : cursor.rest.head? ≠ some '-' := by
        intro sign
        obtain ⟨digit, digits, rfl⟩ := List.exists_cons_of_ne_nil nonempty
        rw [passed, List.cons_append, List.head?_cons, Option.some.injEq] at sign
        have digit := decimal digit (by simp)
        rw [sign] at digit
        exact absurd digit (by decide)
      refine ⟨cursor.skip isDigit, ?_, by rw [Cursor.skip, passed, dropped]⟩
      rw [readInteger]
      simp only [noSign, if_false]
      simp only [Cursor.front, passed, taken, digitsValue_eq_decimalValue]
      rw [if_neg]
      simp only [Bool.or_eq_true, List.isEmpty_iff, nonempty, decide_eq_true_eq, false_or]
      omega
  | @negative digits nonempty decimal fits =>
      obtain ⟨taken, dropped⟩ := takeWhile_append_of_stops decimal stops
      have sign : cursor.rest.head? = some '-' := by rw [passed]; rfl
      have behindSign : cursor.step.rest = digits ++ rest := step_rest passed
      refine ⟨cursor.step.skip isDigit, ?_, by rw [Cursor.skip, behindSign, dropped]⟩
      rw [readInteger]
      simp only [sign, if_true, Cursor.front, behindSign, taken, digitsValue_eq_decimalValue]
      rw [if_neg]
      simp only [Bool.or_eq_true, List.isEmpty_iff, nonempty, decide_eq_true_eq, false_or]
      omega

theorem readIndex_eq_ok {cursor : Cursor} {index : Nat} {written rest : List Char}
    (passed : cursor.rest = written ++ rest) (form : Form written (.argument index))
    (stops : (Lexeme.argument index).StopsAt rest) :
    ∃ behind, readIndex cursor.step = .ok (.argument index, behind) ∧ behind.rest = rest := by
  cases form with
  | @argument digits nonempty decimal fits =>
      obtain ⟨taken, dropped⟩ := takeWhile_append_of_stops decimal stops
      have behindSign : cursor.step.rest = digits ++ rest := step_rest passed
      refine ⟨cursor.step.skip isDigit, ?_, by rw [Cursor.skip, behindSign, dropped]⟩
      rw [readIndex]
      simp only [Cursor.front, behindSign, taken, digitsValue_eq_decimalValue]
      rw [if_neg]
      simp only [Bool.or_eq_true, List.isEmpty_iff, nonempty, decide_eq_true_eq, false_or]
      omega

/-! ## Expressions -/

theorem readTerm_text {fuel : Nat} {cursor : Cursor} {value : String} {lexemes : List Lexeme}
    (spells : Spells cursor.rest (.text value :: lexemes)) :
    ∃ behind, readTerm (fuel + 1) cursor = .ok (.text value, behind) ∧
      Spells behind.rest lexemes := by
  obtain ⟨written, rest, passed, form, -, spells⟩ := spells.exists_form
  cases form with
  | @text written value body =>
      have shape : cursor.skipBlanks.rest = '"' :: (written ++ '"' :: rest) := by
        simpa [skipBlanks_rest] using passed
      obtain ⟨behind, read, rfl⟩ := readTextBody_complete body
        cursor.skipBlanks.step.position rest
      refine ⟨behind, ?_, spells⟩
      rw [readTerm]
      simp only [shape]
      rw [if_pos trivial, step_rest shape, read]
      rfl

theorem readTerm_integer {fuel : Nat} {cursor : Cursor} {value : Int} {lexemes : List Lexeme}
    (spells : Spells cursor.rest (.integer value :: lexemes)) :
    ∃ behind, readTerm (fuel + 1) cursor = .ok (.integer value, behind) ∧
      Spells behind.rest lexemes := by
  obtain ⟨written, rest, passed, form, stops, spells⟩ := spells.exists_form
  obtain ⟨first, others, rfl, -⟩ := form.exists_cons
  have shape : cursor.skipBlanks.rest = first :: (others ++ rest) := passed
  obtain ⟨behind, read, rfl⟩ := readInteger_eq_ok shape form stops
  refine ⟨behind, ?_, spells⟩
  have numeral : isDigit first = true ∨ first = '-' := by
    cases form with
    | natural _ decimal _ => exact .inl (decimal first (by simp))
    | negative => exact .inr rfl
  have noQuote : first ≠ '"' := by
    rintro rfl
    exact absurd numeral (by decide)
  rw [readTerm]
  simp only [shape]
  rw [if_neg noQuote, if_pos (by simpa using numeral), read]

theorem readTerm_argument {fuel : Nat} {cursor : Cursor} {index : Nat} {lexemes : List Lexeme}
    (spells : Spells cursor.rest (.argument index :: lexemes)) :
    ∃ behind, readTerm (fuel + 1) cursor = .ok (.argument index, behind) ∧
      Spells behind.rest lexemes := by
  obtain ⟨written, rest, passed, form, stops, spells⟩ := spells.exists_form
  obtain ⟨first, others, rfl, -⟩ := form.exists_cons
  have shape : cursor.skipBlanks.rest = first :: (others ++ rest) := passed
  obtain ⟨behind, read, rfl⟩ := readIndex_eq_ok shape form stops
  refine ⟨behind, ?_, spells⟩
  obtain rfl : first = '$' := by cases form; rfl
  rw [readTerm]
  simp only [shape]
  rw [if_neg (by decide), if_neg (by decide), if_pos trivial, read]

theorem readTerm_named {fuel : Nat} {cursor : Cursor} {name : String} {lexemes : List Lexeme}
    (noKeyword : name ∉ keywords) (spells : Spells cursor.rest (.word name :: lexemes)) :
    ∃ behind, readTerm (fuel + 1) cursor = .ok (.named name, behind) ∧
      Spells behind.rest lexemes := by
  obtain ⟨written, rest, passed, form, stops, spells⟩ := spells.exists_form
  obtain ⟨first, others, rfl, -⟩ := form.exists_cons
  have shape : cursor.skipBlanks.rest = first :: (others ++ rest) := passed
  obtain ⟨behind, found, rfl⟩ := readWord?_eq_some shape form stops
  refine ⟨behind, ?_, spells⟩
  have starts : startsWord first = true := by
    cases form
    assumption
  have noDigit := not_isDigit_of_startsWord starts
  have noSign : first ≠ '"' ∧ first ≠ '-' ∧ first ≠ '$' ∧ first ≠ '(' := by
    refine ⟨?_, ?_, ?_, ?_⟩ <;> rintro rfl <;> exact absurd starts (by decide)
  rw [readTerm]
  simp [shape, noSign, noDigit, readNamed, found, noKeyword]

/-- With this fuel a term is read that its lexemes spell.  Each lexeme needs fuel at most
twice. -/
def TermRead (fuel : Nat) : Prop :=
  ∀ {lexemes value}, TermOf lexemes value → 2 * lexemes.length ≤ fuel →
    ∀ {cursor tail}, Spells cursor.rest (lexemes ++ tail) →
    ∃ behind, readTerm fuel cursor = .ok (value, behind) ∧ Spells behind.rest tail

/-- With this fuel a sum is read that its lexemes spell. -/
def SumRead (fuel : Nat) : Prop :=
  ∀ {lexemes value}, SumOf lexemes value → 2 * lexemes.length < fuel →
    ∀ {cursor tail}, Spells cursor.rest (lexemes ++ tail) → tail.head? ≠ some (.mark '+') →
    ∃ behind, readSum fuel cursor = .ok (value, behind) ∧ Spells behind.rest tail

/-- With this fuel the further terms of a sum are read that their lexemes spell. -/
def SumTailRead (fuel : Nat) : Prop :=
  ∀ {lexemes further}, FurtherOf lexemes further → 2 * lexemes.length < fuel →
    ∀ {left cursor tail}, Spells cursor.rest (lexemes ++ tail) →
    tail.head? ≠ some (.mark '+') →
    ∃ behind, readSumTail fuel left cursor = .ok (further.foldl .sum left, behind) ∧
      Spells behind.rest tail

theorem termRead_succ {fuel : Nat} (readsSum : SumRead fuel) : TermRead (fuel + 1) := by
  intro lexemes value term enough cursor tail spells
  cases term with
  | text => exact readTerm_text spells
  | integer => exact readTerm_integer spells
  | named noKeyword => exact readTerm_named noKeyword spells
  | argument => exact readTerm_argument spells
  | @parenthesised lexemes value inside =>
      rw [List.cons_append, List.append_assoc] at spells
      obtain ⟨opening, spellsInside⟩ := spells.skipBlanks_mark
      simp only [List.length_cons, List.length_append, List.length_nil] at enough
      obtain ⟨after, read, spellsAfter⟩ := readsSum inside (by omega) spellsInside (by simp)
      obtain ⟨behind, closing, spellsBehind⟩ := expect_eq_ok spellsAfter
      refine ⟨behind, ?_, spellsBehind⟩
      obtain ⟨rest, shape⟩ := List.head?_eq_some_iff.1 opening
      rw [readTerm]
      simp only [shape]
      rw [if_neg (by decide), if_neg (by decide), if_neg (by decide), if_pos trivial]
      exact bind_eq_ok_iff.2 ⟨_, read, bind_eq_ok_iff.2 ⟨_, closing, rfl⟩⟩

theorem sumRead_succ {fuel : Nat} (readsTerm : TermRead fuel) (readsTail : SumTailRead fuel) :
    SumRead (fuel + 1) := by
  intro lexemes value sum enough cursor tail spells noPlus
  cases sum with
  | @sum lexemes others first further term rest =>
      rw [List.append_assoc] at spells
      rw [List.length_append] at enough
      obtain ⟨behind, read, spellsBehind⟩ := readsTerm term (by omega) spells
      have nonempty : 0 < lexemes.length := by
        obtain ⟨_, _, rfl, -⟩ := term.exists_cons
        simp
      obtain ⟨last, readRest, spellsLast⟩ := readsTail rest (by omega) spellsBehind noPlus
      exact ⟨last, bind_eq_ok_iff.2 ⟨_, read, readRest⟩, spellsLast⟩

theorem sumTailRead_succ {fuel : Nat} (readsTerm : TermRead fuel)
    (readsTail : SumTailRead fuel) : SumTailRead (fuel + 1) := by
  intro lexemes further derived enough left cursor tail spells noPlus
  rw [readSumTail]
  cases derived with
  | nil =>
      refine ⟨cursor.skipBlanks, ?_, spells.dropBlanks⟩
      rw [if_neg]
      · rfl
      · intro plus
        exact noPlus (spells.head?_eq_mark (by decide) plus)
  | @cons lexemes others value values term rest =>
      rw [List.cons_append, List.append_assoc] at spells
      obtain ⟨plus, spellsTerm⟩ := spells.skipBlanks_mark
      simp only [List.length_cons, List.length_append] at enough
      obtain ⟨behind, read, spellsBehind⟩ := readsTerm term (by omega) spellsTerm
      obtain ⟨last, readRest, spellsLast⟩ := readsTail rest (by omega) spellsBehind noPlus
      refine ⟨last, ?_, spellsLast⟩
      rw [if_pos plus]
      exact bind_eq_ok_iff.2 ⟨_, read, readRest⟩

/-- By induction on the fuel, for terms, sums and the tails of sums together. -/
theorem readSum_eq_ok_all (fuel : Nat) : TermRead fuel ∧ SumRead fuel ∧ SumTailRead fuel := by
  induction fuel with
  | zero =>
      refine ⟨?_, fun _ enough => by omega, fun _ enough => by omega⟩
      intro lexemes value term enough
      obtain ⟨first, rest, rfl, -⟩ := term.exists_cons
      simp at enough
  | succ fuel ih =>
      obtain ⟨readsTerm, readsSum, readsTail⟩ := ih
      exact ⟨termRead_succ readsSum, sumRead_succ readsTerm readsTail,
        sumTailRead_succ readsTerm readsTail⟩

theorem readExpression_eq_ok {cursor : Cursor} {lexemes tail : List Lexeme} {value : Expression}
    (sum : SumOf lexemes value) (spells : Spells cursor.rest (lexemes ++ tail))
    (noPlus : tail.head? ≠ some (.mark '+')) :
    ∃ behind, readExpression cursor = .ok (value, behind) ∧ Spells behind.rest tail := by
  have enough := spells.length_le
  rw [List.length_append] at enough
  exact (readSum_eq_ok_all cursor.fuel).2.1 sum (by rw [Cursor.fuel]; omega) spells noPlus

/-- Each value of a list needs fuel once. -/
theorem readArguments_eq_ok {lexemes : List Lexeme} {values : List Expression}
    (list : ListOf lexemes values) {fuel : Nat} (enough : lexemes.length ≤ fuel)
    {cursor : Cursor} {tail : List Lexeme}
    (spells : Spells cursor.rest (lexemes ++ .mark ')' :: tail)) :
    ∃ behind, readArguments fuel cursor = .ok (values, behind) ∧ Spells behind.rest tail := by
  induction list generalizing fuel cursor with
  | last sum =>
      obtain ⟨_, _, rfl, -⟩ := sum.exists_cons
      cases fuel with
      | zero => simp at enough
      | succ fuel =>
          obtain ⟨behind, read, spells⟩ := readExpression_eq_ok sum spells (by simp)
          obtain ⟨closing, spells⟩ := spells.skipBlanks_mark
          refine ⟨behind.skipBlanks.step, ?_, spells⟩
          rw [readArguments]
          refine bind_eq_ok_iff.2 ⟨_, read, ?_⟩
          simp only [closing]
          rfl
  | @more lexemes others value values sum rest ih =>
      have nonempty : 0 < lexemes.length := by
        obtain ⟨_, _, rfl, -⟩ := sum.exists_cons
        simp
      cases fuel with
      | zero => simp at enough
      | succ fuel =>
          simp only [List.length_append, List.length_cons] at enough
          rw [List.append_assoc, List.cons_append] at spells
          obtain ⟨middle, read, spells⟩ := readExpression_eq_ok sum spells (by simp)
          obtain ⟨comma, spells⟩ := spells.skipBlanks_mark
          have enoughForRest : others.length ≤ fuel := by omega
          obtain ⟨behind, readRest, spells⟩ := ih enoughForRest spells
          refine ⟨behind, ?_, spells⟩
          rw [readArguments]
          refine bind_eq_ok_iff.2 ⟨_, read, ?_⟩
          simp only [comma]
          exact bind_eq_ok_iff.2 ⟨_, readRest, rfl⟩

theorem readCallTail_eq_ok {cursor : Cursor} {lexemes tail : List Lexeme}
    {values : List Expression} (arguments : ArgumentsOf True lexemes values)
    (spells : Spells cursor.rest (lexemes ++ tail))
    (noOpening : tail.head? ≠ some (.mark '(')) :
    ∃ behind, readCallTail cursor = .ok (values, behind) ∧ Spells behind.rest tail := by
  cases arguments with
  | absent =>
      refine ⟨cursor.skipBlanks, ?_, spells.dropBlanks⟩
      rw [readCallTail]
      dsimp only
      rw [if_neg]
      intro opening
      exact noOpening (spells.head?_eq_mark (by decide) opening)
  | empty =>
      obtain ⟨opening, spells⟩ := spells.skipBlanks_mark
      obtain ⟨closing, spells⟩ := spells.skipBlanks_mark
      refine ⟨_, ?_, spells⟩
      rw [readCallTail]
      simp only [opening, closing, if_true]
  | @listed lexemes values list =>
      rw [List.cons_append, List.append_assoc] at spells
      obtain ⟨opening, spells⟩ := spells.skipBlanks_mark
      have noClosing : cursor.skipBlanks.step.skipBlanks.rest.head? ≠ some ')' := by
        intro closing
        have next := spells.head?_eq_mark (by decide) closing
        obtain ⟨first, rest, rfl, other, -⟩ := list.exists_cons
        exact other (Option.some.inj next)
      have spellsInside : Spells cursor.skipBlanks.step.skipBlanks.rest _ := spells.dropBlanks
      have enough := spellsInside.length_le
      rw [List.length_append] at enough
      have enoughFuel : lexemes.length ≤ cursor.skipBlanks.step.skipBlanks.fuel := by
        rw [Cursor.fuel]
        omega
      obtain ⟨behind, read, spellsBehind⟩ := readArguments_eq_ok list enoughFuel spellsInside
      refine ⟨behind, ?_, spellsBehind⟩
      rw [readCallTail]
      simp only [opening, if_true, noClosing, if_false, read]

/-! ## Statements -/

/-- Between statements a comment that has ended its line goes on as blanks do. -/
theorem skipGaps_true_of_lineEnd {position : Position} {rest : List Char}
    (ends : ∀ character ∈ rest.head?, character = '\n') :
    skipGaps true position rest = skipGaps false position rest := by
  cases rest with
  | nil => rfl
  | cons character rest =>
      obtain rfl : character = '\n' := ends character rfl
      rfl

theorem skipGaps_true_append (position : Position) {body : List Char} (rest : List Char)
    (oneLine : ∀ character ∈ body, character ≠ '\n') :
    ∃ behind, skipGaps true position (body ++ rest) = skipGaps true behind rest := by
  induction body generalizing position with
  | nil => exact ⟨position, rfl⟩
  | cons character body ih =>
      have goesOn : (character != '\n') = true := by simpa using oneLine character (by simp)
      obtain ⟨behind, skipped⟩ := ih (position.advance character)
        fun other member => oneLine other (by simp [member])
      exact ⟨behind, by simpa [skipGaps, goesOn] using skipped⟩

/-- The forms of gaps are told by their first character. -/
theorem Form.isGap_of_first {first : Char} {rest : List Char} {lexeme : Lexeme}
    (form : Form (first :: rest) lexeme) (gap : first = ';' ∨ first = '#') :
    lexeme.isGap = true := by
  have other : startsWord first = false ∧ isDigit first = false ∧ first ∉ marks := by
    rcases gap with rfl | rfl <;> decide
  obtain ⟨noWord, noDigit, noMark⟩ := other
  cases form with
  | word starts _ => rw [noWord] at starts; cases starts
  | natural _ decimal _ =>
      have digit := decimal first (by simp)
      rw [noDigit] at digit
      cases digit
  | mark known => exact absurd known noMark
  | negative | argument | text => exact absurd gap (by decide)
  | semicolon | comment => rfl

/-- Skipping the gaps passes just the lexemes that are gaps, and all blanks. -/
theorem Spells.skipGaps {text : List Char} {lexemes : List Lexeme}
    (spells : Spells text lexemes) (position : Position) :
    Spells (skipGaps false position text).rest (lexemes.dropWhile Lexeme.isGap) ∧
      ((skipGaps false position text).rest.dropWhile Text.isProgramBlank) =
        (skipGaps false position text).rest := by
  induction spells generalizing position with
  | done => exact ⟨.done, rfl⟩
  | @blank character rest lexemes blank _ ih =>
      simpa [Mini.skipGaps, blank] using ih (position.advance character)
  | @lexeme written rest lexeme lexemes form stops spells ih =>
      cases gap : lexeme.isGap with
      | true =>
          rw [List.dropWhile_cons_of_pos gap]
          cases form with
          | semicolon => simpa [Mini.skipGaps] using ih (position.advance ';')
          | comment oneLine =>
              obtain ⟨behind, skipped⟩ :=
                skipGaps_true_append (position.advance '#') rest oneLine
              have ends : ∀ character ∈ rest.head?, character = '\n' := by
                intro character member
                simpa [Lexeme.goesOn] using stops character member
              rw [skipGaps_true_of_lineEnd ends] at skipped
              have hash : Text.isProgramBlank '#' = false := by decide
              simpa [Mini.skipGaps, hash, skipped] using ih behind
          | word | natural | negative | argument | text | mark => cases gap
      | false =>
          rw [List.dropWhile_cons_of_neg (by simp [gap])]
          obtain ⟨first, others, rfl, solid⟩ := form.exists_cons
          have noGap : ¬(first = ';' ∨ first = '#') := by
            intro isGap
            rw [form.isGap_of_first isGap] at gap
            cases gap
          rw [not_or] at noGap
          have stays : Mini.skipGaps false position (first :: others ++ rest) =
              ⟨first :: others ++ rest, position⟩ := by
            simp [Mini.skipGaps, solid, noGap]
          rw [stays]
          exact ⟨.lexeme form stops spells, by simp [solid]⟩

/-- The gaps in front of a program may be left out. -/
theorem ProgramOf.dropGaps {emptyAllowed : Prop} {lexemes : List Lexeme}
    {statements : List Statement} (program : ProgramOf emptyAllowed lexemes statements) :
    ProgramOf emptyAllowed (lexemes.dropWhile Lexeme.isGap) statements := by
  match program with
  | .nil => exact .nil
  | .gap isGap rest =>
      rw [List.dropWhile_cons_of_pos isGap]
      exact rest.dropGaps
  | .cons first rest =>
      obtain ⟨word, others, rfl⟩ := first.exists_cons
      exact .cons first rest

/-- What may follow a statement: nothing that could belong to it. -/
def FollowsStatement (lexemes : List Lexeme) : Prop :=
  lexemes.head? ≠ some (.mark '+') ∧ lexemes.head? ≠ some (.mark '(')

theorem ProgramOf.followsStatement {emptyAllowed : Prop} {lexemes tail : List Lexeme}
    {statements : List Statement} (program : ProgramOf emptyAllowed lexemes statements)
    (follows : FollowsStatement tail) : FollowsStatement (lexemes ++ tail) := by
  cases program with
  | nil => exact follows
  | gap isGap rest =>
      constructor <;> intro first <;> simp at first <;> subst first <;> cases isGap
  | cons first rest =>
      obtain ⟨word, others, rfl⟩ := first.exists_cons
      simp [FollowsStatement]

/-- The lexemes behind a block: a closing brace, or the end of the text. -/
def blockEnd (braced : Bool) (tail : List Lexeme) : List Lexeme :=
  if braced then .mark '\x7d' :: tail else []

theorem followsStatement_blockEnd (braced : Bool) (tail : List Lexeme) :
    FollowsStatement (blockEnd braced tail) := by
  cases braced <;> simp [FollowsStatement, blockEnd]

theorem dropWhile_append_blockEnd (lexemes : List Lexeme) (braced : Bool) (tail : List Lexeme) :
    (lexemes ++ blockEnd braced tail).dropWhile Lexeme.isGap =
      lexemes.dropWhile Lexeme.isGap ++ blockEnd braced tail := by
  have stays : (blockEnd braced tail).dropWhile Lexeme.isGap = blockEnd braced tail := by
    cases braced <;> rfl
  rw [List.dropWhile_append, stays]
  split
  · rename_i allGaps
    rw [List.isEmpty_iff.1 allGaps, List.nil_append]
  · rfl

theorem expressionBehindWord_eq_ok (make : Expression → Statement) {middle : Cursor}
    {lexemes tail : List Lexeme} {value : Expression} (sum : SumOf lexemes value)
    (spells : Spells middle.rest (lexemes ++ tail)) (follows : FollowsStatement tail) :
    ∃ behind, (do
      let (value, behind) ← readExpression middle
      return (make value, behind) : Reading (Statement × Cursor)) = .ok (make value, behind) ∧
      Spells behind.rest tail := by
  obtain ⟨behind, read, spells⟩ := readExpression_eq_ok sum spells follows.1
  exact ⟨behind, bind_eq_ok_iff.2 ⟨_, read, rfl⟩, spells⟩

theorem assignmentBehindWord_eq_ok (make : String → Expression → Statement) {middle : Cursor}
    {lexemes tail : List Lexeme} {name : String} {value : Expression} (noKeyword : name ∉ keywords)
    (sum : SumOf lexemes value)
    (spells : Spells middle.rest (.word name :: .mark '=' :: (lexemes ++ tail)))
    (follows : FollowsStatement tail) :
    ∃ behind, (do
      let (name, behind) ← readName middle
      let (value, behind) ← readExpression (← expect '=' behind)
      return (make name value, behind) : Reading (Statement × Cursor)) =
        .ok (make name value, behind) ∧
      Spells behind.rest tail := by
  obtain ⟨named, readsName, spells⟩ := readName_eq_ok noKeyword spells
  obtain ⟨equals, sign, spells⟩ := expect_eq_ok spells
  obtain ⟨behind, read, spells⟩ := readExpression_eq_ok sum spells follows.1
  refine ⟨behind, ?_, spells⟩
  refine bind_eq_ok_iff.2 ⟨_, readsName, bind_eq_ok_iff.2 ⟨_, sign, ?_⟩⟩
  exact bind_eq_ok_iff.2 ⟨_, read, rfl⟩

/-- With this fuel a statement is read that its lexemes spell.  Each lexeme needs fuel at most
twice. -/
def StatementRead (fuel : Nat) : Prop :=
  ∀ {lexemes statement}, StatementOf True lexemes statement → 2 * lexemes.length ≤ fuel →
    ∀ {cursor tail}, Spells cursor.rest (lexemes ++ tail) → FollowsStatement tail →
    cursor.rest.dropWhile Text.isProgramBlank = cursor.rest →
    ∃ behind, readStatement fuel cursor = .ok (statement, behind) ∧ Spells behind.rest tail

/-- With this fuel a block is read that its lexemes spell. -/
def BlockRead (fuel : Nat) : Prop :=
  ∀ {lexemes statements}, ProgramOf True lexemes statements → 2 * lexemes.length < fuel →
    ∀ {braced cursor tail}, Spells cursor.rest (lexemes ++ blockEnd braced tail) →
    ∃ behind, readBlock fuel braced cursor = .ok (statements, behind) ∧
      (braced = true → Spells behind.rest tail)

theorem statementRead_succ {fuel : Nat} (readsBlock : BlockRead fuel) :
    StatementRead (fuel + 1) := by
  intro lexemes statement derived enough cursor tail spells follows solid
  rw [readStatement]
  cases derived with
  | print sum =>
      obtain ⟨middle, found, spells⟩ := readWord?_of_spells solid spells
      simp only [found]
      exact expressionBehindWord_eq_ok .print sum spells follows
  | printError sum =>
      obtain ⟨middle, found, spells⟩ := readWord?_of_spells solid spells
      simp only [found]
      exact expressionBehindWord_eq_ok .printError sum spells follows
  | includeDocument sum =>
      obtain ⟨middle, found, spells⟩ := readWord?_of_spells solid spells
      simp only [found]
      exact expressionBehindWord_eq_ok .includeDocument sum spells follows
  | giveBack sum =>
      obtain ⟨middle, found, spells⟩ := readWord?_of_spells solid spells
      simp only [found]
      exact expressionBehindWord_eq_ok .giveBack sum spells follows
  | assign noKeyword sum =>
      obtain ⟨middle, found, spells⟩ := readWord?_of_spells solid spells
      simp only [found]
      exact assignmentBehindWord_eq_ok .assign noKeyword sum spells follows
  | assignGlobal noKeyword sum =>
      obtain ⟨middle, found, spells⟩ := readWord?_of_spells solid spells
      simp only [found]
      exact assignmentBehindWord_eq_ok .assignGlobal noKeyword sum spells follows
  | @define lexemes name body noKeyword block =>
      simp only [List.length_cons, List.length_append, List.length_nil] at enough
      simp only [List.cons_append, List.append_assoc] at spells
      obtain ⟨middle, found, spells⟩ := readWord?_of_spells solid spells
      obtain ⟨named, readsName, spells⟩ := readName_eq_ok noKeyword spells
      obtain ⟨opened, brace, spells⟩ := expect_eq_ok spells
      have spells : Spells opened.rest (lexemes ++ blockEnd true tail) := spells
      obtain ⟨behind, read, spells⟩ := readsBlock block (by omega) spells
      refine ⟨behind, ?_, spells rfl⟩
      simp only [found]
      refine bind_eq_ok_iff.2 ⟨_, readsName, bind_eq_ok_iff.2 ⟨_, brace, ?_⟩⟩
      exact bind_eq_ok_iff.2 ⟨_, read, rfl⟩
  | call noKeyword arguments =>
      obtain ⟨middle, found, spells⟩ := readWord?_of_spells solid spells
      obtain ⟨named, readsName, spells⟩ := readName_eq_ok noKeyword spells
      obtain ⟨behind, read, spells⟩ := readCallTail_eq_ok arguments spells follows.2
      refine ⟨behind, ?_, spells⟩
      simp only [found]
      refine bind_eq_ok_iff.2 ⟨_, readsName, ?_⟩
      exact bind_eq_ok_iff.2 ⟨_, read, rfl⟩

/-- What begins with the first word of a statement is neither the end of a text nor a brace. -/
theorem readBlock_of_statement {fuel : Nat} {braced : Bool} {cursor middle behind : Cursor}
    {lexemes tail : List Lexeme} {statement : Statement} {statements : List Statement}
    (first : StatementOf True lexemes statement)
    (spells : Spells cursor.skipGaps.rest (lexemes ++ tail))
    (solid : cursor.skipGaps.rest.dropWhile Text.isProgramBlank = cursor.skipGaps.rest)
    (read : readStatement fuel cursor.skipGaps = .ok (statement, middle))
    (readRest : readBlock fuel braced middle = .ok (statements, behind)) :
    readBlock (fuel + 1) braced cursor = .ok (statement :: statements, behind) := by
  obtain ⟨word, further, rfl⟩ := first.exists_cons
  rw [readBlock]
  dsimp only
  split
  · rename_i atEnd
    have noLexeme := spells.length_le
    rw [atEnd] at noLexeme
    simp at noLexeme
  · rename_i character text shape
    rw [if_neg]
    · exact bind_eq_ok_iff.2 ⟨_, read, bind_eq_ok_iff.2 ⟨_, readRest, rfl⟩⟩
    · intro brace
      have known : character ∈ marks := by
        rw [brace]
        decide
      have mark := spells.head?_eq_mark known (by rw [solid, shape, List.head?_cons])
      cases mark

theorem blockRead_succ {fuel : Nat} (readsStatement : StatementRead fuel)
    (readsBlock : BlockRead fuel) : BlockRead (fuel + 1) := by
  intro lexemes statements program enough braced cursor tail spells
  obtain ⟨spells, solid⟩ := spells.skipGaps cursor.position
  change Spells cursor.skipGaps.rest _ at spells
  change cursor.skipGaps.rest.dropWhile Text.isProgramBlank = cursor.skipGaps.rest at solid
  rw [dropWhile_append_blockEnd] at spells
  have shorter : (lexemes.dropWhile Lexeme.isGap).length ≤ lexemes.length :=
    List.length_dropWhile_le ..
  have noGap := List.head?_dropWhile_not Lexeme.isGap lexemes
  have dropped := program.dropGaps
  generalize lexemes.dropWhile Lexeme.isGap = lexemes at *
  cases dropped with
  | nil =>
      cases braced with
      | false =>
          have atEnd : cursor.skipGaps.rest = [] := solid.symm.trans spells.eq_nil_of_nil
          refine ⟨cursor.skipGaps, ?_, by simp⟩
          simp [readBlock, atEnd]
      | true =>
          obtain ⟨rest, shape, spells⟩ := spells.rest_of_mark solid
          refine ⟨cursor.skipGaps.step, ?_, fun _ => by rwa [step_rest shape]⟩
          simp [readBlock, shape]
  | gap isGap =>
      simp [isGap] at noGap
  | @cons lexemes others statement statements first rest =>
      rw [List.append_assoc] at spells
      have nonempty : 0 < lexemes.length := by
        obtain ⟨_, _, rfl⟩ := first.exists_cons
        simp
      rw [List.length_append] at shorter
      obtain ⟨middle, read, spellsRest⟩ := readsStatement first (by omega) spells
        (rest.followsStatement (followsStatement_blockEnd braced tail)) solid
      obtain ⟨behind, readRest, complete⟩ := readsBlock rest (by omega) spellsRest
      exact ⟨behind, readBlock_of_statement first spells solid read readRest, complete⟩

/-- By induction on the fuel, for statements and blocks together. -/
theorem readBlock_eq_ok_all (fuel : Nat) : StatementRead fuel ∧ BlockRead fuel := by
  induction fuel with
  | zero =>
      refine ⟨?_, fun _ enough => by omega⟩
      intro lexemes statement derived enough
      obtain ⟨word, rest, rfl⟩ := derived.exists_cons
      simp at enough
  | succ fuel ih =>
      obtain ⟨readsStatement, readsBlock⟩ := ih
      exact ⟨statementRead_succ readsBlock, blockRead_succ readsStatement readsBlock⟩

/-- A program that is derived can be read. -/
theorem parse_of_derives {text : String} {statements : List Statement}
    (derives : Derives text statements) : parse text = .ok statements := by
  obtain ⟨lexemes, spells, program⟩ := derives
  have enough := spells.length_le
  have enoughFuel : 2 * lexemes.length < (Cursor.ofText text).fuel := by
    simp only [Cursor.fuel, Cursor.ofText]
    omega
  have spellsAll : Spells (Cursor.ofText text).rest (lexemes ++ blockEnd false []) := by
    simpa [blockEnd, Cursor.ofText] using spells
  obtain ⟨behind, read, -⟩ := (readBlock_eq_ok_all _).2 program enoughFuel spellsAll
  exact map_eq_ok_iff.2 ⟨_, read, rfl⟩

end DocumentHost.Mini
