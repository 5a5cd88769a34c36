import DocumentHost.Proofs.Mini.Grammar
import DocumentHost.Proofs.Outcome
import Mathlib.Data.List.Induction

/-!
# What is read is derived

Whenever the reader of programs succeeds, the characters it has passed fall into
lexemes that the grammar derives.  The statement about a part of a program leaves
open what follows it: whatever lexemes the rest of the text falls into, the lexemes
of the part stand in front of them.
-/

namespace DocumentHost.Mini

open Outcome

/-- The characters between two places fall into lexemes, whatever follows. -/
def Reads (cursor : Cursor) (lexemes : List Lexeme) (behind : Cursor) : Prop :=
  ∀ tail, Spells behind.rest tail → Spells cursor.rest (lexemes ++ tail)

namespace Reads

variable {cursor middle behind : Cursor} {lexemes others : List Lexeme}

theorem trans (first : Reads cursor lexemes middle) (second : Reads middle others behind) :
    Reads cursor (lexemes ++ others) behind := by
  intro tail spells
  rw [List.append_assoc]
  exact first _ (second _ spells)

theorem cons {lexeme : Lexeme} (first : Reads cursor [lexeme] middle)
    (second : Reads middle others behind) : Reads cursor (lexeme :: others) behind :=
  first.trans second

theorem of_form (written : List Char) {lexeme : Lexeme}
    (passed : cursor.rest = written ++ behind.rest) (form : Form written lexeme)
    (stops : lexeme.StopsAt behind.rest) : Reads cursor [lexeme] behind := by
  intro tail spells
  rw [passed]
  exact .lexeme form stops spells

theorem skipBlanks (cursor : Cursor) : Reads cursor [] cursor.skipBlanks :=
  fun _ spells => spells.of_dropBlanks

theorem behindBlanks (reads : Reads cursor.skipBlanks lexemes behind) :
    Reads cursor lexemes behind :=
  (skipBlanks cursor).trans reads

end Reads

/-! ## Lexemes -/

/-- What is left behind a longest run does not go on with it. -/
theorem head?_dropWhile_eq_false {test : Char → Bool} {text : List Char} :
    ∀ character ∈ (text.dropWhile test).head?, test character = false := by
  intro character member
  have := List.head?_dropWhile_not test text
  rw [Option.mem_def.1 member] at this
  simpa using this

theorem step_rest {cursor : Cursor} {character : Char} {rest : List Char}
    (found : cursor.rest = character :: rest) : cursor.step.rest = rest := by
  simp [Cursor.step, found]

theorem rest_of_head? {cursor : Cursor} {character : Char}
    (found : cursor.rest.head? = some character) :
    cursor.rest = character :: cursor.step.rest := by
  obtain ⟨rest, shape⟩ := List.head?_eq_some_iff.1 found
  rw [step_rest shape, shape]

theorem readWord?_reads {cursor behind : Cursor} {word : String}
    (read : readWord? cursor = some (word, behind)) : Reads cursor [.word word] behind := by
  unfold readWord? at read
  split at read
  · cases read
  · rename_i first rest shape
    split at read
    · rename_i starts
      cases read
      have continues := continuesWord_of_startsWord starts
      apply Reads.of_form (cursor.rest.takeWhile continuesWord)
      · exact List.takeWhile_append_dropWhile.symm
      · rw [Cursor.front, shape, List.takeWhile_cons_of_pos continues]
        exact .word starts fun _ member => List.mem_takeWhile_imp member
      · exact head?_dropWhile_eq_false
    · cases read

theorem readName_reads {cursor behind : Cursor} {name : String}
    (read : readName cursor = .ok (name, behind)) :
    name ∉ keywords ∧ Reads cursor [.word name] behind := by
  unfold readName at read
  split at read
  · rename_i word after found
    split at read
    · cases read
    · rename_i noKeyword
      cases read
      exact ⟨by simpa using noKeyword, (readWord?_reads found).behindBlanks⟩
  · cases read

theorem expect_reads {cursor behind : Cursor} {character : Char} (known : character ∈ marks)
    (read : expect character cursor = .ok behind) : Reads cursor [.mark character] behind := by
  unfold expect at read
  dsimp only at read
  split at read
  · rename_i found
    cases read
    apply Reads.behindBlanks
    exact Reads.of_form [character] (rest_of_head? found) (.mark known) fun _ _ => rfl
  · cases read

theorem step_reads {cursor : Cursor} {character : Char} (known : character ∈ marks)
    (found : cursor.rest.head? = some character) :
    Reads cursor [.mark character] cursor.step :=
  Reads.of_form [character] (rest_of_head? found) (.mark known) fun _ _ => rfl

theorem unescape?_eq_some_iff {letter character : Char} :
    unescape? letter = some character ↔ Escapes letter character := by
  constructor
  · intro found
    unfold unescape? at found
    split at found <;> cases found <;> constructor
  · rintro (_ | _ | _ | _ | _) <;> rfl

theorem readTextBody_sound {position : Position} {text value : List Char} {behind : Cursor}
    (read : readTextBody position text = .ok (value, behind)) :
    ∃ written, text = written ++ '"' :: behind.rest ∧ TextBody written value := by
  fun_induction readTextBody position text generalizing value with
  | case1 | case2 => cases read
  | case3 => cases read
  | case4 =>
      rename_i letter rest _ character known ih
      obtain ⟨⟨body, cursor⟩, inner, equal⟩ := map_eq_ok_iff.1 read
      cases equal
      obtain ⟨written, rfl, body⟩ := ih inner
      exact ⟨'\\' :: letter :: written, rfl, .escaped (unescape?_eq_some_iff.1 known) body⟩
  | case5 position rest _ _ => cases read; exact ⟨[], rfl, .nil⟩
  | case6 position character rest notLast notEscape noQuote ih =>
      obtain ⟨⟨body, cursor⟩, inner, equal⟩ := map_eq_ok_iff.1 read
      cases equal
      obtain ⟨written, rfl, body⟩ := ih inner
      refine ⟨character :: written, rfl, .plain noQuote ?_ body⟩
      rintro rfl
      cases written with
      | nil => exact notEscape _ _ rfl rfl
      | cons letter written => exact notEscape _ _ rfl rfl

/-! ## Numbers -/

theorem digitsValue_append (digits : List Char) (last : Char) :
    digitsValue (digits ++ [last]) = 10 * digitsValue digits + (last.toNat - '0'.toNat) := by
  simp [digitsValue, List.foldl_append]

theorem digitsValue_eq_decimalValue (digits : List Char) :
    digitsValue digits = decimalValue digits := by
  induction digits using List.reverseRecOn with
  | nil => rfl
  | append_singleton digits last ih =>
      rw [digitsValue_append, ih]
      simp only [decimalValue, List.reverse_append, List.reverse_cons, List.reverse_nil,
        List.nil_append, List.singleton_append, List.map_cons, Nat.ofDigits_cons]
      omega

theorem readInteger_reads {cursor behind : Cursor} {value : Expression}
    (read : readInteger cursor = .ok (value, behind)) :
    ∃ number, value = .integer number ∧ Reads cursor [.integer number] behind := by
  unfold readInteger at read
  by_cases negative : cursor.rest.head? = some '-'
  · simp only [negative, if_true, digitsValue_eq_decimalValue] at read
    split at read
    · cases read
    · rename_i fits
      simp only [Bool.or_eq_true, decide_eq_true_eq, not_or, List.isEmpty_iff, not_lt] at fits
      obtain ⟨⟨nonempty, above⟩, -⟩ := fits
      cases read
      refine ⟨_, rfl, ?_⟩
      apply Reads.of_form ('-' :: cursor.step.front isDigit)
      · rw [rest_of_head? negative]
        simp [Cursor.front, Cursor.skip, List.takeWhile_append_dropWhile]
      · exact .negative nonempty (fun _ member => List.mem_takeWhile_imp member) (by omega)
      · exact head?_dropWhile_eq_false
  · simp only [negative, if_false, digitsValue_eq_decimalValue] at read
    split at read
    · cases read
    · rename_i fits
      simp only [Bool.or_eq_true, decide_eq_true_eq, not_or, List.isEmpty_iff, not_lt] at fits
      obtain ⟨⟨nonempty, -⟩, below⟩ := fits
      cases read
      refine ⟨_, rfl, ?_⟩
      apply Reads.of_form (cursor.front isDigit)
      · simp [Cursor.front, Cursor.skip, List.takeWhile_append_dropWhile]
      · exact .natural nonempty (fun _ member => List.mem_takeWhile_imp member) (by omega)
      · exact head?_dropWhile_eq_false

theorem readIndex_reads {cursor behind : Cursor} {value : Expression}
    (dollar : cursor.rest.head? = some '$')
    (read : readIndex cursor.step = .ok (value, behind)) :
    ∃ index, value = .argument index ∧ Reads cursor [.argument index] behind := by
  unfold readIndex at read
  dsimp only at read
  split at read
  · cases read
  · rename_i fits
    simp only [Bool.or_eq_true, decide_eq_true_eq, not_or, List.isEmpty_iff, not_lt] at fits
    cases read
    refine ⟨_, rfl, ?_⟩
    rw [digitsValue_eq_decimalValue] at *
    have below : decimalValue (cursor.step.rest.takeWhile isDigit) ≤ 18446744073709551615 := fits.2
    apply Reads.of_form ('$' :: cursor.step.rest.takeWhile isDigit)
    · rw [rest_of_head? dollar]
      simp [Cursor.skip, List.takeWhile_append_dropWhile]
    · exact .argument fits.1 (fun _ member => List.mem_takeWhile_imp member) (by omega)
    · exact head?_dropWhile_eq_false

/-! ## Expressions -/

theorem readNamed_reads {cursor behind : Cursor} {value : Expression}
    (read : readNamed cursor = .ok (value, behind)) :
    ∃ name, name ∉ keywords ∧ value = .named name ∧ Reads cursor [.word name] behind := by
  unfold readNamed at read
  split at read
  · rename_i word after found
    split at read
    · cases read
    · rename_i noKeyword
      cases read
      exact ⟨word, by simpa using noKeyword, rfl, readWord?_reads found⟩
  · cases read

/-- A term that is read with this fuel is derived. -/
def TermReads (fuel : Nat) : Prop :=
  ∀ {cursor behind value}, readTerm fuel cursor = .ok (value, behind) →
    ∃ lexemes, TermOf lexemes value ∧ Reads cursor lexemes behind

/-- A sum that is read with this fuel is derived. -/
def SumReads (fuel : Nat) : Prop :=
  ∀ {cursor behind value}, readSum fuel cursor = .ok (value, behind) →
    ∃ lexemes, SumOf lexemes value ∧ Reads cursor lexemes behind

/-- The further terms of a sum that are read with this fuel are derived. -/
def SumTailReads (fuel : Nat) : Prop :=
  ∀ {left cursor behind value}, readSumTail fuel left cursor = .ok (value, behind) →
    ∃ lexemes further, FurtherOf lexemes further ∧ value = further.foldl .sum left ∧
      Reads cursor lexemes behind

theorem termReads_succ {fuel : Nat} (readsSum : SumReads fuel) : TermReads (fuel + 1) := by
  intro cursor behind value read
  rw [readTerm] at read
  dsimp only at read
  split at read
  · cases read
  rename_i first rest shape
  split at read
  · rename_i quote
    subst quote
    obtain ⟨⟨body, after⟩, inside, equal⟩ := bind_eq_ok_iff.1 read
    cases equal
    obtain ⟨written, passed, body⟩ := readTextBody_sound inside
    refine ⟨_, .text _, .behindBlanks (Reads.of_form _ ?_ (.text body) fun _ _ => rfl)⟩
    rw [shape, ← step_rest shape, passed]
    simp
  split at read
  · obtain ⟨number, rfl, reads⟩ := readInteger_reads read
    exact ⟨_, .integer number, reads.behindBlanks⟩
  split at read
  · rename_i dollar
    obtain ⟨index, rfl, reads⟩ := readIndex_reads (by simp [shape, dollar]) read
    exact ⟨_, .argument index, reads.behindBlanks⟩
  split at read
  · rename_i opening
    obtain ⟨⟨inner, after⟩, inside, closed⟩ := bind_eq_ok_iff.1 read
    obtain ⟨last, closing, equal⟩ := bind_eq_ok_iff.1 closed
    cases equal
    obtain ⟨lexemes, sum, reads⟩ := readsSum inside
    refine ⟨_, .parenthesised sum, .behindBlanks (Reads.cons (step_reads ?_ ?_)
      (reads.trans (expect_reads ?_ closing)))⟩
    · decide
    · simp [shape, opening]
    · decide
  · obtain ⟨name, noKeyword, rfl, reads⟩ := readNamed_reads read
    exact ⟨_, .named noKeyword, reads.behindBlanks⟩

theorem sumReads_succ {fuel : Nat} (readsTerm : TermReads fuel) (readsTail : SumTailReads fuel) :
    SumReads (fuel + 1) := by
  intro cursor behind value read
  rw [readSum] at read
  obtain ⟨⟨first, after⟩, head, tail⟩ := bind_eq_ok_iff.1 read
  obtain ⟨lexemes, term, readsHead⟩ := readsTerm head
  obtain ⟨others, further, derived, rfl, readsFurther⟩ := readsTail tail
  exact ⟨_, .sum term derived, readsHead.trans readsFurther⟩

theorem sumTailReads_succ {fuel : Nat} (readsTerm : TermReads fuel)
    (readsTail : SumTailReads fuel) : SumTailReads (fuel + 1) := by
  intro left cursor behind value read
  rw [readSumTail] at read
  dsimp only at read
  split at read
  · rename_i plus
    obtain ⟨⟨right, after⟩, head, tail⟩ := bind_eq_ok_iff.1 read
    obtain ⟨lexemes, term, readsHead⟩ := readsTerm head
    obtain ⟨others, further, derived, rfl, readsFurther⟩ := readsTail tail
    exact ⟨_, _, .cons term derived, rfl, .behindBlanks
      (Reads.cons (step_reads (by decide) plus) (readsHead.trans readsFurther))⟩
  · cases read
    exact ⟨[], [], .nil, rfl, .skipBlanks cursor⟩

/-- By induction on the fuel, for terms, sums and the tails of sums together. -/
theorem readSum_reads_all (fuel : Nat) :
    TermReads fuel ∧ SumReads fuel ∧ SumTailReads fuel := by
  induction fuel with
  | zero => exact ⟨nofun, nofun, nofun⟩
  | succ fuel ih =>
      obtain ⟨readsTerm, readsSum, readsTail⟩ := ih
      exact ⟨termReads_succ readsSum, sumReads_succ readsTerm readsTail,
        sumTailReads_succ readsTerm readsTail⟩

theorem readExpression_reads {cursor behind : Cursor} {value : Expression}
    (read : readExpression cursor = .ok (value, behind)) :
    ∃ lexemes, SumOf lexemes value ∧ Reads cursor lexemes behind :=
  (readSum_reads_all cursor.fuel).2.1 read

theorem readArguments_reads (fuel : Nat) {cursor behind : Cursor} {values : List Expression}
    (read : readArguments fuel cursor = .ok (values, behind)) :
    ∃ lexemes, ListOf lexemes values ∧ Reads cursor (lexemes ++ [.mark ')']) behind := by
  induction fuel generalizing cursor values with
  | zero => cases read
  | succ fuel ih =>
      rw [readArguments] at read
      obtain ⟨⟨value, after⟩, head, tail⟩ := bind_eq_ok_iff.1 read
      obtain ⟨lexemes, sum, readsHead⟩ := readExpression_reads head
      dsimp only at tail
      split at tail
      · rename_i comma
        obtain ⟨⟨others, last⟩, more, equal⟩ := bind_eq_ok_iff.1 tail
        cases equal
        obtain ⟨rest, list, readsRest⟩ := ih more
        refine ⟨_, .more sum list, ?_⟩
        rw [List.append_assoc]
        exact readsHead.trans (.behindBlanks (.cons (step_reads (by decide) comma) readsRest))
      · rename_i closing
        cases tail
        exact ⟨_, .last sum,
          readsHead.trans (.behindBlanks (step_reads (by decide) closing))⟩
      · cases tail

theorem readCallTail_reads {cursor behind : Cursor} {values : List Expression}
    (read : readCallTail cursor = .ok (values, behind)) :
    ∃ lexemes, ArgumentsOf True lexemes values ∧ Reads cursor lexemes behind := by
  unfold readCallTail at read
  dsimp only at read
  split at read
  · rename_i opening
    have opened : Reads cursor [.mark '('] cursor.skipBlanks.step.skipBlanks :=
      .behindBlanks ((step_reads (by decide) opening).trans (.skipBlanks _))
    split at read
    · rename_i closing
      cases read
      exact ⟨_, .empty trivial, opened.cons (step_reads (by decide) closing)⟩
    · obtain ⟨lexemes, list, reads⟩ := readArguments_reads _ read
      exact ⟨_, .listed list, opened.cons reads⟩
  · cases read
    exact ⟨[], .absent, .skipBlanks cursor⟩

/-! ## Statements -/

/-- What a statement reads behind its first word. -/
theorem Reads.behindWord {cursor middle behind : Cursor} {word : String} {lexemes : List Lexeme}
    (first : readWord? cursor = some (word, middle)) (reads : Reads middle lexemes behind) :
    Reads cursor (.word word :: lexemes) behind :=
  (readWord?_reads first).cons reads

/-- The gaps in front of a statement are lexemes; inside a comment its beginning is added
in front. -/
theorem skipGaps_reads (position : Position) (text : List Char) :
    (∃ gaps : List Lexeme, (∀ gap ∈ gaps, gap.isGap = true) ∧ ∀ tail,
      Spells (skipGaps false position text).rest tail → Spells text (gaps ++ tail)) ∧
    (∃ gaps : List Lexeme, (∀ gap ∈ gaps, gap.isGap = true) ∧ ∀ tail body,
      (∀ character ∈ body, character ≠ '\n') →
      Spells (skipGaps true position text).rest tail →
      Spells ('#' :: (body ++ text)) (.comment :: (gaps ++ tail))) := by
  induction text generalizing position with
  | nil =>
      refine ⟨⟨[], by simp, fun _ spells => spells⟩, [], by simp, ?_⟩
      intro tail body oneLine spells
      exact .lexeme (.comment oneLine) (fun _ member => by simp at member) spells
  | cons character rest ih =>
      obtain ⟨⟨gaps, allGaps, reads⟩, moreGaps, allMoreGaps, readsComment⟩ :=
        ih (position.advance character)
      constructor
      · by_cases blank : Text.isProgramBlank character = true
        · refine ⟨gaps, allGaps, fun tail spells => .blank blank (reads tail ?_)⟩
          simpa [skipGaps, blank] using spells
        by_cases semicolon : character = ';'
        · subst semicolon
          refine ⟨.semicolon :: gaps, by simpa [Lexeme.isGap] using allGaps, ?_⟩
          intro tail spells
          refine @Spells.lexeme [';'] _ _ _ .semicolon (fun _ _ => rfl) (reads tail ?_)
          simpa [skipGaps, blank] using spells
        by_cases comment : character = '#'
        · subst comment
          refine ⟨.comment :: moreGaps, by simpa [Lexeme.isGap] using allMoreGaps, ?_⟩
          intro tail spells
          refine readsComment tail [] (by simp) ?_
          simpa [skipGaps, blank] using spells
        · refine ⟨[], by simp, fun tail spells => ?_⟩
          simpa [skipGaps, blank, semicolon, comment] using spells
      · by_cases lineEnd : character = '\n'
        · subst lineEnd
          refine ⟨gaps, allGaps, fun tail body oneLine spells => ?_⟩
          refine .lexeme (.comment oneLine) (fun _ member => ?_) (.blank (by decide)
            (reads tail ?_))
          · obtain rfl : _ = '\n' := by simpa using member.symm
            rfl
          · simpa [skipGaps] using spells
        · refine ⟨moreGaps, allMoreGaps, fun tail body oneLine spells => ?_⟩
          have longer := readsComment tail (body ++ [character]) ?_ ?_
          · simpa using longer
          · intro other member
            rcases List.mem_append.1 member with inBody | last
            · exact oneLine other inBody
            · rwa [List.mem_singleton.1 last]
          · have goesOn : (character != '\n') = true := by simpa using lineEnd
            simpa [skipGaps, goesOn] using spells

theorem ProgramOf.gaps {emptyAllowed : Prop} {gaps lexemes : List Lexeme}
    {statements : List Statement} (allGaps : ∀ gap ∈ gaps, gap.isGap = true)
    (program : ProgramOf emptyAllowed lexemes statements) :
    ProgramOf emptyAllowed (gaps ++ lexemes) statements := by
  induction gaps with
  | nil => exact program
  | cons gap gaps ih =>
      exact .gap (allGaps gap (by simp)) (ih fun other member => allGaps other (by simp [member]))

theorem expressionBehindWord_reads (make : Expression → Statement) {middle behind : Cursor}
    {statement : Statement}
    (read : (do
      let (value, behind) ← readExpression middle
      return (make value, behind) : Reading (Statement × Cursor)) = .ok (statement, behind)) :
    ∃ lexemes value, SumOf lexemes value ∧ statement = make value ∧
      Reads middle lexemes behind := by
  obtain ⟨⟨value, after⟩, inner, equal⟩ := bind_eq_ok_iff.1 read
  cases equal
  obtain ⟨lexemes, sum, reads⟩ := readExpression_reads inner
  exact ⟨lexemes, value, sum, rfl, reads⟩

theorem assignmentBehindWord_reads (make : String → Expression → Statement)
    {middle behind : Cursor} {statement : Statement}
    (read : (do
      let (name, behind) ← readName middle
      let (value, behind) ← readExpression (← expect '=' behind)
      return (make name value, behind) : Reading (Statement × Cursor)) = .ok (statement, behind)) :
    ∃ name lexemes value, name ∉ keywords ∧ SumOf lexemes value ∧ statement = make name value ∧
      Reads middle (.word name :: .mark '=' :: lexemes) behind := by
  obtain ⟨⟨name, named⟩, inner, read⟩ := bind_eq_ok_iff.1 read
  obtain ⟨equals, sign, read⟩ := bind_eq_ok_iff.1 read
  obtain ⟨⟨value, after⟩, inside, equal⟩ := bind_eq_ok_iff.1 read
  cases equal
  obtain ⟨noKeyword, readsName⟩ := readName_reads inner
  obtain ⟨lexemes, sum, reads⟩ := readExpression_reads inside
  exact ⟨name, lexemes, value, noKeyword, sum, rfl,
    readsName.cons ((expect_reads (by decide) sign).cons reads)⟩

/-- A statement that is read with this fuel is derived. -/
def StatementReads (fuel : Nat) : Prop :=
  ∀ {cursor behind statement}, readStatement fuel cursor = .ok (statement, behind) →
    ∃ lexemes, StatementOf True lexemes statement ∧ Reads cursor lexemes behind

/-- A block that is read with this fuel is derived, up to its brace or the end of the text. -/
def BlockReads (fuel : Nat) : Prop :=
  ∀ {braced cursor behind statements}, readBlock fuel braced cursor = .ok (statements, behind) →
    ∃ lexemes, ProgramOf True lexemes statements ∧
      Reads cursor (lexemes ++ if braced then [.mark '\x7d'] else []) behind ∧
      (braced = false → behind.rest = [])

theorem statementReads_succ {fuel : Nat} (readsBlock : BlockReads fuel) :
    StatementReads (fuel + 1) := by
  intro cursor behind statement read
  rw [readStatement] at read
  split at read
  · cases read
  rename_i word middle first
  split at read
  · obtain ⟨_, _, sum, rfl, reads⟩ := expressionBehindWord_reads .print read
    exact ⟨_, .print sum, reads.behindWord first⟩
  · obtain ⟨_, _, sum, rfl, reads⟩ := expressionBehindWord_reads .printError read
    exact ⟨_, .printError sum, reads.behindWord first⟩
  · obtain ⟨_, _, sum, rfl, reads⟩ := expressionBehindWord_reads .includeDocument read
    exact ⟨_, .includeDocument sum, reads.behindWord first⟩
  · obtain ⟨_, _, sum, rfl, reads⟩ := expressionBehindWord_reads .giveBack read
    exact ⟨_, .giveBack sum, reads.behindWord first⟩
  · obtain ⟨_, _, _, noKeyword, sum, rfl, reads⟩ := assignmentBehindWord_reads .assign read
    exact ⟨_, .assign noKeyword sum, reads.behindWord first⟩
  · obtain ⟨_, _, _, noKeyword, sum, rfl, reads⟩ := assignmentBehindWord_reads .assignGlobal read
    exact ⟨_, .assignGlobal noKeyword sum, reads.behindWord first⟩
  · obtain ⟨⟨name, named⟩, inner, read⟩ := bind_eq_ok_iff.1 read
    obtain ⟨opened, brace, read⟩ := bind_eq_ok_iff.1 read
    obtain ⟨⟨body, after⟩, inside, equal⟩ := bind_eq_ok_iff.1 read
    cases equal
    obtain ⟨noKeyword, readsName⟩ := readName_reads inner
    obtain ⟨lexemes, block, reads, -⟩ := readsBlock inside
    exact ⟨_, .define noKeyword block,
      (readsName.cons ((expect_reads (by decide) brace).cons reads)).behindWord first⟩
  · obtain ⟨⟨name, named⟩, inner, read⟩ := bind_eq_ok_iff.1 read
    obtain ⟨⟨values, after⟩, inside, equal⟩ := bind_eq_ok_iff.1 read
    cases equal
    obtain ⟨noKeyword, readsName⟩ := readName_reads inner
    obtain ⟨lexemes, arguments, reads⟩ := readCallTail_reads inside
    exact ⟨_, .call noKeyword arguments, (readsName.cons reads).behindWord first⟩
  · cases read

theorem blockReads_succ {fuel : Nat} (readsStatement : StatementReads fuel)
    (readsBlock : BlockReads fuel) : BlockReads (fuel + 1) := by
  intro braced cursor behind statements read
  obtain ⟨⟨gaps, allGaps, readsGaps⟩, -⟩ := skipGaps_reads cursor.position cursor.rest
  have readsGaps : Reads cursor gaps cursor.skipGaps := readsGaps
  have onlyGaps : ProgramOf True gaps [] := by simpa using ProgramOf.gaps allGaps .nil
  rw [readBlock] at read
  dsimp only at read
  split at read
  · rename_i atEnd
    cases braced
    · cases read
      exact ⟨gaps, onlyGaps, by simpa using readsGaps, fun _ => atEnd⟩
    · cases read
  rename_i character rest shape
  split at read
  · rename_i brace
    cases braced
    · cases read
    · cases read
      refine ⟨gaps, onlyGaps, ?_, by simp⟩
      exact readsGaps.trans (step_reads (by decide) (by simp [shape, brace]))
  · obtain ⟨⟨statement, middle⟩, head, read⟩ := bind_eq_ok_iff.1 read
    obtain ⟨⟨others, after⟩, tail, equal⟩ := bind_eq_ok_iff.1 read
    cases equal
    obtain ⟨lexemes, derived, readsFirst⟩ := readsStatement head
    obtain ⟨further, program, readsRest, complete⟩ := readsBlock tail
    refine ⟨gaps ++ (lexemes ++ further), .gaps allGaps (.cons derived program), ?_, complete⟩
    simpa [List.append_assoc] using readsGaps.trans (readsFirst.trans readsRest)

/-- By induction on the fuel, for statements and blocks together. -/
theorem readBlock_reads_all (fuel : Nat) : StatementReads fuel ∧ BlockReads fuel := by
  induction fuel with
  | zero => exact ⟨nofun, nofun⟩
  | succ fuel ih =>
      obtain ⟨readsStatement, readsBlock⟩ := ih
      exact ⟨statementReads_succ readsBlock, blockReads_succ readsStatement readsBlock⟩

/-- A program that can be read is derived. -/
theorem derives_of_parse {text : String} {statements : List Statement}
    (read : parse text = .ok statements) : Derives text statements := by
  obtain ⟨⟨found, behind⟩, inside, rfl⟩ := map_eq_ok_iff.1 read
  obtain ⟨lexemes, program, reads, complete⟩ := (readBlock_reads_all _).2 inside
  refine ⟨lexemes, ?_, program⟩
  have spells := reads [] (by simpa [complete rfl] using Spells.done)
  simpa [Cursor.ofText] using spells

end DocumentHost.Mini
