import DocumentHost.Proofs.Mini.Lexing
import DocumentHost.Proofs.Mini.Reading
import DocumentHost.Proofs.Mini.Running

/-!
# Program texts one behind the other

A program text that ends in a semicolon can be continued by another one: the lexemes of
both stand one behind the other, and so do their statements.  The semicolon is needed,
since a word or a comment at the end would go on into the second text.
-/

namespace DocumentHost.Mini

/-- The last lexeme of a program text is a semicolon. -/
def EndsInSemicolon (text : String) : Prop :=
  ∃ lexemes, Spells text.toList (lexemes ++ [.semicolon])

/-- By induction on the lexemes of the first text, the last of which stops in front of
any text. -/
theorem Spells.append {first second : List Char} {lexemes others : List Lexeme}
    (spells : Spells first (lexemes ++ [.semicolon])) (rest : Spells second others) :
    Spells (first ++ second) (lexemes ++ .semicolon :: others) := by
  generalize all : lexemes ++ [.semicolon] = together at spells
  induction spells generalizing lexemes with
  | done => simp at all
  | blank blank _ ih => exact .blank blank (ih all)
  | @lexeme written remaining lexeme further form stops spells ih =>
      rw [List.append_assoc]
      cases lexemes with
      | nil =>
          obtain ⟨rfl, rfl⟩ := List.cons.inj all
          refine .lexeme form (fun _ _ => rfl) ?_
          have blanks := spells.eq_nil_of_nil
          rw [List.dropWhile_eq_nil_iff] at blanks
          exact .blanks blanks rest
      | cons head tail =>
          obtain ⟨rfl, tailEqual⟩ := List.cons.inj all
          refine .lexeme form ?_ (ih tailEqual)
          intro character next
          cases remaining with
          | nil =>
              have missing := spells.length_le
              rw [← tailEqual] at missing
              simp at missing
          | cons other remaining => exact stops character next

theorem EndsInSemicolon.append {first second : String} (ends : EndsInSemicolon first)
    (secondEnds : EndsInSemicolon second) : EndsInSemicolon (first ++ second) := by
  obtain ⟨lexemes, spells⟩ := ends
  obtain ⟨others, further⟩ := secondEnds
  refine ⟨lexemes ++ .semicolon :: others, ?_⟩
  rw [String.toList_append, List.append_assoc]
  exact spells.append further

/-- The statements of two texts stand one behind the other. -/
theorem parse_append {first second : String} {statements others : List Statement}
    (read : parse first = .ok statements) (ends : EndsInSemicolon first)
    (secondRead : parse second = .ok others) :
    parse (first ++ second) = .ok (statements ++ others) := by
  obtain ⟨lexemes, spells⟩ := ends
  obtain ⟨_, spellsToo, program⟩ := derives_of_parse read
  obtain rfl := spells.unique spellsToo
  obtain ⟨further, spellsSecond, secondProgram⟩ := derives_of_parse secondRead
  refine parse_of_derives ⟨(lexemes ++ [.semicolon]) ++ further, ?_, program.append secondProgram⟩
  rw [String.toList_append, List.append_assoc]
  exact spells.append spellsSecond

/-! ## Code for literals -/

theorem spells_keyword_text {keyword : String} (known : keyword ∈ keywords) (text : String) :
    Spells (keyword.toList ++ ' ' :: '"' :: (escape text.toList ++ ['"', ';']))
      [.word keyword, .text text, .semicolon] := by
  have shape : keyword.toList ++ ' ' :: '"' :: (escape text.toList ++ ['"', ';']) =
      keyword.toList ++ ' ' :: (('"' :: (escape text.toList ++ ['"'])) ++ ([';'] ++ [])) := by
    simp
  rw [shape]
  refine .lexeme (form_keyword known) ?_ (.blank (by decide) (.lexeme (form_text text) ?_
    (.lexeme .semicolon (fun _ _ => rfl) .done)))
  · intro character next
    obtain rfl : ' ' = character := by simpa using next
    rfl
  · exact fun _ _ => rfl

theorem spells_codeForLiteral (text : String) :
    Spells (codeForLiteral text).toList [.word "print", .text text, .semicolon] := by
  have spells := spells_keyword_text (show "print" ∈ keywords by decide) text
  rw [codeForLiteral]
  simpa using spells

theorem endsInSemicolon_codeForLiteral (text : String) :
    EndsInSemicolon (codeForLiteral text) :=
  ⟨[.word "print", .text text], spells_codeForLiteral text⟩

/-- The code for a literal prints it. -/
theorem parse_codeForLiteral (text : String) :
    parse (codeForLiteral text) = .ok [.print (.text text)] := by
  refine parse_of_derives ⟨_, spells_codeForLiteral text, ?_⟩
  exact .cons (.print (.sum (.text text) .nil)) (.gap rfl .nil)

/-! ## Texts that can be continued -/

/-- A program text that can stand alone as well as in front of another one. -/
structure Continuable (text : String) (statements : List Statement) : Prop where
  parses : parse text = .ok statements
  never : NeverReturns statements
  ends : EndsInSemicolon text

theorem Continuable.append {first second : String} {statements others : List Statement}
    (continuable : Continuable first statements) (further : Continuable second others) :
    Continuable (first ++ second) (statements ++ others) where
  parses := parse_append continuable.parses continuable.ends further.parses
  never := continuable.never.append further.never
  ends := continuable.ends.append further.ends

theorem continuable_codeForLiteral (text : String) :
    Continuable (codeForLiteral text) [.print (.text text)] where
  parses := parse_codeForLiteral text
  never := by simp [NeverReturns]
  ends := endsInSemicolon_codeForLiteral text

end DocumentHost.Mini
