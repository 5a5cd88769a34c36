import DocumentHost.Mini.Language
import DocumentHost.Proofs.Mini.Joining

/-!
# What generated code says

The host writes code around what it is given.  A literal comes back as the text it was,
since escaping and reading agree character by character.  An expression comes back as the
expression it was, since no lexeme of it goes on into the closing parenthesis behind it.
-/

namespace DocumentHost.Mini

/-- A text derives an expression. -/
def DerivesExpression (text : String) (value : Expression) : Prop :=
  ∃ lexemes, Spells text.toList lexemes ∧ SumOf lexemes value

/-- What is read up to the end of a text has been derived. -/
theorem DerivesExpression.of_read {text : String} {value : Expression} {behind : Cursor}
    (read : readExpression (.ofText text) = .ok (value, behind)) (ends : behind.rest = []) :
    DerivesExpression text value := by
  obtain ⟨lexemes, sum, reads⟩ := readExpression_reads read
  have spells := reads [] (ends ▸ .done)
  rw [List.append_nil] at spells
  exact ⟨lexemes, spells, sum⟩

/-! ## Expressions in parentheses -/

mutual

theorem TermOf.isGap_eq_false {lexemes : List Lexeme} {value : Expression}
    (term : TermOf lexemes value) : ∀ lexeme ∈ lexemes, lexeme.isGap = false := by
  match term with
  | .text _ | .integer _ | .argument _ | .named _ => simp [Lexeme.isGap]
  | .parenthesised inside => simpa [Lexeme.isGap, or_imp, forall_and] using inside.isGap_eq_false

theorem SumOf.isGap_eq_false {lexemes : List Lexeme} {value : Expression}
    (sum : SumOf lexemes value) : ∀ lexeme ∈ lexemes, lexeme.isGap = false := by
  match sum with
  | .sum term tail =>
      simpa [or_imp, forall_and] using ⟨term.isGap_eq_false, tail.isGap_eq_false⟩

theorem FurtherOf.isGap_eq_false {lexemes : List Lexeme} {values : List Expression}
    (further : FurtherOf lexemes values) : ∀ lexeme ∈ lexemes, lexeme.isGap = false := by
  match further with
  | .nil => simp
  | .cons term tail =>
      simpa [Lexeme.isGap, or_imp, forall_and] using ⟨term.isGap_eq_false, tail.isGap_eq_false⟩

end

/-- Only a comment goes on where no word does. -/
theorem Lexeme.goesOn_eq_false {lexeme : Lexeme} (noGap : lexeme.isGap = false)
    {character : Char} (noWord : continuesWord character = false) :
    lexeme.goesOn character = false := by
  cases lexeme with
  | comment => cases noGap
  | word => exact noWord
  | integer | argument =>
      refine Bool.eq_false_iff.2 fun digit => ?_
      rw [continuesWord_of_isDigit digit] at noWord
      cases noWord
  | text | mark | semicolon => rfl

/-- The lexemes of an expression stay what they are in front of a text that does not go on with
a word. -/
theorem SumOf.not_runsInto {first second : List Char} {lexemes : List Lexeme}
    {value : Expression} (sum : SumOf lexemes value) (spells : Spells first lexemes)
    (noWord : ∀ character ∈ second.head?, continuesWord character = false) :
    ¬RunsInto first second := by
  rintro ⟨last, ends, goesOn⟩
  obtain ⟨front, rfl, -⟩ := ends.exists_front spells
  have noGap := sum.isGap_eq_false last (by simp)
  exact goesOn fun character next => Lexeme.goesOn_eq_false noGap (noWord character next)

/-- A text with blanks around it derives what it derives by itself. -/
theorem DerivesExpression.surrounded {front inside back : String} {value : Expression}
    (derives : DerivesExpression inside value)
    (frontBlank : ∀ character ∈ front.toList, Text.isProgramBlank character = true)
    (backBlank : ∀ character ∈ back.toList, Text.isProgramBlank character = true) :
    DerivesExpression (front ++ inside ++ back) value := by
  obtain ⟨lexemes, spells, sum⟩ := derives
  have nothing : Spells back.toList [] := by
    simpa using Spells.blanks backBlank .done
  have apart : ¬RunsInto inside.toList back.toList := by
    refine sum.not_runsInto spells fun character next => Bool.eq_false_iff.2 fun continues => ?_
    have blank := backBlank character (List.mem_of_mem_head? next)
    rw [not_isProgramBlank_of_continuesWord continues] at blank
    cases blank
  have behind := spells.append_of_not_runsInto apart nothing
  rw [List.append_nil] at behind
  refine ⟨lexemes, ?_, sum⟩
  rw [String.toList_append, String.toList_append, List.append_assoc]
  exact .blanks frontBlank behind

theorem Spells.character {character : Char} {rest : List Char} {lexeme : Lexeme}
    {lexemes : List Lexeme} (form : Form [character] lexeme) (stops : lexeme.StopsAt rest)
    (spells : Spells rest lexemes) : Spells (character :: rest) (lexeme :: lexemes) :=
  .lexeme form stops spells

/-- A keyword in front of an expression in parentheses. -/
theorem spells_keyword_parenthesised {keyword : String} (known : keyword ∈ keywords)
    {text : List Char} {lexemes : List Lexeme} {value : Expression}
    (spells : Spells text lexemes) (sum : SumOf lexemes value) :
    Spells (keyword.toList ++ ' ' :: '(' :: (text ++ [')', ';']))
      (.word keyword :: .mark '(' :: (lexemes ++ [.mark ')', .semicolon])) := by
  have closing : Spells [')', ';'] [.mark ')', .semicolon] :=
    .character (.mark (by decide)) (fun _ _ => rfl)
      (.character .semicolon (fun _ _ => rfl) .done)
  have apart : ¬RunsInto text [')', ';'] := by
    refine sum.not_runsInto spells fun character next => ?_
    obtain rfl : ')' = character := by simpa using next
    decide
  have inside := spells.append_of_not_runsInto apart closing
  refine .lexeme (form_keyword known) ?_ (.blank (by decide)
    (.character (.mark (by decide)) (fun _ _ => rfl) inside))
  intro character next
  obtain rfl : ' ' = character := by simpa using next
  rfl

/-- Code that begins with a keyword and goes on with a text in parentheses. -/
theorem derives_parenthesised (keyword : String) {expression : String}
    (known : keyword ∈ keywords)
    {value : Expression} {statement : Statement} (derives : DerivesExpression expression value)
    (rule : ∀ lexemes, SumOf lexemes value →
      StatementOf True (.word keyword :: lexemes) statement) :
    Derives (keyword ++ " (" ++ expression ++ ");") [statement] := by
  obtain ⟨lexemes, spells, sum⟩ := derives
  have whole := spells_keyword_parenthesised known spells sum
  refine ⟨_, by simpa [String.toList_append] using whole, ?_⟩
  have inParentheses : SumOf (.mark '(' :: (lexemes ++ [.mark ')'])) value := by
    simpa using SumOf.sum (.parenthesised sum) .nil
  have semicolonIsGap : Lexeme.semicolon.isGap = true := rfl
  simpa using ProgramOf.cons (rule _ inParentheses) (.gap semicolonIsGap .nil)

theorem parse_codeForExpression {expression : String} {value : Expression}
    (derives : DerivesExpression expression value) :
    parse (codeForExpression expression) = .ok [.print value] :=
  parse_of_derives (derives_parenthesised "print" (by decide) derives
    fun _ sum => .print sum)

theorem parse_codeForInclude {expression : String} {value : Expression}
    (derives : DerivesExpression expression value) :
    parse (codeForInclude expression) = .ok [.includeDocument value] :=
  parse_of_derives (derives_parenthesised "include" (by decide) derives
    fun _ sum => .includeDocument sum)

/-! ## Calls of entry points -/

theorem parse_codeForEntry {name : String} (isName : IsName name) :
    parse (codeForEntry name) = .ok [.call name []] := by
  obtain ⟨form, noKeyword⟩ := isName
  refine parse_of_derives ⟨[.word "call", .word name, .semicolon], ?_,
    .cons (.call noKeyword .absent) (.gap rfl .nil)⟩
  have semicolon : Spells [';'] [.semicolon] :=
    .character .semicolon (fun _ _ => rfl) .done
  have spelled : Spells (("call".toList : List Char) ++ ' ' :: (name.toList ++ [';']))
      [.word "call", .word name, .semicolon] := by
    refine .lexeme (form_keyword (by decide)) ?_ (.blank (by decide) (.lexeme form ?_ semicolon))
    · intro character next
      obtain rfl : ' ' = character := by simpa using next
      rfl
    · intro character next
      obtain rfl : ';' = character := by simpa using next
      rfl
  simpa [codeForEntry, String.toList_append] using spelled

/-! ## The adapter -/

/-- Code that the adapter writes reads back as the one statement that it is for: it prints the
text it was given, whatever the text is; it prints or includes the expression it was given,
whatever blanks stand around that; it calls the name it was given. -/
theorem generated_code_reads_back (profile : AdapterProfile) :
    (∀ text, ∃ code, (adapter profile).codeForLiteral text = some code ∧
      parse code = .ok [.print (.text text)]) ∧
    (∀ front inside back value, DerivesExpression inside value →
      (∀ character ∈ front.toList, Text.isProgramBlank character = true) →
      (∀ character ∈ back.toList, Text.isProgramBlank character = true) →
      (∃ code, (adapter profile).codeForExpression (front ++ inside ++ back) = some code ∧
        parse code = .ok [.print value]) ∧
      ∃ code, (adapter profile).codeForInclude (front ++ inside ++ back) = some code ∧
        parse code = .ok [.includeDocument value]) ∧
    ∀ name, IsName name → ∃ code, (adapter profile).codeForEntry name = some code ∧
      parse code = .ok [.call name []] := by
  refine ⟨fun text => ⟨_, rfl, parse_codeForLiteral text⟩, ?_,
    fun name isName => ⟨_, rfl, parse_codeForEntry isName⟩⟩
  intro front inside back value derives frontBlank backBlank
  have surrounded := derives.surrounded frontBlank backBlank
  exact ⟨⟨_, rfl, parse_codeForExpression surrounded⟩, ⟨_, rfl, parse_codeForInclude surrounded⟩⟩

/-- A sum with a text that has a parenthesis and quotes in it, and blanks of all kinds around. -/
theorem generated_code_reads_back_nested :
    DerivesExpression "($0+\")(\\\"\")+-1"
        (.sum (.sum (.argument 0) (.text ")(\"")) (.integer (-1))) ∧
      IsName "_a.b" ∧
      parse "print ( \t\r\n($0+\")(\\\"\")+-1\x0c);" =
        .ok [.print (.sum (.sum (.argument 0) (.text ")(\"")) (.integer (-1)))] ∧
      parse "call _a.b;" = .ok [.call "_a.b" []] := by
  have derives : DerivesExpression "($0+\")(\\\"\")+-1"
      (.sum (.sum (.argument 0) (.text ")(\"")) (.integer (-1))) := by
    have read : readExpression ⟨"($0+\")(\\\"\")+-1".toList, ⟨1, 1⟩⟩ =
        .ok (.sum (.sum (.argument 0) (.text ")(\"")) (.integer (-1)), ⟨[], ⟨1, 15⟩⟩) := by
      decide +kernel
    exact .of_read read rfl
  have isName : IsName "_a.b" := ⟨.word (by decide) (List.all_eq_true.1 (by decide)), by decide⟩
  obtain ⟨-, expressions, entries⟩ := generated_code_reads_back standardProfile
  obtain ⟨⟨printing, written, printed⟩, -⟩ :=
    expressions " \t\r\n" _ "\x0c" _ derives (List.all_eq_true.1 (by decide))
      (List.all_eq_true.1 (by decide))
  obtain ⟨calling, called, calls⟩ := entries "_a.b" isName
  have isPrinting : printing = "print ( \t\r\n($0+\")(\\\"\")+-1\x0c);" :=
    (Option.some.inj written).symm
  have isCalling : calling = "call _a.b;" := (Option.some.inj called).symm
  rw [isPrinting] at printed
  rw [isCalling] at calls
  exact ⟨derives, isName, printed, calls⟩

end DocumentHost.Mini
