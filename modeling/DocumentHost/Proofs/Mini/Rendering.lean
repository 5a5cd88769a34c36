import DocumentHost.Mini.Code
import DocumentHost.Proofs.Mini.Soundness

/-!
# Writing programs

Every well-formed program can be written: lexeme after lexeme, each on a line of its
own, with the right operand of every sum in parentheses.  Conversely the lexemes of a
text yield well-formed programs only, since a lexeme carries no name, number or index
that cannot be written.
-/

namespace DocumentHost.Mini

/-! ## Texts in quotes -/

theorem textBody_escapeCharacter {character : Char} {written value : List Char}
    (body : TextBody written value) :
    TextBody (escapeCharacter character ++ written) (character :: value) := by
  unfold escapeCharacter
  split
  · exact .escaped .quote body
  · exact .escaped .backslash body
  · exact .escaped .lineFeed body
  · exact .escaped .carriageReturn body
  · exact .escaped .tab body
  · exact .plain (by assumption) (by assumption) body

/-- An escaped text is the form of the text. -/
theorem textBody_escape (text : List Char) : TextBody (escape text) text := by
  induction text with
  | nil => exact .nil
  | cons character text ih =>
      rw [escape, List.flatMap_cons]
      exact textBody_escapeCharacter ih

/-! ## Lexemes -/

/-- A form of a lexeme. -/
def Lexeme.written : Lexeme → List Char
  | .word letters => letters.toList
  | .integer (.ofNat value) => Nat.toDigits 10 value
  | .integer (.negSucc value) => '-' :: Nat.toDigits 10 (value + 1)
  | .argument index => '$' :: Nat.toDigits 10 index
  | .text value => '"' :: (escape value.toList ++ ['"'])
  | .mark character => [character]
  | .semicolon => [';']
  | .comment => ['#']

/-- The lexemes of a text, each followed by the end of its line. -/
def spelled (lexemes : List Lexeme) : List Char :=
  lexemes.flatMap fun lexeme => lexeme.written ++ ['\n']

theorem decimalValue_toDigits (value : Nat) : decimalValue (Nat.toDigits 10 value) = value := by
  rw [← digitsValue_eq_decimalValue, digitsValue, ← Nat.ofDigitChars_eq_foldl]
  exact Nat.ofDigitChars_toDigits (by decide) (by decide)

theorem isDigit_of_mem_toDigits {value : Nat} {digit : Char}
    (member : digit ∈ Nat.toDigits 10 value) : isDigit digit = true := by
  have decimal := Nat.isDigit_of_mem_toDigits (by decide) (by decide) member
  simpa [Char.isDigit, isDigit, Char.le_def] using decimal

theorem form_integer {value : Int} (above : -(2 ^ 63) ≤ value) (below : value < 2 ^ 63) :
    Form (Lexeme.integer value).written (.integer value) := by
  cases value with
  | ofNat value =>
      have form := @Form.natural (Nat.toDigits 10 value) Nat.toDigits_ne_nil
        (fun _ member => isDigit_of_mem_toDigits member)
        (by rw [decimalValue_toDigits]; simp at below; omega)
      rwa [decimalValue_toDigits] at form
  | negSucc value =>
      have form := @Form.negative (Nat.toDigits 10 (value + 1)) Nat.toDigits_ne_nil
        (fun _ member => isDigit_of_mem_toDigits member)
        (by rw [decimalValue_toDigits]; omega)
      rwa [decimalValue_toDigits] at form

theorem form_argument {index : Nat} (fits : index < 2 ^ 64) :
    Form (Lexeme.argument index).written (.argument index) := by
  have form := @Form.argument (Nat.toDigits 10 index) Nat.toDigits_ne_nil
    (fun _ member => isDigit_of_mem_toDigits member)
    (by rwa [decimalValue_toDigits])
  rwa [decimalValue_toDigits] at form

theorem form_text (value : String) : Form (Lexeme.text value).written (.text value) := by
  have form := Form.text (textBody_escape value.toList)
  rwa [String.ofList_toList] at form

theorem form_keyword {word : String} (keyword : word ∈ keywords) :
    Form (Lexeme.word word).written (.word word) := by
  revert keyword
  simp only [keywords, List.mem_cons, List.not_mem_nil, or_false]
  rintro (rfl | rfl | rfl | rfl | rfl | rfl | rfl | rfl) <;>
    exact .word (by decide) (List.all_eq_true.1 (by decide))

/-- At the end of a line every lexeme stops. -/
theorem Lexeme.goesOn_lineEnd (lexeme : Lexeme) : lexeme.goesOn '\n' = false := by
  cases lexeme <;> rfl

/-- Lexemes that have their form are spelled line by line. -/
theorem spells_spelled {lexemes : List Lexeme}
    (forms : ∀ lexeme ∈ lexemes, Form lexeme.written lexeme) :
    Spells (spelled lexemes) lexemes := by
  induction lexemes with
  | nil => exact .done
  | cons lexeme lexemes ih =>
      rw [spelled, List.flatMap_cons, List.append_assoc]
      refine .lexeme (forms lexeme (by simp)) ?_ (.blank (by decide) (ih ?_))
      · intro character member
        obtain rfl : '\n' = character := by simpa using member
        exact lexeme.goesOn_lineEnd
      · exact fun other member => forms other (by simp [member])

/-! ## Programs -/

/-- The lexemes of an expression. -/
def Expression.lexemes : Expression → List Lexeme
  | .text value => [.text value]
  | .integer value => [.integer value]
  | .named name => [.word name]
  | .argument index => [.argument index]
  | .sum left right =>
      left.lexemes ++ .mark '+' :: .mark '(' :: (right.lexemes ++ [.mark ')'])

/-- The lexemes of a list with a first value. -/
def listLexemes (first : Expression) : List Expression → List Lexeme
  | [] => first.lexemes
  | second :: rest => first.lexemes ++ .mark ',' :: listLexemes second rest

/-- The lexemes of the arguments of a call; without any there are no parentheses. -/
def argumentLexemes : List Expression → List Lexeme
  | [] => []
  | first :: rest => .mark '(' :: (listLexemes first rest ++ [.mark ')'])

mutual

/-- The lexemes of a statement. -/
def Statement.lexemes : Statement → List Lexeme
  | .print value => .word "print" :: value.lexemes
  | .printError value => .word "eprint" :: value.lexemes
  | .assign name value => .word "set" :: .word name :: .mark '=' :: value.lexemes
  | .assignGlobal name value => .word "global" :: .word name :: .mark '=' :: value.lexemes
  | .includeDocument document => .word "include" :: document.lexemes
  | .define name body =>
      .word "def" :: .word name :: .mark '\x7b' :: (programLexemes body ++ [.mark '\x7d'])
  | .call name values => .word "call" :: .word name :: argumentLexemes values
  | .giveBack value => .word "return" :: value.lexemes

/-- The lexemes of a program. -/
def programLexemes : List Statement → List Lexeme
  | [] => []
  | statement :: rest => statement.lexemes ++ programLexemes rest

end

theorem sumOf_lexemes {value : Expression} (wellFormed : value.WellFormed) :
    SumOf value.lexemes value := by
  have single {lexemes : List Lexeme} {value : Expression} (term : TermOf lexemes value) :
      SumOf lexemes value := by
    simpa using SumOf.sum term .nil
  induction value with
  | text value => exact single (.text value)
  | integer value => exact single (.integer value)
  | named name => exact single (.named wellFormed.2)
  | argument index => exact single (.argument index)
  | sum left right leftSum rightSum =>
      exact (leftSum wellFormed.1).plus (.parenthesised (rightSum wellFormed.2))

theorem forms_cons {first : Lexeme} {lexemes : List Lexeme} (form : Form first.written first)
    (forms : ∀ lexeme ∈ lexemes, Form lexeme.written lexeme) :
    ∀ lexeme ∈ first :: lexemes, Form lexeme.written lexeme := by
  simp only [List.mem_cons]
  rintro lexeme (rfl | member)
  · exact form
  · exact forms lexeme member

theorem forms_append {lexemes others : List Lexeme}
    (forms : ∀ lexeme ∈ lexemes, Form lexeme.written lexeme)
    (formsOthers : ∀ lexeme ∈ others, Form lexeme.written lexeme) :
    ∀ lexeme ∈ lexemes ++ others, Form lexeme.written lexeme := by
  intro lexeme member
  rcases List.mem_append.1 member with first | second
  · exact forms lexeme first
  · exact formsOthers lexeme second

theorem forms_expression {value : Expression} (wellFormed : value.WellFormed) :
    ∀ lexeme ∈ value.lexemes, Form lexeme.written lexeme := by
  induction value with
  | text value => simpa [Expression.lexemes] using form_text value
  | integer value => simpa [Expression.lexemes] using form_integer wellFormed.1 wellFormed.2
  | named name =>
      intro lexeme member
      obtain rfl : lexeme = .word name := by simpa [Expression.lexemes] using member
      exact wellFormed.1
  | argument index => simpa [Expression.lexemes] using form_argument wellFormed
  | sum left right formsLeft formsRight =>
      exact forms_append (formsLeft wellFormed.1) (forms_cons (.mark (by decide))
        (forms_cons (.mark (by decide)) (forms_append (formsRight wellFormed.2)
          (forms_cons (.mark (by decide)) (by simp)))))

theorem listOf_lexemes {first : Expression} {rest : List Expression}
    (wellFormed : ∀ value ∈ first :: rest, value.WellFormed) :
    ListOf (listLexemes first rest) (first :: rest) := by
  induction rest generalizing first with
  | nil => exact .last (sumOf_lexemes (wellFormed first (by simp)))
  | cons second rest ih =>
      refine .more (sumOf_lexemes (wellFormed first (by simp))) (ih ?_)
      exact fun value member => wellFormed value (by simp [member])

theorem forms_list {first : Expression} {rest : List Expression}
    (wellFormed : ∀ value ∈ first :: rest, value.WellFormed) :
    ∀ lexeme ∈ listLexemes first rest, Form lexeme.written lexeme := by
  induction rest generalizing first with
  | nil => exact forms_expression (wellFormed first (by simp))
  | cons second rest ih =>
      refine forms_append (forms_expression (wellFormed first (by simp)))
        (forms_cons (.mark (by decide)) (ih ?_))
      exact fun value member => wellFormed value (by simp [member])

theorem argumentsOf_lexemes {emptyAllowed : Prop} {values : List Expression}
    (wellFormed : ∀ value ∈ values, value.WellFormed) :
    ArgumentsOf emptyAllowed (argumentLexemes values) values := by
  cases values with
  | nil => exact .absent
  | cons first rest => exact .listed (listOf_lexemes wellFormed)

theorem forms_arguments {values : List Expression}
    (wellFormed : ∀ value ∈ values, value.WellFormed) :
    ∀ lexeme ∈ argumentLexemes values, Form lexeme.written lexeme := by
  cases values with
  | nil => simp [argumentLexemes]
  | cons first rest =>
      exact forms_cons (.mark (by decide)) (forms_append (forms_list wellFormed)
        (forms_cons (.mark (by decide)) (by simp)))

mutual

theorem statementOf_lexemes {emptyAllowed : Prop} :
    ∀ {statement : Statement}, statement.WellFormed →
      StatementOf emptyAllowed statement.lexemes statement
  | .print _, wellFormed => .print (sumOf_lexemes wellFormed)
  | .printError _, wellFormed => .printError (sumOf_lexemes wellFormed)
  | .includeDocument _, wellFormed => .includeDocument (sumOf_lexemes wellFormed)
  | .giveBack _, wellFormed => .giveBack (sumOf_lexemes wellFormed)
  | .assign _ _, wellFormed => .assign wellFormed.1.2 (sumOf_lexemes wellFormed.2)
  | .assignGlobal _ _, wellFormed => .assignGlobal wellFormed.1.2 (sumOf_lexemes wellFormed.2)
  | .define _ _, wellFormed => .define wellFormed.1.2 (programOf_lexemes wellFormed.2)
  | .call _ _, wellFormed => .call wellFormed.1.2 (argumentsOf_lexemes wellFormed.2)

/-- The lexemes of a well-formed program derive it. -/
theorem programOf_lexemes {emptyAllowed : Prop} :
    ∀ {statements : List Statement}, AllWellFormed statements →
      ProgramOf emptyAllowed (programLexemes statements) statements
  | [], _ => .nil
  | _ :: _, wellFormed =>
      .cons (statementOf_lexemes wellFormed.1) (programOf_lexemes wellFormed.2)

end

/-- Behind a keyword and a name stand a mark and further lexemes. -/
theorem forms_named {keyword name : String} {lexemes : List Lexeme}
    (known : keyword ∈ keywords) (isName : IsName name)
    (forms : ∀ lexeme ∈ lexemes, Form lexeme.written lexeme) :
    ∀ lexeme ∈ Lexeme.word keyword :: .word name :: lexemes, Form lexeme.written lexeme :=
  forms_cons (form_keyword known) (forms_cons isName.1 forms)

mutual

theorem forms_statement :
    ∀ {statement : Statement}, statement.WellFormed →
      ∀ lexeme ∈ statement.lexemes, Form lexeme.written lexeme
  | .print _, wellFormed | .printError _, wellFormed | .includeDocument _, wellFormed
  | .giveBack _, wellFormed =>
      forms_cons (form_keyword (by decide)) (forms_expression wellFormed)
  | .assign _ _, wellFormed | .assignGlobal _ _, wellFormed =>
      forms_named (by decide) wellFormed.1
        (forms_cons (.mark (by decide)) (forms_expression wellFormed.2))
  | .define _ _, wellFormed =>
      forms_named (by decide) wellFormed.1
        (forms_cons (.mark (by decide)) (forms_append (forms_program wellFormed.2)
          (forms_cons (.mark (by decide)) (by simp))))
  | .call _ _, wellFormed =>
      forms_named (by decide) wellFormed.1 (forms_arguments wellFormed.2)

theorem forms_program :
    ∀ {statements : List Statement}, AllWellFormed statements →
      ∀ lexeme ∈ programLexemes statements, Form lexeme.written lexeme
  | [], _ => by simp [programLexemes]
  | _ :: _, wellFormed =>
      forms_append (forms_statement wellFormed.1) (forms_program wellFormed.2)

end

/-- Every well-formed program has a text. -/
theorem exists_derives {statements : List Statement} (wellFormed : AllWellFormed statements) :
    ∃ text, Derives text statements := by
  refine ⟨String.ofList (spelled (programLexemes statements)), programLexemes statements, ?_,
    programOf_lexemes wellFormed⟩
  rw [String.toList_ofList]
  exact spells_spelled (forms_program wellFormed)

end DocumentHost.Mini
