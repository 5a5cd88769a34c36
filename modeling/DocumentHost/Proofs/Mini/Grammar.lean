import DocumentHost.Proofs.Mini.Lexeme

/-!
# The grammar of Mini

The rules that lexemes obey, one constructor for each alternative:

    program   := (gap | statement)*
    statement := "print" sum | "eprint" sum | "include" sum | "return" sum
               | "set" name "=" sum | "global" name "=" sum
               | "def" name block | "call" name ("(" list ")")?
    sum       := term ("+" term)*
    term      := text | integer | name | argument | "(" sum ")"

A block is a program in braces, and a list has sums with commas between them.  The
rules leave open whether the list of a call may be empty.
-/

namespace DocumentHost.Mini

mutual

/-- A single operand of a sum. -/
inductive TermOf : List Lexeme → Expression → Prop where
  | text (value : String) : TermOf [.text value] (.text value)
  | integer (value : Int) : TermOf [.integer value] (.integer value)
  | named {name : String} (noKeyword : name ∉ keywords) : TermOf [.word name] (.named name)
  | argument (index : Nat) : TermOf [.argument index] (.argument index)
  | parenthesised {lexemes : List Lexeme} {value : Expression} (inside : SumOf lexemes value) :
      TermOf (.mark '(' :: (lexemes ++ [.mark ')'])) value

/-- A sum of one or more terms, which associates to the left. -/
inductive SumOf : List Lexeme → Expression → Prop where
  | sum {lexemes others : List Lexeme} {first : Expression} {further : List Expression}
      (term : TermOf lexemes first) (tail : FurtherOf others further) :
      SumOf (lexemes ++ others) (further.foldl .sum first)

/-- The further terms of a sum. -/
inductive FurtherOf : List Lexeme → List Expression → Prop where
  | nil : FurtherOf [] []
  | cons {lexemes others : List Lexeme} {value : Expression} {values : List Expression}
      (term : TermOf lexemes value) (tail : FurtherOf others values) :
      FurtherOf (.mark '+' :: (lexemes ++ others)) (value :: values)

end

/-- A list of one or more values. -/
inductive ListOf : List Lexeme → List Expression → Prop where
  | last {lexemes : List Lexeme} {value : Expression} (sum : SumOf lexemes value) :
      ListOf lexemes [value]
  | more {lexemes others : List Lexeme} {value : Expression} {values : List Expression}
      (sum : SumOf lexemes value) (rest : ListOf others values) :
      ListOf (lexemes ++ .mark ',' :: others) (value :: values)

/-- The arguments behind the name of a call. -/
inductive ArgumentsOf (emptyAllowed : Prop) : List Lexeme → List Expression → Prop where
  | absent : ArgumentsOf emptyAllowed [] []
  | empty (allowed : emptyAllowed) : ArgumentsOf emptyAllowed [.mark '(', .mark ')'] []
  | listed {lexemes : List Lexeme} {values : List Expression} (list : ListOf lexemes values) :
      ArgumentsOf emptyAllowed (.mark '(' :: (lexemes ++ [.mark ')'])) values

mutual

/-- A statement. -/
inductive StatementOf (emptyAllowed : Prop) : List Lexeme → Statement → Prop where
  | print {lexemes : List Lexeme} {value : Expression} (sum : SumOf lexemes value) :
      StatementOf emptyAllowed (.word "print" :: lexemes) (.print value)
  | printError {lexemes : List Lexeme} {value : Expression} (sum : SumOf lexemes value) :
      StatementOf emptyAllowed (.word "eprint" :: lexemes) (.printError value)
  | includeDocument {lexemes : List Lexeme} {document : Expression}
      (sum : SumOf lexemes document) :
      StatementOf emptyAllowed (.word "include" :: lexemes) (.includeDocument document)
  | giveBack {lexemes : List Lexeme} {value : Expression} (sum : SumOf lexemes value) :
      StatementOf emptyAllowed (.word "return" :: lexemes) (.giveBack value)
  | assign {lexemes : List Lexeme} {name : String} {value : Expression}
      (noKeyword : name ∉ keywords) (sum : SumOf lexemes value) :
      StatementOf emptyAllowed (.word "set" :: .word name :: .mark '=' :: lexemes)
        (.assign name value)
  | assignGlobal {lexemes : List Lexeme} {name : String} {value : Expression}
      (noKeyword : name ∉ keywords) (sum : SumOf lexemes value) :
      StatementOf emptyAllowed (.word "global" :: .word name :: .mark '=' :: lexemes)
        (.assignGlobal name value)
  | define {lexemes : List Lexeme} {name : String} {body : List Statement}
      (noKeyword : name ∉ keywords) (block : ProgramOf emptyAllowed lexemes body) :
      StatementOf emptyAllowed
        (.word "def" :: .word name :: .mark '\x7b' :: (lexemes ++ [.mark '\x7d']))
        (.define name body)
  | call {lexemes : List Lexeme} {name : String} {values : List Expression}
      (noKeyword : name ∉ keywords) (arguments : ArgumentsOf emptyAllowed lexemes values) :
      StatementOf emptyAllowed (.word "call" :: .word name :: lexemes) (.call name values)

/-- Statements with semicolons and comments in front of them and at the end. -/
inductive ProgramOf (emptyAllowed : Prop) : List Lexeme → List Statement → Prop where
  | nil : ProgramOf emptyAllowed [] []
  | gap {lexeme : Lexeme} {lexemes : List Lexeme} {statements : List Statement}
      (isGap : lexeme.isGap = true) (rest : ProgramOf emptyAllowed lexemes statements) :
      ProgramOf emptyAllowed (lexeme :: lexemes) statements
  | cons {lexemes others : List Lexeme} {statement : Statement} {statements : List Statement}
      (first : StatementOf emptyAllowed lexemes statement)
      (rest : ProgramOf emptyAllowed others statements) :
      ProgramOf emptyAllowed (lexemes ++ others) (statement :: statements)

end

/-- A text derives statements; the list of a call may be empty. -/
def Derives (text : String) (statements : List Statement) : Prop :=
  ∃ lexemes, Spells text.toList lexemes ∧ ProgramOf True lexemes statements

/-- A text derives statements where a list in parentheses is never empty. -/
def DerivesWithoutEmptyLists (text : String) (statements : List Statement) : Prop :=
  ∃ lexemes, Spells text.toList lexemes ∧ ProgramOf False lexemes statements

/-! ## Well-formed programs -/

/-- A word that is no keyword. -/
def IsName (name : String) : Prop :=
  Form name.toList (.word name) ∧ name ∉ keywords

/-- The names, numbers and indices of an expression can be written. -/
def Expression.WellFormed : Expression → Prop
  | .text _ => True
  | .integer value => -(2 ^ 63) ≤ value ∧ value < 2 ^ 63
  | .named name => IsName name
  | .argument index => index < 2 ^ 64
  | .sum left right => left.WellFormed ∧ right.WellFormed

mutual

/-- The parts of a statement can be written. -/
def Statement.WellFormed : Statement → Prop
  | .print value | .printError value | .includeDocument value | .giveBack value =>
      value.WellFormed
  | .assign name value | .assignGlobal name value => IsName name ∧ value.WellFormed
  | .define name body => IsName name ∧ AllWellFormed body
  | .call name values => IsName name ∧ ∀ value ∈ values, value.WellFormed

/-- The statements of a program can be written. -/
def AllWellFormed : List Statement → Prop
  | [] => True
  | statement :: rest => statement.WellFormed ∧ AllWellFormed rest

end

/-! ## Joining -/

theorem FurtherOf.append {lexemes others : List Lexeme} {values furtherValues : List Expression}
    (further : FurtherOf lexemes values) (rest : FurtherOf others furtherValues) :
    FurtherOf (lexemes ++ others) (values ++ furtherValues) := by
  match further with
  | .nil => exact rest
  | .cons term tail =>
      simpa [List.append_assoc] using FurtherOf.cons term (tail.append rest)

/-- A sum and one more term are a sum. -/
theorem SumOf.plus {lexemes others : List Lexeme} {left right : Expression}
    (sum : SumOf lexemes left) (term : TermOf others right) :
    SumOf (lexemes ++ .mark '+' :: others) (.sum left right) := by
  cases sum with
  | sum head tail =>
      have more := tail.append (.cons term .nil)
      simpa [List.append_assoc, List.foldl_append] using SumOf.sum head more

theorem ProgramOf.append {emptyAllowed : Prop} {lexemes others : List Lexeme}
    {statements furtherStatements : List Statement}
    (program : ProgramOf emptyAllowed lexemes statements)
    (rest : ProgramOf emptyAllowed others furtherStatements) :
    ProgramOf emptyAllowed (lexemes ++ others) (statements ++ furtherStatements) := by
  match program with
  | .nil => exact rest
  | .gap isGap tail => exact .gap isGap (tail.append rest)
  | .cons first tail =>
      simpa [List.append_assoc] using ProgramOf.cons first (tail.append rest)

/-! ## First lexemes -/

/-- A term has a lexeme, and it does not begin with a sign. -/
theorem TermOf.exists_cons {lexemes : List Lexeme} {value : Expression}
    (term : TermOf lexemes value) :
    ∃ first rest, lexemes = first :: rest ∧ first ≠ .mark ')' ∧ first.isGap = false := by
  cases term <;> exact ⟨_, _, rfl, by simp, rfl⟩

theorem SumOf.exists_cons {lexemes : List Lexeme} {value : Expression}
    (sum : SumOf lexemes value) :
    ∃ first rest, lexemes = first :: rest ∧ first ≠ .mark ')' ∧ first.isGap = false := by
  cases sum with
  | sum term _ =>
      obtain ⟨first, rest, rfl, noClosing, noGap⟩ := term.exists_cons
      exact ⟨first, _, rfl, noClosing, noGap⟩

theorem ListOf.exists_cons {lexemes : List Lexeme} {values : List Expression}
    (list : ListOf lexemes values) :
    ∃ first rest, lexemes = first :: rest ∧ first ≠ .mark ')' ∧ first.isGap = false := by
  cases list with
  | last sum => exact sum.exists_cons
  | more sum _ =>
      obtain ⟨first, rest, rfl, noClosing, noGap⟩ := sum.exists_cons
      exact ⟨first, _, rfl, noClosing, noGap⟩

/-- A statement begins with a word. -/
theorem StatementOf.exists_cons {emptyAllowed : Prop} {lexemes : List Lexeme}
    {statement : Statement} (derived : StatementOf emptyAllowed lexemes statement) :
    ∃ word rest, lexemes = .word word :: rest := by
  cases derived <;> exact ⟨_, _, rfl⟩

end DocumentHost.Mini
