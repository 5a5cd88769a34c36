import DocumentHost.Proofs.Mini.Completeness
import DocumentHost.Proofs.Mini.Rendering

/-!
# Exactly the grammar is read

A text can be read as a program just when the grammar derives it, and then the
statements are those of the derivation.  In particular a text derives one program at
most, and just the well-formed programs have texts.  The rule for calls that admits no
empty list is too narrow: a call with an empty list is read as well.
-/

namespace DocumentHost.Mini

/-! ## Derived programs are well-formed -/

theorem isName_of_form {name : String} {written : List Char} (form : Form written (.word name))
    (noKeyword : name ∉ keywords) : IsName name := by
  refine ⟨?_, noKeyword⟩
  cases form with
  | word starts continues =>
      rw [String.toList_ofList]
      exact .word starts continues

theorem Spells.exists_form_of_mem {text : List Char} {lexemes : List Lexeme}
    (spells : Spells text lexemes) : ∀ lexeme ∈ lexemes, ∃ written, Form written lexeme := by
  induction spells with
  | done => simp
  | blank _ _ ih => exact ih
  | lexeme form _ _ ih =>
      intro other member
      rcases List.mem_cons.1 member with rfl | member
      · exact ⟨_, form⟩
      · exact ih other member

theorem wellFormed_foldl_sum {first : Expression} {further : List Expression}
    (wellFormed : first.WellFormed) (all : ∀ value ∈ further, value.WellFormed) :
    (further.foldl .sum first).WellFormed := by
  induction further generalizing first with
  | nil => exact wellFormed
  | cons value further ih =>
      exact ih ⟨wellFormed, all value (by simp)⟩ fun other member => all other (by simp [member])

theorem wellFormed_integer {value : Int} {written : List Char}
    (form : Form written (.integer value)) : (Expression.integer value).WellFormed := by
  cases form with
  | natural _ _ fits =>
      constructor <;> omega
  | negative _ _ fits =>
      constructor <;> omega

mutual

theorem TermOf.wellFormed {lexemes : List Lexeme} {value : Expression}
    (term : TermOf lexemes value) (forms : ∀ lexeme ∈ lexemes, ∃ written, Form written lexeme) :
    value.WellFormed := by
  match term with
  | .text _ => trivial
  | .integer number =>
      obtain ⟨written, form⟩ := forms (.integer number) (by simp)
      exact wellFormed_integer form
  | .named noKeyword =>
      obtain ⟨written, form⟩ := forms _ (List.mem_singleton_self _)
      exact isName_of_form form noKeyword
  | .argument index =>
      obtain ⟨written, form⟩ := forms (.argument index) (by simp)
      cases form with
      | argument _ _ fits => exact fits
  | .parenthesised inside =>
      exact inside.wellFormed fun lexeme member => forms lexeme (by simp [member])

theorem SumOf.wellFormed {lexemes : List Lexeme} {value : Expression}
    (sum : SumOf lexemes value) (forms : ∀ lexeme ∈ lexemes, ∃ written, Form written lexeme) :
    value.WellFormed := by
  match sum with
  | .sum term tail =>
      refine wellFormed_foldl_sum (term.wellFormed ?_) (tail.wellFormed ?_)
      · exact fun lexeme member => forms lexeme (by simp [member])
      · exact fun lexeme member => forms lexeme (by simp [member])

theorem FurtherOf.wellFormed {lexemes : List Lexeme} {values : List Expression}
    (further : FurtherOf lexemes values)
    (forms : ∀ lexeme ∈ lexemes, ∃ written, Form written lexeme) :
    ∀ value ∈ values, value.WellFormed := by
  match further with
  | .nil => simp
  | .cons term tail =>
      refine List.forall_mem_cons.2 ⟨term.wellFormed ?_, tail.wellFormed ?_⟩
      · exact fun lexeme member => forms lexeme (by simp [member])
      · exact fun lexeme member => forms lexeme (by simp [member])

end

theorem ListOf.wellFormed {lexemes : List Lexeme} {values : List Expression}
    (list : ListOf lexemes values) (forms : ∀ lexeme ∈ lexemes, ∃ written, Form written lexeme) :
    ∀ value ∈ values, value.WellFormed := by
  induction list with
  | last sum => simpa using sum.wellFormed forms
  | more sum _ ih =>
      refine List.forall_mem_cons.2 ⟨sum.wellFormed ?_, ih ?_⟩
      · exact fun lexeme member => forms lexeme (by simp [member])
      · exact fun lexeme member => forms lexeme (by simp [member])

theorem ArgumentsOf.wellFormed {emptyAllowed : Prop} {lexemes : List Lexeme}
    {values : List Expression} (arguments : ArgumentsOf emptyAllowed lexemes values)
    (forms : ∀ lexeme ∈ lexemes, ∃ written, Form written lexeme) :
    ∀ value ∈ values, value.WellFormed := by
  cases arguments with
  | absent | empty => simp
  | listed list => exact list.wellFormed fun lexeme member => forms lexeme (by simp [member])

mutual

theorem StatementOf.wellFormed {emptyAllowed : Prop} {lexemes : List Lexeme}
    {statement : Statement} (derived : StatementOf emptyAllowed lexemes statement)
    (forms : ∀ lexeme ∈ lexemes, ∃ written, Form written lexeme) : statement.WellFormed := by
  match derived with
  | .print sum | .printError sum | .includeDocument sum | .giveBack sum =>
      exact sum.wellFormed fun lexeme member => forms lexeme (by simp [member])
  | @StatementOf.assign _ _ name _ noKeyword sum
  | @StatementOf.assignGlobal _ _ name _ noKeyword sum =>
      obtain ⟨written, form⟩ := forms (.word name) (by simp)
      exact ⟨isName_of_form form noKeyword,
        sum.wellFormed fun lexeme member => forms lexeme (by simp [member])⟩
  | @StatementOf.define _ _ name _ noKeyword block =>
      obtain ⟨written, form⟩ := forms (.word name) (by simp)
      exact ⟨isName_of_form form noKeyword,
        block.wellFormed fun lexeme member => forms lexeme (by simp [member])⟩
  | @StatementOf.call _ _ name _ noKeyword arguments =>
      obtain ⟨written, form⟩ := forms (.word name) (by simp)
      exact ⟨isName_of_form form noKeyword,
        arguments.wellFormed fun lexeme member => forms lexeme (by simp [member])⟩

theorem ProgramOf.wellFormed {emptyAllowed : Prop} {lexemes : List Lexeme}
    {statements : List Statement} (program : ProgramOf emptyAllowed lexemes statements)
    (forms : ∀ lexeme ∈ lexemes, ∃ written, Form written lexeme) :
    AllWellFormed statements := by
  match program with
  | .nil => trivial
  | .gap _ rest => exact rest.wellFormed fun lexeme member => forms lexeme (by simp [member])
  | .cons first rest =>
      exact ⟨first.wellFormed fun lexeme member => forms lexeme (by simp [member]),
        rest.wellFormed fun lexeme member => forms lexeme (by simp [member])⟩

end

/-- Only well-formed programs are derived. -/
theorem Derives.allWellFormed {text : String} {statements : List Statement}
    (derives : Derives text statements) : AllWellFormed statements := by
  obtain ⟨lexemes, spells, program⟩ := derives
  exact program.wellFormed spells.exists_form_of_mem

/-! ## The reader and the grammar -/

/-- The reader accepts just what the grammar derives, and gives the statements of the
derivation. -/
theorem parse_eq_ok_iff_derives {text : String} {statements : List Statement} :
    parse text = .ok statements ↔ Derives text statements :=
  ⟨derives_of_parse, parse_of_derives⟩

/-- The reader of programs decides the grammar: it accepts what the grammar derives, a
text derives one program at most, and just the well-formed programs, nested to any
depth, have a text that reads back. -/
theorem parse_decides_grammar :
    (∀ text statements, parse text = .ok statements ↔ Derives text statements) ∧
    (∀ text statements others, Derives text statements → Derives text others →
      statements = others) ∧
    (∀ statements, AllWellFormed statements ↔ ∃ text, parse text = .ok statements) := by
  refine ⟨fun text statements => parse_eq_ok_iff_derives, ?_, ?_⟩
  · intro text statements others derives derivesOthers
    have read := parse_of_derives derives
    rw [parse_of_derives derivesOthers] at read
    exact (Except.ok.inj read).symm
  · intro statements
    constructor
    · intro wellFormed
      obtain ⟨text, derives⟩ := exists_derives wellFormed
      exact ⟨text, parse_of_derives derives⟩
    · rintro ⟨text, read⟩
      exact (derives_of_parse read).allWellFormed

/-! ## Empty lists -/

theorem Form.written_eq_of_word {written : List Char} {name : String}
    (form : Form written (.word name)) : written = name.toList := by
  cases form with
  | word => rw [String.toList_ofList]

/-- The text of a word stands in front of what its further lexemes spell. -/
theorem Spells.behind_word {text : List Char} {name : String} {lexemes : List Lexeme}
    (spells : Spells text (.word name :: lexemes)) :
    ∃ rest, text.dropWhile Text.isProgramBlank = name.toList ++ rest ∧ Spells rest lexemes := by
  obtain ⟨written, rest, passed, form, -, spells⟩ := spells.exists_form
  rw [form.written_eq_of_word] at passed
  exact ⟨rest, passed, spells⟩

/-- A gap is told by its first character. -/
theorem Spells.head?_of_isGap {text : List Char} {lexeme : Lexeme} {lexemes : List Lexeme}
    (spells : Spells text (lexeme :: lexemes)) (gap : lexeme.isGap = true) :
    (text.dropWhile Text.isProgramBlank).head? = some ';' ∨
      (text.dropWhile Text.isProgramBlank).head? = some '#' := by
  obtain ⟨written, rest, passed, form, -, -⟩ := spells.exists_form
  rw [passed]
  cases form with
  | semicolon => exact .inl rfl
  | comment => exact .inr rfl
  | word | natural | negative | argument | text | mark => cases gap

theorem ListOf.ne_nil {lexemes : List Lexeme} {values : List Expression}
    (list : ListOf lexemes values) : values ≠ [] := by
  cases list <;> simp

/-- Without empty lists a call that has no arguments is its keyword and its name. -/
theorem ProgramOf.call_nil {lexemes : List Lexeme} {name : String}
    (program : ProgramOf False lexemes [.call name []])
    (noGap : ∀ lexeme ∈ lexemes.head?, lexeme.isGap = false) :
    ∃ others, lexemes = .word "call" :: .word name :: others ∧ ProgramOf False others [] := by
  cases program with
  | gap isGap => simp [isGap] at noGap
  | cons first rest =>
      cases first with
      | call _ arguments =>
          cases arguments with
          | absent => exact ⟨_, rfl, rest⟩
          | empty allowed => exact allowed.elim
          | listed list => exact absurd rfl list.ne_nil

/-- The list behind a call may be empty, though the narrower rule derives no such call. -/
theorem parse_call_with_empty_list :
    parse "call f()" = .ok [.call "f" []] ∧
      ¬ DerivesWithoutEmptyLists "call f()" [.call "f" []] := by
  constructor
  · rfl
  · rintro ⟨lexemes, spells, program⟩
    have noGap : ∀ lexeme ∈ lexemes.head?, lexeme.isGap = false := by
      intro lexeme first
      obtain ⟨others, rfl⟩ := List.head?_eq_some_iff.1 first
      cases gap : lexeme.isGap with
      | false => rfl
      | true => rcases spells.head?_of_isGap gap with semicolon | comment <;> contradiction
    obtain ⟨others, rfl, rest⟩ := program.call_nil noGap
    obtain ⟨behindCall, passed, spells⟩ := spells.behind_word
    have passed : "call".toList ++ " f()".toList = "call".toList ++ behindCall := passed
    obtain rfl := List.append_cancel_left passed
    obtain ⟨behindName, passed, spells⟩ := spells.behind_word
    have passed : "f".toList ++ "()".toList = "f".toList ++ behindName := passed
    obtain rfl := List.append_cancel_left passed
    have known : '(' ∈ marks := by decide
    have opening := spells.head?_eq_mark known rfl
    cases rest with
    | nil => cases opening
    | gap isGap =>
        cases Option.some.inj opening
        cases isGap

end DocumentHost.Mini
