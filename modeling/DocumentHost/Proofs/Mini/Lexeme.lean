import DocumentHost.Mini.Reader
import Mathlib.Data.List.TakeWhile
import Mathlib.Data.Nat.Digits.Defs

/-!
# The lexical grammar of Mini

A program text is a sequence of lexemes, and blanks may stand between any two of
them.  Words, numbers, argument indices and comments go on as long as they can;
the other lexemes show where they end.  The grammar is stated on its own, without
the reader of programs.
-/

namespace DocumentHost.Mini

/-- The smallest parts of a program text. -/
inductive Lexeme where
  | word (letters : String)
  | integer (value : Int)
  | argument (index : Nat)
  | text (value : String)
  /-- A sign or a bracket. -/
  | mark (character : Char)
  | semicolon
  | comment
deriving DecidableEq, Repr

/-- The signs and brackets of programs. -/
def marks : List Char := ['=', '\x7b', '\x7d', '(', ')', ',', '+']

/-- The lexemes that mean nothing. -/
def Lexeme.isGap : Lexeme → Bool
  | .semicolon | .comment => true
  | _ => false

/-- Whether a lexeme, written at full length, would go on with a character. -/
def Lexeme.goesOn : Lexeme → Char → Bool
  | .word _, character => continuesWord character
  | .integer _, character | .argument _, character => isDigit character
  | .comment, character => character != '\n'
  | _, _ => false

/-- A backslash and a letter stand for a character. -/
inductive Escapes : (letter character : Char) → Prop where
  | quote : Escapes '"' '"'
  | backslash : Escapes '\\' '\\'
  | lineFeed : Escapes 'n' '\n'
  | carriageReturn : Escapes 'r' '\r'
  | tab : Escapes 't' '\t'

/-- The form of a text between its quotes. -/
inductive TextBody : (written value : List Char) → Prop where
  | nil : TextBody [] []
  | plain {character : Char} {written value : List Char} (noQuote : character ≠ '"')
      (noBackslash : character ≠ '\\') (rest : TextBody written value) :
      TextBody (character :: written) (character :: value)
  | escaped {letter character : Char} {written value : List Char}
      (escapes : Escapes letter character) (rest : TextBody written value) :
      TextBody ('\\' :: letter :: written) (character :: value)

/-- The number that decimal digits denote, the last digit counting ones. -/
def decimalValue (digits : List Char) : Nat :=
  Nat.ofDigits 10 (digits.reverse.map fun digit => digit.toNat - '0'.toNat)

/-- The form of a lexeme. -/
inductive Form : (written : List Char) → Lexeme → Prop where
  | word {first : Char} {rest : List Char} (starts : startsWord first = true)
      (continues : ∀ character ∈ rest, continuesWord character = true) :
      Form (first :: rest) (.word (String.ofList (first :: rest)))
  | natural {digits : List Char} (nonempty : digits ≠ [])
      (decimal : ∀ digit ∈ digits, isDigit digit = true)
      (fits : decimalValue digits < 2 ^ 63) : Form digits (.integer (decimalValue digits))
  | negative {digits : List Char} (nonempty : digits ≠ [])
      (decimal : ∀ digit ∈ digits, isDigit digit = true)
      (fits : decimalValue digits ≤ 2 ^ 63) :
      Form ('-' :: digits) (.integer (-(decimalValue digits : Int)))
  | argument {digits : List Char} (nonempty : digits ≠ [])
      (decimal : ∀ digit ∈ digits, isDigit digit = true)
      (fits : decimalValue digits < 2 ^ 64) :
      Form ('$' :: digits) (.argument (decimalValue digits))
  | text {written value : List Char} (body : TextBody written value) :
      Form ('"' :: (written ++ ['"'])) (.text (String.ofList value))
  | mark {character : Char} (known : character ∈ marks) : Form [character] (.mark character)
  | semicolon : Form [';'] .semicolon
  | comment {body : List Char} (oneLine : ∀ character ∈ body, character ≠ '\n') :
      Form ('#' :: body) .comment

/-- A lexeme stops in front of what follows it. -/
def Lexeme.StopsAt (lexeme : Lexeme) (rest : List Char) : Prop :=
  ∀ character ∈ rest.head?, lexeme.goesOn character = false

/-- A text falls into lexemes with blanks between them. -/
inductive Spells : (text : List Char) → List Lexeme → Prop where
  | done : Spells [] []
  | blank {character : Char} {rest : List Char} {lexemes : List Lexeme}
      (blank : Text.isProgramBlank character = true) (spells : Spells rest lexemes) :
      Spells (character :: rest) lexemes
  | lexeme {written rest : List Char} {lexeme : Lexeme} {lexemes : List Lexeme}
      (form : Form written lexeme) (stops : lexeme.StopsAt rest)
      (spells : Spells rest lexemes) : Spells (written ++ rest) (lexeme :: lexemes)

/-! ## Classes of characters -/

theorem not_isProgramBlank_of_continuesWord {character : Char}
    (continues : continuesWord character = true) : Text.isProgramBlank character = false := by
  simp only [continuesWord, isLetter, isDigit, Bool.or_eq_true, Bool.and_eq_true,
    decide_eq_true_eq] at continues
  simp only [Text.isProgramBlank, Bool.or_eq_false_iff, decide_eq_false_iff_not]
  refine ⟨⟨⟨⟨?_, ?_⟩, ?_⟩, ?_⟩, ?_⟩ <;> rintro rfl <;> revert continues <;> decide

theorem continuesWord_of_startsWord {character : Char} (starts : startsWord character = true) :
    continuesWord character = true := by
  simp only [startsWord, Bool.or_eq_true] at starts
  simp only [continuesWord, Bool.or_eq_true]
  tauto

theorem continuesWord_of_isDigit {character : Char} (digit : isDigit character = true) :
    continuesWord character = true := by
  simp [continuesWord, digit]

theorem not_startsWord_of_isDigit {character : Char} (digit : isDigit character = true) :
    startsWord character = false := by
  simp only [isDigit, Bool.and_eq_true, decide_eq_true_eq, Char.le_def, UInt32.le_iff_toNat_le]
    at digit
  simp only [startsWord, isLetter, Bool.or_eq_false_iff, Bool.and_eq_false_iff,
    decide_eq_false_iff_not, Char.le_def, UInt32.le_iff_toNat_le]
  refine ⟨⟨.inl ?_, .inl ?_⟩, ?_⟩
  · have : '9'.val.toNat < 'a'.val.toNat := by decide
    omega
  · have : '9'.val.toNat < 'A'.val.toNat := by decide
    omega
  · rintro rfl
    revert digit
    decide

/-! ## Forms -/

/-- No form is empty, and none begins with a blank. -/
theorem Form.exists_cons {written : List Char} {lexeme : Lexeme} (form : Form written lexeme) :
    ∃ first rest, written = first :: rest ∧ Text.isProgramBlank first = false := by
  cases form with
  | word starts _ =>
      exact ⟨_, _, rfl, not_isProgramBlank_of_continuesWord
        (continuesWord_of_startsWord starts)⟩
  | natural nonempty decimal _ =>
      obtain ⟨digit, digits, rfl⟩ := List.exists_cons_of_ne_nil nonempty
      exact ⟨digit, digits, rfl, not_isProgramBlank_of_continuesWord
        (continuesWord_of_isDigit (decimal digit (by simp)))⟩
  | negative | argument | text | semicolon | comment => exact ⟨_, _, rfl, by decide⟩
  | mark known =>
      refine ⟨_, _, rfl, ?_⟩
      revert known
      simp only [marks, List.mem_cons, List.not_mem_nil, or_false]
      rintro (rfl | rfl | rfl | rfl | rfl | rfl | rfl) <;> decide

theorem Form.length_pos {written : List Char} {lexeme : Lexeme} (form : Form written lexeme) :
    0 < written.length := by
  obtain ⟨first, rest, rfl, -⟩ := form.exists_cons
  simp

/-! ## Blanks -/

theorem Spells.dropBlanks {text : List Char} {lexemes : List Lexeme}
    (spells : Spells text lexemes) : Spells (text.dropWhile Text.isProgramBlank) lexemes := by
  induction spells with
  | done => exact .done
  | blank blank _ ih => simpa [List.dropWhile_cons, blank] using ih
  | lexeme form stops spells _ =>
      obtain ⟨first, rest, rfl, solid⟩ := form.exists_cons
      rw [List.cons_append, List.dropWhile_cons_of_neg (by simp [solid]), ← List.cons_append]
      exact .lexeme form stops spells

theorem Spells.blanks {text : List Char} {lexemes : List Lexeme} {blanks : List Char}
    (allBlank : ∀ character ∈ blanks, Text.isProgramBlank character = true)
    (spells : Spells text lexemes) : Spells (blanks ++ text) lexemes := by
  induction blanks with
  | nil => exact spells
  | cons character blanks ih =>
      exact .blank (allBlank character (by simp))
        (ih fun other member => allBlank other (by simp [member]))

theorem Spells.of_dropBlanks {text : List Char} {lexemes : List Lexeme}
    (spells : Spells (text.dropWhile Text.isProgramBlank) lexemes) : Spells text lexemes := by
  rw [← List.takeWhile_append_dropWhile (p := Text.isProgramBlank) (l := text)]
  exact .blanks (fun _ member => List.mem_takeWhile_imp member) spells

/-- A text without blanks in front that falls into no lexemes is empty. -/
theorem Spells.eq_nil_of_nil {text : List Char} (spells : Spells text []) :
    text.dropWhile Text.isProgramBlank = [] := by
  generalize none : ([] : List Lexeme) = lexemes at spells
  induction spells with
  | done => rfl
  | blank blank _ ih => simpa [List.dropWhile_cons, blank] using ih none
  | lexeme => cases none

/-- Behind the blanks stands the form of the first lexeme. -/
theorem Spells.exists_form {text : List Char} {lexeme : Lexeme} {lexemes : List Lexeme}
    (spells : Spells text (lexeme :: lexemes)) :
    ∃ written rest, text.dropWhile Text.isProgramBlank = written ++ rest ∧
      Form written lexeme ∧ lexeme.StopsAt rest ∧ Spells rest lexemes := by
  generalize some : lexeme :: lexemes = all at spells
  induction spells with
  | done => cases some
  | blank blank _ ih => simpa [List.dropWhile_cons, blank] using ih some
  | @lexeme written rest _ _ form stops spells _ =>
      cases some
      refine ⟨written, rest, ?_, form, stops, spells⟩
      obtain ⟨first, others, rfl, solid⟩ := form.exists_cons
      rw [List.cons_append, List.dropWhile_cons_of_neg (by simp [solid])]

/-- There are no more lexemes than characters. -/
theorem Spells.length_le {text : List Char} {lexemes : List Lexeme}
    (spells : Spells text lexemes) : lexemes.length ≤ text.length := by
  induction spells with
  | done => simp
  | blank _ _ ih => simp only [List.length_cons]; omega
  | lexeme form _ _ ih =>
      have := form.length_pos
      simp only [List.length_cons, List.length_append]
      omega

end DocumentHost.Mini
