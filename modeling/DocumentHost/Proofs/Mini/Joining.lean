import DocumentHost.Proofs.Mini.Concatenation

/-!
# Where one program text meets the next

Two program texts that can be read on their own are read one behind the other as the
statements of both, unless the last lexeme of the first stands at its very end and would go
on into the second.  Only a name and a comment can do so: the name takes in the keyword
that follows, and the comment takes in the rest of the line.  Code for a literal is spoilt
by both.
-/

namespace DocumentHost.Mini

/-- A text ends in a lexeme, and nothing stands behind that, not even a blank. -/
inductive EndsIn (last : Lexeme) : List Char → Prop where
  | here {written : List Char} (form : Form written last) : EndsIn last written
  | blank {character : Char} {rest : List Char} (blank : Text.isProgramBlank character = true)
      (ends : EndsIn last rest) : EndsIn last (character :: rest)
  | lexeme {written rest : List Char} {lexeme : Lexeme} (form : Form written lexeme)
      (stops : lexeme.StopsAt rest) (ends : EndsIn last rest) : EndsIn last (written ++ rest)

/-- The last lexeme of a text goes on into the text behind it. -/
def RunsInto (first second : List Char) : Prop :=
  ∃ last, EndsIn last first ∧ ¬last.StopsAt second

/-! ## Lexemes across the joint -/

/-- What stands in front of a further text decides by itself where a lexeme stops. -/
theorem Lexeme.StopsAt.append {lexeme : Lexeme} {rest : List Char} (stops : lexeme.StopsAt rest)
    (nonempty : rest ≠ []) (behind : List Char) : lexeme.StopsAt (rest ++ behind) := by
  obtain ⟨first, rest, rfl⟩ := List.exists_cons_of_ne_nil nonempty
  exact stops

theorem EndsIn.ne_nil {last : Lexeme} {text : List Char} (ends : EndsIn last text) :
    text ≠ [] := by
  induction ends with
  | here form => exact List.ne_nil_of_length_pos form.length_pos
  | blank => simp
  | lexeme form => simp [List.ne_nil_of_length_pos form.length_pos]

/-- The lexemes of two texts stand one behind the other, if the first does not run into the
second. -/
theorem Spells.append_of_not_runsInto {first second : List Char} {lexemes others : List Lexeme}
    (spells : Spells first lexemes) (apart : ¬RunsInto first second)
    (rest : Spells second others) : Spells (first ++ second) (lexemes ++ others) := by
  induction spells with
  | done => exact rest
  | blank blank _ ih =>
      refine .blank blank (ih ?_)
      rintro ⟨last, ends, runs⟩
      exact apart ⟨last, .blank blank ends, runs⟩
  | @lexeme written remaining lexeme lexemes form stops spells ih =>
      rw [List.append_assoc]
      refine .lexeme form ?_ (ih ?_)
      · cases remaining with
        | nil =>
            rw [List.append_nil] at apart
            by_contra runs
            exact apart ⟨lexeme, .here form, runs⟩
        | cons character remaining => exact stops.append (by simp) second
      · rintro ⟨last, ends, runs⟩
        exact apart ⟨last, .lexeme form stops ends, runs⟩

theorem spells_cons_iff {character : Char} {rest : List Char} {lexemes : List Lexeme}
    (blank : Text.isProgramBlank character = true) :
    Spells (character :: rest) lexemes ↔ Spells rest lexemes := by
  constructor
  · intro spells
    have behind := spells.dropBlanks
    rw [List.dropWhile_cons_of_pos blank] at behind
    exact behind.of_dropBlanks
  · exact .blank blank

/-- A text that begins with the form of a lexeme spells it first. -/
theorem Form.spells_append_iff {written rest : List Char} {lexeme : Lexeme}
    {lexemes : List Lexeme} (form : Form written lexeme) (stops : lexeme.StopsAt rest) :
    Spells (written ++ rest) lexemes ↔
      ∃ others, lexemes = lexeme :: others ∧ Spells rest others := by
  constructor
  · intro spells
    have solid : (written ++ rest).dropWhile Text.isProgramBlank = written ++ rest := by
      obtain ⟨first, front, rfl, noBlank⟩ := form.exists_cons
      rw [List.cons_append, List.dropWhile_cons_of_neg (by simp [noBlank])]
    cases lexemes with
    | nil =>
        have nothing := solid.symm.trans spells.eq_nil_of_nil
        obtain ⟨first, front, rfl, -⟩ := form.exists_cons
        cases nothing
    | cons other others =>
        obtain ⟨_, _, passed, otherForm, otherStops, further⟩ := spells.exists_form
        obtain ⟨rfl, rfl⟩ := form.unique otherForm stops otherStops (solid.symm.trans passed)
        exact ⟨others, rfl, further⟩
  · rintro ⟨others, rfl, spells⟩
    exact .lexeme form stops spells

/-- In a text that ends in a lexeme, another one can take its place that begins with it and
takes in more of what follows; the lexemes in front of it stay.  By induction on the
lexemes in front. -/
theorem EndsIn.exists_spells_iff {last : Lexeme} {first : List Char} (ends : EndsIn last first) :
    ∃ front : List Lexeme, ∀ (longer : Lexeme) (more rest : List Char) (lexemes : List Lexeme),
      (∀ written, Form written last → Form (written ++ more) longer) → longer.StopsAt rest →
      (Spells (first ++ (more ++ rest)) lexemes ↔
        ∃ others, lexemes = front ++ longer :: others ∧ Spells rest others) := by
  induction ends with
  | @here written form =>
      refine ⟨[], fun longer more rest lexemes extended stops => ?_⟩
      rw [← List.append_assoc, (extended written form).spells_append_iff stops]
      rfl
  | blank blank _ ih =>
      obtain ⟨front, spelled⟩ := ih
      refine ⟨front, fun longer more rest lexemes extended stops => ?_⟩
      rw [List.cons_append, spells_cons_iff blank, spelled longer more rest _ extended stops]
  | @lexeme written remaining lexeme form stopsHere ends ih =>
      obtain ⟨front, spelled⟩ := ih
      refine ⟨lexeme :: front, fun longer more rest lexemes extended stops => ?_⟩
      rw [List.append_assoc, form.spells_append_iff (stopsHere.append ends.ne_nil _)]
      constructor
      · rintro ⟨others, rfl, spells⟩
        obtain ⟨further, rfl, behind⟩ := (spelled longer more rest _ extended stops).1 spells
        exact ⟨further, rfl, behind⟩
      · rintro ⟨others, rfl, spells⟩
        exact ⟨_, rfl, (spelled longer more rest _ extended stops).2 ⟨others, rfl, spells⟩⟩

/-- The lexemes of a text that ends in one are those in front of it and that one. -/
theorem EndsIn.exists_front {last : Lexeme} {first : List Char} {spelt : List Lexeme}
    (ends : EndsIn last first) (spells : Spells first spelt) :
    ∃ front : List Lexeme, spelt = front ++ [last] ∧
      ∀ (longer : Lexeme) (more rest : List Char) (lexemes : List Lexeme),
        (∀ written, Form written last → Form (written ++ more) longer) → longer.StopsAt rest →
        (Spells (first ++ (more ++ rest)) lexemes ↔
          ∃ others, lexemes = front ++ longer :: others ∧ Spells rest others) := by
  obtain ⟨front, spelled⟩ := ends.exists_spells_iff
  refine ⟨front, ?_, spelled⟩
  have whole := spelled last [] [] spelt
    (fun written form => by rwa [List.append_nil]) nofun
  rw [List.append_nil, List.append_nil] at whole
  obtain ⟨nothing, rfl, empty⟩ := whole.1 spells
  rw [empty.unique .done]

/-! ## Comments -/

/-- What stands on the line behind an open comment makes no difference. -/
theorem EndsIn.parse_comment_iff {first line tail : List Char} (ends : EndsIn .comment first)
    (oneLine : '\n' ∉ line) (lineEnds : ∀ character ∈ tail.head?, character = '\n')
    (found : List Statement) :
    parse (String.ofList (first ++ (line ++ tail))) = .ok found ↔
      parse (String.ofList (first ++ tail)) = .ok found := by
  obtain ⟨front, spelled⟩ := ends.exists_spells_iff
  have goesOn (written : List Char) (form : Form written .comment) :
      Form (written ++ line) .comment := by
    cases form with
    | comment bodyOneLine =>
        refine .comment fun character member => ?_
        rcases List.mem_append.1 member with inBody | inLine
        · exact bodyOneLine character inBody
        · rintro rfl
          exact oneLine inLine
  have stops : Lexeme.comment.StopsAt tail := by
    intro character next
    rw [lineEnds character next]
    rfl
  have longer (lexemes : List Lexeme) := spelled .comment line tail lexemes goesOn stops
  have shorter (lexemes : List Lexeme) := spelled .comment [] tail lexemes
    (fun written form => by rwa [List.append_nil]) stops
  rw [parse_eq_ok_iff_derives, parse_eq_ok_iff_derives, Derives, Derives, String.toList_ofList,
    String.toList_ofList]
  simp only [longer, ← shorter, List.nil_append]

/-! ## Names -/

/-- The keyword that a lexeme is. -/
def Lexeme.keyword? : Lexeme → Option String
  | .word letters => if letters ∈ keywords then some letters else none
  | _ => none

mutual

/-- The keywords of a statement and of the statements in it, in order. -/
def Statement.keywords : Statement → List String
  | .print _ => ["print"]
  | .printError _ => ["eprint"]
  | .assign _ _ => ["set"]
  | .assignGlobal _ _ => ["global"]
  | .includeDocument _ => ["include"]
  | .define _ body => "def" :: allKeywords body
  | .call _ _ => ["call"]
  | .giveBack _ => ["return"]

/-- The keywords of a program, in order. -/
def allKeywords : List Statement → List String
  | [] => []
  | statement :: rest => statement.keywords ++ allKeywords rest

end

theorem allKeywords_append (statements others : List Statement) :
    allKeywords (statements ++ others) = allKeywords statements ++ allKeywords others := by
  induction statements with
  | nil => rfl
  | cons statement rest ih => simp [allKeywords, ih]

/-- The keywords among lexemes, in order. -/
def keywordsIn (lexemes : List Lexeme) : List String :=
  lexemes.filterMap Lexeme.keyword?

@[simp]
theorem keywordsIn_nil : keywordsIn [] = [] :=
  rfl

@[simp]
theorem keywordsIn_append (lexemes others : List Lexeme) :
    keywordsIn (lexemes ++ others) = keywordsIn lexemes ++ keywordsIn others :=
  List.filterMap_append

@[simp]
theorem keywordsIn_mark (character : Char) (lexemes : List Lexeme) :
    keywordsIn (.mark character :: lexemes) = keywordsIn lexemes :=
  rfl

theorem keywordsIn_keyword {keyword : String} (known : keyword ∈ keywords)
    (lexemes : List Lexeme) :
    keywordsIn (.word keyword :: lexemes) = keyword :: keywordsIn lexemes :=
  List.filterMap_cons_some (if_pos known)

theorem keywordsIn_name {name : String} (noKeyword : name ∉ keywords) (lexemes : List Lexeme) :
    keywordsIn (.word name :: lexemes) = keywordsIn lexemes :=
  List.filterMap_cons_none (if_neg noKeyword)

mutual

theorem TermOf.keywordsIn_eq_nil {lexemes : List Lexeme} {value : Expression}
    (term : TermOf lexemes value) : keywordsIn lexemes = [] := by
  match term with
  | .text _ | .integer _ | .argument _ => rfl
  | .named noKeyword => exact keywordsIn_name noKeyword []
  | .parenthesised inside => simp [inside.keywordsIn_eq_nil]

theorem SumOf.keywordsIn_eq_nil {lexemes : List Lexeme} {value : Expression}
    (sum : SumOf lexemes value) : keywordsIn lexemes = [] := by
  match sum with
  | .sum term tail => simp [term.keywordsIn_eq_nil, tail.keywordsIn_eq_nil]

theorem FurtherOf.keywordsIn_eq_nil {lexemes : List Lexeme} {values : List Expression}
    (further : FurtherOf lexemes values) : keywordsIn lexemes = [] := by
  match further with
  | .nil => rfl
  | .cons term tail => simp [term.keywordsIn_eq_nil, tail.keywordsIn_eq_nil]

end

theorem ListOf.keywordsIn_eq_nil {lexemes : List Lexeme} {values : List Expression}
    (list : ListOf lexemes values) : keywordsIn lexemes = [] := by
  induction list with
  | last sum => exact sum.keywordsIn_eq_nil
  | more sum _ ih => simp [sum.keywordsIn_eq_nil, ih]

theorem ArgumentsOf.keywordsIn_eq_nil {emptyAllowed : Prop} {lexemes : List Lexeme}
    {values : List Expression} (arguments : ArgumentsOf emptyAllowed lexemes values) :
    keywordsIn lexemes = [] := by
  cases arguments with
  | absent | empty => rfl
  | listed list => simp [list.keywordsIn_eq_nil]

mutual

/-- A keyword is written for each statement, and none anywhere else. -/
theorem StatementOf.keywordsIn_eq {emptyAllowed : Prop} {lexemes : List Lexeme}
    {statement : Statement} (derived : StatementOf emptyAllowed lexemes statement) :
    keywordsIn lexemes = statement.keywords := by
  match derived with
  | .print sum | .printError sum | .includeDocument sum | .giveBack sum =>
      rw [keywordsIn_keyword (by decide), sum.keywordsIn_eq_nil, Statement.keywords]
  | .assign noKeyword sum | .assignGlobal noKeyword sum =>
      rw [keywordsIn_keyword (by decide), keywordsIn_name noKeyword, keywordsIn_mark,
        sum.keywordsIn_eq_nil, Statement.keywords]
  | .define noKeyword block =>
      rw [keywordsIn_keyword (by decide), keywordsIn_name noKeyword, keywordsIn_mark,
        keywordsIn_append, block.keywordsIn_eq, Statement.keywords]
      simp
  | .call noKeyword arguments =>
      rw [keywordsIn_keyword (by decide), keywordsIn_name noKeyword,
        arguments.keywordsIn_eq_nil, Statement.keywords]

theorem ProgramOf.keywordsIn_eq {emptyAllowed : Prop} {lexemes : List Lexeme}
    {statements : List Statement} (program : ProgramOf emptyAllowed lexemes statements) :
    keywordsIn lexemes = allKeywords statements := by
  match program with
  | .nil => rfl
  | @ProgramOf.gap _ lexeme _ _ isGap rest =>
      have noWord : lexeme.keyword? = none := by
        cases lexeme with
        | semicolon | comment => rfl
        | word | integer | argument | text | mark => cases isGap
      rw [keywordsIn, List.filterMap_cons_none noWord]
      exact rest.keywordsIn_eq
  | .cons first rest =>
      rw [keywordsIn_append, first.keywordsIn_eq, rest.keywordsIn_eq, allKeywords]

end

/-- A statement begins with its keyword. -/
theorem StatementOf.exists_keyword {emptyAllowed : Prop} {lexemes : List Lexeme}
    {statement : Statement} (derived : StatementOf emptyAllowed lexemes statement) :
    ∃ keyword ∈ keywords, ∃ rest, lexemes = .word keyword :: rest := by
  cases derived <;> exact ⟨_, by decide, _, rfl⟩

/-- A program text begins with a blank, a gap, or the keyword of its first statement. -/
theorem Derives.begins {text : String} {statements : List Statement}
    (derives : Derives text statements) {character : Char} {rest : List Char}
    (first : text.toList = character :: rest) :
    Text.isProgramBlank character = true ∨ character = ';' ∨ character = '#' ∨
      ∃ keyword ∈ keywords, ∃ behind lexemes, text.toList = keyword.toList ++ behind ∧
        startsWord character = true ∧ (Lexeme.word keyword).StopsAt behind ∧
        Spells behind lexemes ∧ ProgramOf True (.word keyword :: lexemes) statements := by
  obtain ⟨lexemes, spells, program⟩ := derives
  rw [first] at spells ⊢
  by_cases blank : Text.isProgramBlank character = true
  · exact .inl blank
  have solid : (character :: rest).dropWhile Text.isProgramBlank = character :: rest :=
    List.dropWhile_cons_of_neg blank
  cases program with
  | nil =>
      rw [spells.eq_nil_of_nil] at solid
      cases solid
  | gap isGap =>
      have front := spells.head?_of_isGap isGap
      rw [solid, List.head?_cons, Option.some_inj, Option.some_inj] at front
      exact .inr (front.imp_right .inl)
  | cons statement further =>
      obtain ⟨keyword, known, others, rfl⟩ := statement.exists_keyword
      obtain ⟨written, behind, passed, form, stops, spells⟩ := spells.exists_form
      rw [solid] at passed
      refine .inr (.inr (.inr ⟨keyword, known, behind, _, ?_, ?_, stops, spells,
        .cons statement further⟩))
      · rw [passed, form.written_eq_of_word]
      · cases form with
        | word starts _ =>
            rw [(List.cons.inj passed).1]
            exact starts

/-- A word that goes on into another one. -/
theorem Form.append_word {written others : List Char} {word other : String}
    (form : Form written (.word word)) (further : Form others (.word other)) :
    Form (written ++ others) (.word (word ++ other)) := by
  have shape := form.written_eq_of_word
  have otherShape := further.written_eq_of_word
  cases form with
  | @word first rest starts continues =>
      cases further with
      | @word otherFirst otherRest otherStarts otherContinues =>
          rw [← String.ofList_append]
          refine .word starts fun character member => ?_
          rcases List.mem_append.1 member with inFirst | inSecond
          · exact continues character inFirst
          · exact continues_cons otherStarts otherContinues character inSecond

/-- A word that begins with a name is no keyword that follows the name by itself. -/
theorem keywordsIn_fused_ne {name keyword : String} (nonempty : name ≠ "")
    (known : keyword ∈ keywords) (further : List Lexeme) :
    keywordsIn (.word (name ++ keyword) :: further) ≠
      keywordsIn [.word name] ++ keywordsIn (.word keyword :: further) := by
  intro same
  rw [keywordsIn_keyword known] at same
  by_cases isKeyword : name ++ keyword ∈ keywords
  · rw [keywordsIn_keyword isKeyword] at same
    have noMore : keywordsIn [.word name] = [] := by
      have sizes := congrArg List.length same
      simp only [List.length_cons, List.length_append] at sizes
      exact List.length_eq_zero_iff.1 (by omega)
    rw [noMore] at same
    exact nonempty (String.append_eq_right_iff.1 (List.cons.inj same).1)
  · rw [keywordsIn_name isKeyword] at same
    have sizes := congrArg List.length same
    simp only [List.length_append, List.length_cons] at sizes
    omega

theorem EndsIn.name_ne_empty {name : String} {text : List Char}
    (ends : EndsIn (.word name) text) : name ≠ "" := by
  induction ends with
  | here form =>
      rintro rfl
      have nonempty := form.length_pos
      rw [form.written_eq_of_word] at nonempty
      exact absurd nonempty (by decide)
  | blank _ _ ih | lexeme _ _ _ ih => exact ih

/-- What a name goes on into begins with a keyword. -/
theorem Derives.begins_with_keyword {name second : String} {others : List Statement}
    (derives : Derives second others) (runs : ¬(Lexeme.word name).StopsAt second.toList) :
    ∃ keyword ∈ keywords, ∃ behind lexemes, second.toList = keyword.toList ++ behind ∧
      (Lexeme.word keyword).StopsAt behind ∧ Spells behind lexemes ∧
      ProgramOf True (.word keyword :: lexemes) others := by
  cases shape : second.toList with
  | nil =>
      rw [shape] at runs
      exact absurd nofun runs
  | cons character rest =>
      have continues : continuesWord character = true := by
        rw [shape] at runs
        simpa [Lexeme.StopsAt, Lexeme.goesOn] using runs
      rw [← shape]
      rcases derives.begins shape with blank | rfl | rfl | starts
      · rw [not_isProgramBlank_of_continuesWord continues] at blank
        cases blank
      · exact absurd continues (by decide)
      · exact absurd continues (by decide)
      · obtain ⟨keyword, known, behind, lexemes, written, -, further⟩ := starts
        exact ⟨keyword, known, behind, lexemes, written, further⟩

/-- A name at the end of a text takes in the keyword behind it, and the statement of that
keyword is lost. -/
theorem parse_append_ne_of_name {first second name : String} {statements others : List Statement}
    (ends : EndsIn (.word name) first.toList) (runs : ¬(Lexeme.word name).StopsAt second.toList)
    (read : parse first = .ok statements) (secondRead : parse second = .ok others) :
    parse (first ++ second) ≠ .ok (statements ++ others) := by
  intro joined
  obtain ⟨lexemes, spells, program⟩ := derives_of_parse read
  obtain ⟨together, spellsTogether, programTogether⟩ := derives_of_parse joined
  obtain ⟨keyword, known, behind, further, written, stops, spellsFurther, secondProgram⟩ :=
    (derives_of_parse secondRead).begins_with_keyword runs
  obtain ⟨front, whole, spelled⟩ := ends.exists_front spells
  have goesOn (word : List Char) (form : Form word (.word name)) :
      Form (word ++ keyword.toList) (.word (name ++ keyword)) :=
    form.append_word (form_keyword known)
  rw [String.toList_append, written] at spellsTogether
  obtain ⟨_, rfl, spellsOthers⟩ := (spelled _ _ _ _ goesOn stops).1 spellsTogether
  obtain rfl := spellsFurther.unique spellsOthers
  -- Read as both, the joined text would have the keywords of both, in order.
  have all := programTogether.keywordsIn_eq
  rw [allKeywords_append, ← program.keywordsIn_eq, ← secondProgram.keywordsIn_eq, whole,
    keywordsIn_append, keywordsIn_append, List.append_assoc, List.append_cancel_left_eq] at all
  exact keywordsIn_fused_ne ends.name_ne_empty known further all

/-! ## Joints -/

/-- Only a name or a comment runs into a text that can be read on its own. -/
theorem Derives.name_or_comment {second : String} {others : List Statement}
    (derives : Derives second others) {last : Lexeme} (runs : ¬last.StopsAt second.toList) :
    (∃ name, last = .word name) ∨ last = .comment := by
  cases shape : second.toList with
  | nil =>
      rw [shape] at runs
      exact absurd nofun runs
  | cons character rest =>
      rw [shape] at runs
      have goesOn : last.goesOn character = true := by simpa [Lexeme.StopsAt] using runs
      have noDigit : isDigit character = false := by
        rcases derives.begins shape with blank | rfl | rfl | ⟨_, _, _, _, _, starts, _⟩
        · by_contra digit
          rw [Bool.not_eq_false] at digit
          rw [not_isProgramBlank_of_continuesWord (continuesWord_of_isDigit digit)] at blank
          cases blank
        · decide
        · decide
        · exact not_isDigit_of_startsWord starts
      cases last with
      | word name => exact .inl ⟨name, rfl⟩
      | comment => exact .inr rfl
      | integer | argument => rw [Lexeme.goesOn, noDigit] at goesOn; cases goesOn
      | text | mark | semicolon => cases goesOn

theorem lineFeed_not_mem_codeForLiteral (text : String) :
    '\n' ∉ (codeForLiteral text).toList := by
  have escaped (character : Char) : '\n' ∉ escapeCharacter character := by
    unfold escapeCharacter
    split <;> simp_all [eq_comm]
  simp [codeForLiteral, escape, escaped]

theorem parse_append_of_not_runsInto {first second : String} {statements others : List Statement}
    (read : parse first = .ok statements) (secondRead : parse second = .ok others)
    (apart : ¬RunsInto first.toList second.toList) :
    parse (first ++ second) = .ok (statements ++ others) := by
  obtain ⟨lexemes, spells, program⟩ := derives_of_parse read
  obtain ⟨further, spellsSecond, secondProgram⟩ := derives_of_parse secondRead
  refine parse_of_derives ⟨lexemes ++ further, ?_, program.append secondProgram⟩
  rw [String.toList_append]
  exact spells.append_of_not_runsInto apart spellsSecond

theorem EndsIn.parse_append_iff {first : String} (ends : EndsIn .comment first.toList)
    {line tail : String} (oneLine : '\n' ∉ line.toList)
    (lineEnds : ∀ character ∈ tail.toList.head?, character = '\n') (found : List Statement) :
    parse (first ++ (line ++ tail)) = .ok found ↔ parse (first ++ tail) = .ok found := by
  have same := ends.parse_comment_iff oneLine lineEnds found
  rwa [← String.toList_append, ← String.toList_append, ← String.toList_append,
    String.ofList_toList, String.ofList_toList] at same

/-- Behind an open comment, the code for a literal belongs to the comment. -/
theorem EndsIn.parse_append_codeForLiteral {first : String} {statements : List Statement}
    (ends : EndsIn .comment first.toList) (read : parse first = .ok statements) (text : String) :
    parse (first ++ codeForLiteral text) = .ok statements := by
  have swallowed := ends.parse_append_iff (lineFeed_not_mem_codeForLiteral text)
    (show ∀ character ∈ "".toList.head?, character = '\n' from nofun) statements
  rw [String.append_empty, String.append_empty] at swallowed
  exact swallowed.2 read

theorem parse_append_codeForLiteral_iff {first : String} {statements : List Statement}
    (read : parse first = .ok statements) (text : String) :
    parse (first ++ codeForLiteral text) = .ok (statements ++ [.print (.text text)]) ↔
      ¬EndsIn .comment first.toList ∧ ∀ name, ¬EndsIn (.word name) first.toList := by
  have codeRead := parse_codeForLiteral text
  constructor
  · refine fun joined => ⟨fun ends => ?_, fun name ends => ?_⟩
    · rw [ends.parse_append_codeForLiteral read text] at joined
      simp at joined
    · refine parse_append_ne_of_name ends (fun stops => ?_) read codeRead joined
      have first : (codeForLiteral text).toList.head? = some 'p' := by simp [codeForLiteral]
      exact Bool.noConfusion (stops 'p' first)
  · rintro ⟨noComment, noName⟩
    refine parse_append_of_not_runsInto read codeRead ?_
    rintro ⟨last, ends, runs⟩
    rcases (derives_of_parse codeRead).name_or_comment runs with ⟨name, rfl⟩ | rfl
    · exact noName name ends
    · exact noComment ends

/-- Two texts that can be read on their own are read one behind the other as the statements of
both, unless the first runs into the second.  Then the first ends in a name, and a statement
is lost, or it ends in a comment, and the whole line behind it is.  So the code for a
literal becomes a statement of its own just behind a text that ends in neither; behind a comment it
disappears without notice. -/
theorem parse_joined {first second : String} {statements others : List Statement}
    (read : parse first = .ok statements) (secondRead : parse second = .ok others) :
    (¬RunsInto first.toList second.toList →
      parse (first ++ second) = .ok (statements ++ others)) ∧
    (RunsInto first.toList second.toList →
      ((∃ name, EndsIn (.word name) first.toList) ∧
        parse (first ++ second) ≠ .ok (statements ++ others)) ∨
      EndsIn .comment first.toList ∧ ∀ line tail : String, second = line ++ tail →
        '\n' ∉ line.toList → (∀ character ∈ tail.toList.head?, character = '\n') →
        ∀ found, parse (first ++ second) = .ok found ↔ parse (first ++ tail) = .ok found) ∧
    ∀ text,
      (parse (first ++ codeForLiteral text) = .ok (statements ++ [.print (.text text)]) ↔
        ¬EndsIn .comment first.toList ∧ ∀ name, ¬EndsIn (.word name) first.toList) ∧
      (EndsIn .comment first.toList →
        parse (first ++ codeForLiteral text) = .ok statements) := by
  refine ⟨parse_append_of_not_runsInto read secondRead, ?_, fun text =>
    ⟨parse_append_codeForLiteral_iff read text, fun ends =>
      ends.parse_append_codeForLiteral read text⟩⟩
  rintro ⟨last, ends, runs⟩
  rcases (derives_of_parse secondRead).name_or_comment runs with ⟨name, rfl⟩ | rfl
  · exact .inl ⟨⟨name, ends⟩, parse_append_ne_of_name ends runs read secondRead⟩
  · refine .inr ⟨ends, ?_⟩
    rintro line tail rfl oneLine lineEnds found
    exact ends.parse_append_iff oneLine lineEnds found

theorem parse_joined_behind_semicolon :
    parse (codeForLiteral "a") = .ok [.print (.text "a")] ∧
      parse "print 1" = .ok [.print (.integer 1)] ∧
      ¬RunsInto (codeForLiteral "a").toList "print 1".toList ∧
      parse (codeForLiteral "a" ++ "print 1") =
        .ok ([.print (.text "a")] ++ [.print (.integer 1)]) := by
  have apart : ¬RunsInto (codeForLiteral "a").toList "print 1".toList := by
    rintro ⟨last, ends, runs⟩
    obtain ⟨front, whole, -⟩ := ends.exists_front (spells_codeForLiteral "a")
    have isLast := congrArg List.getLast? whole
    rw [List.getLast?_concat] at isLast
    obtain rfl : Lexeme.semicolon = last := Option.some.inj isLast
    exact runs fun _ _ => rfl
  exact ⟨rfl, rfl, apart, (parse_joined rfl rfl).1 apart⟩

/-- A comment takes in the literal behind it, and a name takes in the keyword of the text behind
it, though each of the texts can be read on its own. -/
theorem parse_spoilt_by_comment_and_name :
    parse "print 1 # note" = .ok [.print (.integer 1)] ∧
      parse ("print 1 # note" ++ codeForLiteral "tail") = .ok [.print (.integer 1)] ∧
      parse "print a" = .ok [.print (.named "a")] ∧
      parse "print b" = .ok [.print (.named "b")] ∧
      parse ("print a" ++ "print b") = .error ⟨⟨1, 15⟩, .unknownStatement "b"⟩ := by
  exact ⟨rfl, rfl, rfl, rfl, rfl⟩

end DocumentHost.Mini
