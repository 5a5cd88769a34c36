import DocumentHost.Proofs.Mini.Passing
import DocumentHost.Proofs.Text.Position

/-!
# Places of mistakes

The reader of programs never leaves its text.  Wherever it stands, what it has passed and what
is left make up the text, and its position is the one behind what it has passed.  So a mistake
is reported at a place of the text, and what is wrong shows there: in what stands directly in
front of the place, or in what comes next.  No reading ends for want of fuel.
-/

namespace DocumentHost.Mini

/-! ## What mistakes look like -/

/-- A word stands directly in front of a place, at its full length. -/
structure WordBefore (front rest : List Char) (word : String) : Prop where
  form : Form word.toList (.word word)
  stands : word.toList <:+ front
  stops : (Lexeme.word word).StopsAt rest

/-- Digits stand directly in front of a place, at their full length and behind a sign. -/
structure DigitsBefore (front rest sign digits : List Char) : Prop where
  decimal : ∀ digit ∈ digits, isDigit digit = true
  stands : sign ++ digits <:+ front
  stops : ∀ character ∈ rest.head?, isDigit character = false

/-- The first character behind blanks. -/
def firstSolid? (rest : List Char) : Option Char :=
  (rest.dropWhile Text.isProgramBlank).head?

/-- A character that may start a term. -/
def startsTerm (character : Char) : Bool :=
  startsWord character || isDigit character || character ∈ ['-', '"', '$', '(']

/-- A mistake shows at a place of a text, by what stands in front of the place and by what is
left behind it. -/
inductive Mistake.ShowsAt (front rest : List Char) : Mistake → Prop where
  | expectedStatement {character : Char} (next : rest.head? = some character)
      (noWord : startsWord character = false) : ShowsAt front rest .expectedStatement
  | unknownStatement {word : String} (stands : WordBefore front rest word)
      (unknown : word ∉ keywords) : ShowsAt front rest (.unknownStatement word)
  | noName (noWord : ∀ character ∈ firstSolid? rest, startsWord character = false) :
      ShowsAt front rest .expectedName
  | keywordForName {word : String} (stands : WordBefore front rest word)
      (known : word ∈ keywords) : ShowsAt front rest .expectedName
  | expected {character : Char} (missing : firstSolid? rest ≠ some character) :
      ShowsAt front rest (.expected character)
  | openBlock (atEnd : rest = []) : ShowsAt front rest .openBlock
  | strayBrace (next : rest.head? = some '\x7d') : ShowsAt front rest .strayBrace
  | expectedCommaOrParenthesis (noComma : firstSolid? rest ≠ some ',')
      (noParenthesis : firstSolid? rest ≠ some ')') :
      ShowsAt front rest .expectedCommaOrParenthesis
  | endOfInput (atEnd : rest = []) : ShowsAt front rest .endOfInput
  | expectedIndex {digits : List Char} (stands : DigitsBefore front rest ['$'] digits)
      (invalid : digits = [] ∨ 2 ^ 64 ≤ decimalValue digits) : ShowsAt front rest .expectedIndex
  | incompleteEscape (stands : ['\\'] <:+ front) (atEnd : rest = []) :
      ShowsAt front rest .incompleteEscape
  | unknownEscape {letter : Char} (stands : ['\\', letter] <:+ front)
      (unknown : ∀ character, ¬Escapes letter character) :
      ShowsAt front rest (.unknownEscape letter)
  | openText (atEnd : rest = []) : ShowsAt front rest .openText
  | largeInteger {digits : List Char} (stands : DigitsBefore front rest [] digits)
      (large : 2 ^ 63 ≤ decimalValue digits) : ShowsAt front rest .invalidInteger
  | invalidNegative {digits : List Char} (stands : DigitsBefore front rest ['-'] digits)
      (invalid : digits = [] ∨ 2 ^ 63 < decimalValue digits) : ShowsAt front rest .invalidInteger
  | unexpectedCharacter {character : Char} (next : rest.head? = some character)
      (noTerm : startsTerm character = false) : ShowsAt front rest .unexpectedCharacter
  | unexpectedKeyword {word : String} (next : word.toList <+: rest) (known : word ∈ keywords) :
      ShowsAt front rest (.unexpectedKeyword word)

/-! ## Keeping to the text -/

/-- Reading keeps to the text behind a cursor: what is read is as expected, or there is a mistake
that shows at the place where it is reported. -/
inductive KeepsTo {α : Type} (origin : Cursor) (expected : α → Prop) : Reading α → Prop where
  | ok {value : α} (isExpected : expected value) : KeepsTo origin expected (.ok value)
  | error {front : List Char} {place : Cursor} {mistake : Mistake}
      (passes : origin.Passes front place) (shows : mistake.ShowsAt front place.rest) :
      KeepsTo origin expected (place.fail mistake)

namespace KeepsTo

variable {α β : Type} {origin place : Cursor} {limit : Nat} {expected : α → Prop}
  {wanted : β → Prop} {reading : Reading α}

/-- A mistake that shows by what is left alone. -/
theorem fail {mistake : Mistake} (leaves : origin.LeavesFewer limit place)
    (shows : ∀ front, mistake.ShowsAt front place.rest) :
    KeepsTo origin expected (place.fail mistake) := by
  obtain ⟨⟨front, passes⟩, -⟩ := leaves
  exact .error passes (shows front)

theorem bind {next : α → Reading β} (first : KeepsTo origin expected reading)
    (further : ∀ value, expected value → KeepsTo origin wanted (next value)) :
    KeepsTo origin wanted (reading >>= next) := by
  cases first with
  | ok isExpected => exact further _ isExpected
  | error passes shows => exact .error passes shows

theorem imp {other : α → Prop} (first : KeepsTo origin expected reading)
    (further : ∀ value, expected value → other value) : KeepsTo origin other reading := by
  cases first with
  | ok isExpected => exact .ok (further _ isExpected)
  | error passes shows => exact .error passes shows

theorem map {change : α → β} (first : KeepsTo origin expected reading)
    (further : ∀ value, expected value → wanted (change value)) :
    KeepsTo origin wanted (reading.map change) := by
  cases first with
  | ok isExpected => exact .ok (further _ isExpected)
  | error passes shows => exact .error passes shows

end KeepsTo

/-! ## Words and signs -/

section Reading

variable {origin cursor behind : Cursor} {limit : Nat}

theorem firstSolid?_skipBlanks (cursor : Cursor) :
    firstSolid? cursor.skipBlanks.rest = cursor.skipBlanks.rest.head? :=
  congrArg List.head? (List.dropWhile_idempotent _ _)

theorem WordBefore.append {passed rest : List Char} {word : String}
    (stands : WordBefore passed rest word) (front : List Char) :
    WordBefore (front ++ passed) rest word :=
  ⟨stands.form, stands.stands.trans (List.suffix_append _ _), stands.stops⟩

theorem readWord?_passes {word : String} (read : readWord? cursor = some (word, behind)) :
    cursor.Passes word.toList behind ∧ WordBefore word.toList behind.rest word := by
  unfold readWord? at read
  split at read
  · cases read
  rename_i first rest shape
  split at read
  · rename_i starts
    cases read
    have form : Form (cursor.front continuesWord)
        (.word (String.ofList (cursor.front continuesWord))) := by
      rw [Cursor.front, shape, List.takeWhile_cons_of_pos (continuesWord_of_startsWord starts)]
      exact .word starts fun _ member => List.mem_takeWhile_imp member
    refine ⟨?_, ?_, List.suffix_rfl, head?_dropWhile_eq_false⟩ <;> rw [String.toList_ofList]
    · exact .skip cursor continuesWord
    · exact form
  · cases read

theorem readWord?_eq_none (read : readWord? cursor = none) :
    ∀ character ∈ cursor.rest.head?, startsWord character = false := by
  unfold readWord? at read
  split at read
  · rename_i atEnd
    simp [atEnd]
  · rename_i first rest shape
    split at read
    · cases read
    · rename_i noWord
      simpa [shape] using noWord

theorem readName_keepsTo (leaves : origin.LeavesFewer limit cursor) :
    KeepsTo origin (fun read => origin.LeavesFewer limit read.2) (readName cursor) := by
  have leaves := leaves.skipBlanks
  unfold readName
  split
  · rename_i word behind found
    obtain ⟨passes, stands⟩ := readWord?_passes found
    split
    · rename_i keyword
      obtain ⟨⟨front, reached⟩, -⟩ := leaves
      exact .error (reached.trans passes)
        (.keywordForName (stands.append front) (by simpa using keyword))
    · exact .ok (leaves.trans passes)
  · rename_i found
    refine .fail leaves fun front => .noName ?_
    rw [firstSolid?_skipBlanks]
    exact readWord?_eq_none found

theorem expect_keepsTo (character : Char) (leaves : origin.LeavesFewer limit cursor) :
    KeepsTo origin (origin.LeavesFewer limit) (expect character cursor) := by
  have leaves := leaves.skipBlanks
  unfold expect
  dsimp only
  split
  · rename_i next
    exact .ok (leaves.trans (.step next))
  · rename_i missing
    refine .fail leaves fun front => .expected ?_
    rwa [firstSolid?_skipBlanks]

/-! ## Texts and numbers -/

/-- By induction on the text behind the opening quote. -/
theorem readTextBody_keepsTo {position : Position} {text : List Char}
    (leaves : origin.LeavesFewer limit ⟨text, position⟩) :
    KeepsTo origin (fun read => origin.LeavesFewer limit read.2)
      (readTextBody position text) := by
  fun_induction readTextBody position text with
  | case1 position => exact .fail leaves fun front => .openText rfl
  | case2 position =>
      obtain ⟨⟨front, reached⟩, -⟩ := leaves
      exact .error (reached.trans (.step rfl)) (.incompleteEscape (List.suffix_append _ _) rfl)
  | case3 position letter rest behind unknown =>
      obtain ⟨⟨front, reached⟩, -⟩ := leaves
      refine .error (reached.trans ((Cursor.Passes.step rfl).trans (.step rfl)))
        (.unknownEscape (List.suffix_append _ _) fun character escapes => ?_)
      rw [unescape?_eq_some_iff.2 escapes] at unknown
      cases unknown
  | case4 position letter rest behind character known ih =>
      have leaves := leaves.trans ((Cursor.Passes.step rfl).trans (.step rfl))
      exact .map (ih leaves) fun read further => further
  | case5 position rest => exact .ok (leaves.trans (.step rfl))
  | case6 position character rest notLast notEscape noQuote ih =>
      exact .map (ih (leaves.trans (.step rfl))) fun read further => further

/-- The digits at a cursor are in front of the place behind them. -/
theorem DigitsBefore.of_front {front sign : List Char} (stands : sign <:+ front) :
    DigitsBefore (front ++ cursor.front isDigit) (cursor.skip isDigit).rest sign
      (cursor.front isDigit) where
  decimal := fun _ member => List.mem_takeWhile_imp member
  stands := by
    obtain ⟨before, rfl⟩ := stands
    rw [List.append_assoc]
    exact List.suffix_append _ _
  stops := head?_dropWhile_eq_false

theorem readInteger_keepsTo {character : Char} (leaves : origin.LeavesFewer limit cursor)
    (next : cursor.rest.head? = some character)
    (starts : isDigit character = true ∨ character = '-') :
    KeepsTo origin (fun read => origin.LeavesFewer limit read.2) (readInteger cursor) := by
  unfold readInteger
  by_cases negative : cursor.rest.head? = some '-'
  · simp only [negative, if_true, digitsValue_eq_decimalValue]
    split
    · rename_i invalid
      obtain ⟨⟨front, reached⟩, -⟩ := leaves
      refine .error ((reached.trans (.step negative)).trans (.skip _ isDigit))
        (.invalidNegative (.of_front (List.suffix_append _ _)) ?_)
      simp only [Bool.or_eq_true, decide_eq_true_eq, List.isEmpty_iff] at invalid
      rcases invalid with (empty | below) | above
      · exact .inl empty
      · exact .inr (by omega)
      · omega
    · exact .ok ((leaves.trans (.step negative)).trans (.skip _ isDigit))
  · simp only [negative, if_false, digitsValue_eq_decimalValue]
    split
    · rename_i invalid
      obtain ⟨⟨front, reached⟩, -⟩ := leaves
      refine .error (reached.trans (.skip _ isDigit))
        (.largeInteger (.of_front List.nil_suffix) ?_)
      -- Without a sign a digit comes first, so the number can only be too large.
      have nonempty : cursor.front isDigit ≠ [] := by
        rw [next] at negative
        have digit : isDigit character = true := starts.resolve_right (by simpa using negative)
        rw [Cursor.front, rest_of_head? next, List.takeWhile_cons_of_pos digit]
        exact List.cons_ne_nil _ _
      simp only [Bool.or_eq_true, decide_eq_true_eq, List.isEmpty_iff, nonempty, false_or]
        at invalid
      omega
    · exact .ok (leaves.trans (.skip _ isDigit))

theorem readIndex_keepsTo (leaves : origin.LeavesFewer limit cursor)
    (dollar : cursor.rest.head? = some '$') :
    KeepsTo origin (fun read => origin.LeavesFewer limit read.2) (readIndex cursor.step) := by
  unfold readIndex
  simp only [digitsValue_eq_decimalValue]
  split
  · rename_i invalid
    obtain ⟨⟨front, reached⟩, -⟩ := leaves
    refine .error ((reached.trans (.step dollar)).trans (.skip _ isDigit))
      (.expectedIndex (.of_front (List.suffix_append _ _)) ?_)
    simp only [Bool.or_eq_true, decide_eq_true_eq, List.isEmpty_iff] at invalid
    exact invalid.imp_right fun large => by omega
  · exact .ok ((leaves.trans (.step dollar)).trans (.skip _ isDigit))

/-! ## Expressions -/

theorem readNamed_keepsTo {character : Char} (leaves : origin.LeavesFewer limit cursor)
    (next : cursor.rest.head? = some character)
    (noTerm : startsWord character = false → startsTerm character = false) :
    KeepsTo origin (fun read => origin.LeavesFewer limit read.2) (readNamed cursor) := by
  unfold readNamed
  split
  · rename_i word behind found
    obtain ⟨passes, -⟩ := readWord?_passes found
    split
    · rename_i keyword
      exact .fail leaves fun front =>
        .unexpectedKeyword ⟨_, passes.text.symm⟩ (by simpa using keyword)
    · exact .ok (leaves.trans passes)
  · rename_i found
    exact .fail leaves fun front =>
      .unexpectedCharacter next (noTerm (readWord?_eq_none found character next))

/-- Reading terms with this fuel keeps to the text.  The fuel has to cover the limit twice, and a
smaller limit is met behind each parenthesis. -/
def TermKeepsTo (origin : Cursor) (fuel : Nat) : Prop :=
  ∀ {cursor limit}, origin.LeavesFewer limit cursor → 2 * limit ≤ fuel + 1 →
    KeepsTo origin (fun read => origin.LeavesFewer limit read.2) (readTerm fuel cursor)

/-- Reading sums with this fuel keeps to the text. -/
def SumKeepsTo (origin : Cursor) (fuel : Nat) : Prop :=
  ∀ {cursor limit}, origin.LeavesFewer limit cursor → 2 * limit ≤ fuel →
    KeepsTo origin (fun read => origin.LeavesFewer limit read.2) (readSum fuel cursor)

/-- Reading the further terms of sums with this fuel keeps to the text.  A smaller limit is met
behind each plus. -/
def SumTailKeepsTo (origin : Cursor) (fuel : Nat) : Prop :=
  ∀ {left cursor limit}, origin.LeavesFewer limit cursor → 2 * limit ≤ fuel + 1 →
    KeepsTo origin (fun read => origin.LeavesFewer limit read.2) (readSumTail fuel left cursor)

theorem termKeepsTo_succ {fuel : Nat} (keepsSum : SumKeepsTo origin fuel) :
    TermKeepsTo origin (fuel + 1) := by
  intro cursor limit leaves enough
  have leaves := leaves.skipBlanks
  have fewer := leaves.fewer
  rw [readTerm]
  dsimp only
  split
  · rename_i atEnd
    exact .fail leaves fun front => .endOfInput atEnd
  rename_i character rest shape
  have next : cursor.skipBlanks.rest.head? = some character := by rw [shape]; rfl
  have inside := leaves.step next
  split
  · refine .bind (readTextBody_keepsTo inside) fun read further => .ok ?_
    exact further.mono fewer.le
  split
  · rename_i number
    exact readInteger_keepsTo leaves next (by simpa using number)
  split
  · rename_i dollar
    exact readIndex_keepsTo leaves (by rw [next, dollar])
  split
  · refine .bind (keepsSum inside (by omega)) fun read further => ?_
    refine .bind (expect_keepsTo ')' further) fun place closed => .ok ?_
    exact closed.mono fewer.le
  · rename_i noQuote noNumber noDollar noOpening
    refine readNamed_keepsTo leaves next fun noWord => ?_
    simpa [startsTerm, noWord, noQuote, noDollar, noOpening] using noNumber

theorem sumKeepsTo_succ {fuel : Nat} (keepsTerm : TermKeepsTo origin fuel)
    (keepsTail : SumTailKeepsTo origin fuel) : SumKeepsTo origin (fuel + 1) := by
  intro cursor limit leaves enough
  rw [readSum]
  refine .bind (keepsTerm leaves enough) fun read further => ?_
  exact keepsTail further enough

theorem sumTailKeepsTo_succ {fuel : Nat} (keepsTerm : TermKeepsTo origin fuel)
    (keepsTail : SumTailKeepsTo origin fuel) : SumTailKeepsTo origin (fuel + 1) := by
  intro left cursor limit leaves enough
  have leaves := leaves.skipBlanks
  have fewer := leaves.fewer
  rw [readSumTail]
  dsimp only
  split
  · rename_i plus
    refine .bind (keepsTerm (leaves.step plus) (by omega)) fun read further => ?_
    refine (keepsTail further (by omega)).imp fun read last => ?_
    exact last.mono fewer.le
  · exact .ok leaves

/-- By induction on the fuel, for terms, sums and the tails of sums together.  Without fuel
nothing may be left. -/
theorem readSum_keepsTo_all (fuel : Nat) :
    TermKeepsTo origin fuel ∧ SumKeepsTo origin fuel ∧ SumTailKeepsTo origin fuel := by
  induction fuel with
  | zero =>
      refine ⟨?_, ?_, ?_⟩
      · intro cursor limit leaves enough
        have := leaves.fewer
        omega
      · intro cursor limit leaves enough
        have := leaves.fewer
        omega
      · intro left cursor limit leaves enough
        have := leaves.fewer
        omega
  | succ fuel ih =>
      obtain ⟨keepsTerm, keepsSum, keepsTail⟩ := ih
      exact ⟨termKeepsTo_succ keepsSum, sumKeepsTo_succ keepsTerm keepsTail,
        sumTailKeepsTo_succ keepsTerm keepsTail⟩

theorem readExpression_keepsTo (leaves : origin.LeavesFewer limit cursor) :
    KeepsTo origin (fun read => origin.LeavesFewer limit read.2) (readExpression cursor) := by
  have keeps := (readSum_keepsTo_all cursor.fuel).2.1 leaves.tight (by rw [Cursor.fuel]; omega)
  exact keeps.imp fun read further => further.mono leaves.fewer

/-- By induction on the fuel.  A smaller limit is met behind each comma. -/
theorem readArguments_keepsTo {fuel : Nat} (leaves : origin.LeavesFewer limit cursor)
    (enough : limit ≤ fuel) :
    KeepsTo origin (fun read => origin.LeavesFewer limit read.2) (readArguments fuel cursor) := by
  induction fuel generalizing cursor limit with
  | zero =>
      have := leaves.fewer
      omega
  | succ fuel ih =>
      rw [readArguments]
      refine .bind (readExpression_keepsTo leaves) fun read further => ?_
      have behind := further.skipBlanks
      have fewer := behind.fewer
      dsimp only
      split
      · rename_i comma
        refine .bind (ih (behind.step comma) (by omega)) fun others last => .ok ?_
        exact last.mono fewer.le
      · rename_i closing
        exact .ok (behind.trans (.step closing))
      · rename_i noComma noParenthesis
        refine .fail behind fun front => .expectedCommaOrParenthesis ?_ ?_ <;>
          rwa [firstSolid?_skipBlanks]

theorem readCallTail_keepsTo (leaves : origin.LeavesFewer limit cursor) :
    KeepsTo origin (fun read => origin.LeavesFewer limit read.2) (readCallTail cursor) := by
  have leaves := leaves.skipBlanks
  unfold readCallTail
  dsimp only
  split
  · rename_i opening
    have inside := (leaves.trans (.step opening)).skipBlanks
    split
    · rename_i closing
      exact .ok (inside.trans (.step closing))
    · have enough : cursor.skipBlanks.step.skipBlanks.rest.length + 1 ≤
          cursor.skipBlanks.step.skipBlanks.fuel := by
        rw [Cursor.fuel]
        omega
      have keeps := readArguments_keepsTo inside.tight enough
      exact keeps.imp fun read further => further.mono inside.fewer
  · exact .ok leaves

/-! ## Statements -/

/-- Reading statements with this fuel keeps to the text.  The fuel has to cover the limit twice,
and a smaller limit is met behind the first word of each statement. -/
def StatementKeepsTo (origin : Cursor) (fuel : Nat) : Prop :=
  ∀ {cursor limit}, origin.LeavesFewer limit cursor → cursor.rest ≠ [] → 2 * limit ≤ fuel + 1 →
    KeepsTo origin (fun read => origin.LeavesFewer cursor.rest.length read.2)
      (readStatement fuel cursor)

/-- Reading blocks with this fuel keeps to the text. -/
def BlockKeepsTo (origin : Cursor) (fuel : Nat) : Prop :=
  ∀ {braced cursor limit}, origin.LeavesFewer limit cursor → 2 * limit ≤ fuel →
    KeepsTo origin (fun read => origin.LeavesFewer limit read.2) (readBlock fuel braced cursor)

theorem statementKeepsTo_succ {fuel : Nat} (keepsBlock : BlockKeepsTo origin fuel) :
    StatementKeepsTo origin (fuel + 1) := by
  intro cursor limit leaves nonempty enough
  have fewer := leaves.fewer
  rw [readStatement]
  split
  · rename_i found
    obtain ⟨character, rest, shape⟩ := List.exists_cons_of_ne_nil nonempty
    have next : cursor.rest.head? = some character := by rw [shape]; rfl
    exact .fail leaves fun front => .expectedStatement next (readWord?_eq_none found character next)
  rename_i word behind found
  obtain ⟨passes, stands⟩ := readWord?_passes found
  -- Whatever follows the first word has what was left at the statement as its limit.
  have inside := leaves.beyond passes (List.length_pos_iff.1 stands.form.length_pos)
  split
  · exact .bind (readExpression_keepsTo inside) fun read further => .ok further
  · exact .bind (readExpression_keepsTo inside) fun read further => .ok further
  · exact .bind (readExpression_keepsTo inside) fun read further => .ok further
  · exact .bind (readExpression_keepsTo inside) fun read further => .ok further
  · refine .bind (readName_keepsTo inside) fun name named => ?_
    refine .bind (expect_keepsTo '=' named) fun sign signed => ?_
    exact .bind (readExpression_keepsTo signed) fun read further => .ok further
  · refine .bind (readName_keepsTo inside) fun name named => ?_
    refine .bind (expect_keepsTo '=' named) fun sign signed => ?_
    exact .bind (readExpression_keepsTo signed) fun read further => .ok further
  · refine .bind (readName_keepsTo inside) fun name named => ?_
    refine .bind (expect_keepsTo '\x7b' named) fun brace opened => ?_
    exact .bind (keepsBlock opened (by omega)) fun read further => .ok further
  · refine .bind (readName_keepsTo inside) fun name named => ?_
    exact .bind (readCallTail_keepsTo named) fun read further => .ok further
  · obtain ⟨⟨front, reached⟩, -⟩ := leaves
    have unknown : word ∉ keywords := by
      simp only [keywords, List.mem_cons, List.not_mem_nil, or_false, not_or]
      refine ⟨?_, ?_, ?_, ?_, ?_, ?_, ?_, ?_⟩ <;> assumption
    exact .error (reached.trans passes) (.unknownStatement (stands.append front) unknown)

theorem blockKeepsTo_succ {fuel : Nat} (keepsStatement : StatementKeepsTo origin fuel)
    (keepsBlock : BlockKeepsTo origin fuel) : BlockKeepsTo origin (fuel + 1) := by
  intro braced cursor limit leaves enough
  have leaves := leaves.skipGaps
  have fewer := leaves.fewer
  rw [readBlock]
  dsimp only
  split
  · rename_i atEnd
    split
    · exact .fail leaves fun front => .openBlock atEnd
    · exact .ok leaves
  rename_i character rest shape
  have next : cursor.skipGaps.rest.head? = some character := by rw [shape]; rfl
  split
  · rename_i brace
    split
    · exact .ok (leaves.trans (.step next))
    · exact .fail leaves fun front => .strayBrace (by rw [next, brace])
  · have nonempty : cursor.skipGaps.rest ≠ [] := by rw [shape]; exact List.cons_ne_nil _ _
    refine .bind (keepsStatement leaves nonempty enough) fun read further => ?_
    refine .bind (keepsBlock further (by omega)) fun others last => .ok ?_
    exact last.mono fewer.le

/-- By induction on the fuel, for statements and blocks together.  Without fuel nothing may be
left. -/
theorem readBlock_keepsTo_all (fuel : Nat) :
    StatementKeepsTo origin fuel ∧ BlockKeepsTo origin fuel := by
  induction fuel with
  | zero =>
      constructor
      · intro cursor limit leaves nonempty enough
        have := leaves.fewer
        omega
      · intro braced cursor limit leaves enough
        have := leaves.fewer
        omega
  | succ fuel ih =>
      obtain ⟨keepsStatement, keepsBlock⟩ := ih
      exact ⟨statementKeepsTo_succ keepsBlock, blockKeepsTo_succ keepsStatement keepsBlock⟩

end Reading

/-- The reader of programs keeps to its text. -/
theorem parse_keepsTo (text : String) :
    KeepsTo (Cursor.ofText text) (fun _ => True) (parse text) := by
  have starts : (Cursor.ofText text).LeavesFewer ((Cursor.ofText text).rest.length + 1)
      (Cursor.ofText text) := ⟨⟨[], .refl _⟩, Nat.lt_succ_self _⟩
  have enough : 2 * ((Cursor.ofText text).rest.length + 1) ≤ (Cursor.ofText text).fuel := by
    rw [Cursor.fuel]
    omega
  exact .map ((readBlock_keepsTo_all _).2 starts enough) fun _ _ => trivial

/-! ## Places -/

/-- A mistake in a program points into its text.  It is reported at a place of the text: its line
is counted by the line breaks in front of the place and its column by the characters behind the
last of them, and what is wrong shows there.  So the line is one of the lines of the text, and
the column is in that line or at its end. -/
theorem mistakes_point_into_text {text : String} {error : SyntaxError}
    (unparsed : parse text = .error error) :
    ∃ front rest, text.toList = front ++ rest ∧
      error.position.line = 1 + front.count '\n' ∧
      error.position.column = 1 + (front.rtakeWhile (· ≠ '\n')).length ∧
      error.mistake.ShowsAt front rest ∧
      error.position.line ≤ (text.toList.splitOn '\n').length ∧
      ∃ line, (text.toList.splitOn '\n')[error.position.line - 1]? = some line ∧
        error.position.column ≤ line.length + 1 := by
  have keeps := parse_keepsTo text
  rw [unparsed] at keeps
  cases keeps with
  | @error front place mistake passes shows =>
      have position : place.position = .behind front :=
        passes.position.trans (Position.start_after front)
      have split : text.toList = front ++ place.rest := passes.text
      have lines : place.position.line ≤ (text.toList.splitOn '\n').length := by
        rw [position, split, Position.length_splitOn_newline, List.count_append, Position.behind,
          ← Nat.add_assoc]
        exact Nat.le_add_right _ _
      have inside := Position.behind_inside front place.rest
      rw [← split, ← position] at inside
      refine ⟨front, place.rest, split, ?_, ?_, shows, lines, inside⟩
      · exact congrArg Position.line position
      · exact congrArg Position.column position

/-- The keyword in the place of a term is found again on the second line, behind a text of two
lines with characters of several bytes. -/
theorem mistakes_point_into_text_keyword :
    parse "print \"zwö\nlf ✓\" + print" = .error ⟨⟨2, 9⟩, .unexpectedKeyword "print"⟩ ∧
      ∃ front rest, "print \"zwö\nlf ✓\" + print".toList = front ++ rest ∧
        front.count '\n' = 1 ∧ (front.rtakeWhile (· ≠ '\n')).length = 8 ∧
        "print".toList <+: rest := by
  have unparsed : parse "print \"zwö\nlf ✓\" + print" =
      .error ⟨⟨2, 9⟩, .unexpectedKeyword "print"⟩ := by cbv
  obtain ⟨front, rest, split, line, column, shows, -⟩ := mistakes_point_into_text unparsed
  have line : front.count '\n' = 1 := Nat.add_left_cancel line.symm
  have column : (front.rtakeWhile (· ≠ '\n')).length = 8 := Nat.add_left_cancel column.symm
  cases shows with
  | unexpectedKeyword next => exact ⟨unparsed, front, rest, split, line, column, next⟩

end DocumentHost.Mini
