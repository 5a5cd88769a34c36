import DocumentHost.Json.Printer
import DocumentHost.Json.Reader
import DocumentHost.Proofs.Text.Encoding

/-!
# Texts and numbers are read as they are written

A text in quotes is read as the text: every character is escaped or stands for itself, and what
stands for itself is neither a quote nor a backslash nor a control character.  The digits of an
integer are read as its literal, as far as it does not run into what stands behind it, and a
literal of 64 bits denotes its integer.
-/

namespace DocumentHost.Json

open Decimal (Literal)

/-! ## Texts -/

/-- A byte that stands for itself inside a text. -/
def StandsForItself (byte : UInt8) : Prop :=
  0x20 ≤ byte ∧ byte ≠ 0x22 ∧ byte ≠ 0x5C

theorem readText?_cons {byte : UInt8} (stands : StandsForItself byte) (state : TextState)
    (rest : List UInt8) : readText? state (byte :: rest) = readText? (state.push byte) rest := by
  obtain ⟨printable, notQuote, notBackslash⟩ := stands
  rw [readText?.eq_5 state byte rest (fun h => notQuote h) (fun _ _ _ _ _ h _ => notBackslash h)
    (fun _ _ h _ => notBackslash h), if_neg]
  simp only [Bool.or_eq_true, decide_eq_true_eq, not_or]
  exact ⟨UInt8.not_lt.2 printable, notBackslash⟩

/-- What has been read of a text without mistakes. -/
def TextState.reading (reversed : List UInt8) : TextState :=
  ⟨reversed, none, true⟩

theorem readText?_append {bytes : List UInt8} (stand : ∀ byte ∈ bytes, StandsForItself byte)
    (read rest : List UInt8) :
    readText? (.reading read) (bytes ++ rest) =
      readText? (.reading (bytes.reverse ++ read)) rest := by
  induction bytes generalizing read with
  | nil => rfl
  | cons byte others ih =>
      rw [List.cons_append, readText?_cons (stand byte List.mem_cons_self), List.reverse_cons,
        List.append_assoc]
      exact ih (fun other belongs => stand other (List.mem_cons_of_mem _ belongs)) _

theorem standsForItself {character : Char} (printable : 0x20 ≤ character.toNat)
    (notQuote : character ≠ '"') (notBackslash : character ≠ '\\') :
    ∀ byte ∈ String.utf8EncodeChar character, StandsForItself byte := by
  intro byte belongs
  rcases Nat.lt_or_ge 127 character.toNat with large | small
  · have high := Text.codeBytes_of_large large byte belongs
    refine ⟨UInt8.le_trans (by decide) high, ?_, ?_⟩ <;>
      · rintro rfl
        exact absurd high (by decide)
  · rw [Text.utf8EncodeChar_of_small small, List.mem_singleton] at belongs
    have number : byte.toNat = character.toNat := by
      rw [belongs, Text.toNat_ofNat (by omega)]
    refine ⟨by rwa [UInt8.le_iff_toNat_le, number], ?_, ?_⟩
    · rintro rfl
      exact notQuote (Char.toNat_inj.1 number.symm)
    · rintro rfl
      exact notBackslash (Char.toNat_inj.1 number.symm)

theorem unitOf?_hexDigit : ∀ number < 0x20,
    unitOf? 0x30 0x30 (UInt8.ofNat (Text.hexDigit (number / 16)).toNat)
      (UInt8.ofNat (Text.hexDigit (number % 16)).toNat) = some number := by
  decide

theorem hexDigit_small : ∀ digit < 16, (Text.hexDigit digit).toNat ≤ 127 := by
  decide

theorem pushUnit_reading {unit : Nat} (small : unit < 0xD800) (read : List UInt8) :
    (TextState.reading read).pushUnit unit =
      .reading ((String.utf8EncodeChar (Char.ofNat unit)).reverse ++ read) := by
  have notLow : ¬0xDC00 ≤ unit := by omega
  have notHigh : ¬0xD800 ≤ unit := by omega
  simp [TextState.pushUnit, TextState.reading, notLow, notHigh, TextState.pushCode,
    Text.encode_singleton]

theorem readText?_escapeCharacter (character : Char) (read rest : List UInt8) :
    readText? (.reading read)
        ((escapeCharacter character).flatMap String.utf8EncodeChar ++ rest) =
      readText? (.reading ((String.utf8EncodeChar character).reverse ++ read)) rest := by
  unfold escapeCharacter
  split
  · rfl
  · rfl
  · rfl
  · rfl
  · rfl
  · rfl
  · rfl
  · rename_i notQuote notBackslash _ _ _ _ _
    split
    · rename_i control
      have upper := Text.utf8EncodeChar_of_small (hexDigit_small (character.toNat / 16) (by omega))
      have lower := Text.utf8EncodeChar_of_small (hexDigit_small (character.toNat % 16) (by omega))
      simp only [List.flatMap_cons, List.flatMap_nil, upper, lower, List.append_nil,
        List.append_assoc]
      change readText? _ (0x5C :: 0x75 :: 0x30 :: 0x30 :: _ :: _ :: rest) = _
      rw [readText?, unitOf?_hexDigit _ control]
      dsimp only
      rw [pushUnit_reading (by omega), Char.ofNat_toNat]
    · rename_i printable
      rw [List.flatMap_singleton]
      exact readText?_append (standsForItself (Nat.not_lt.1 printable) notQuote notBackslash) ..

/-- The rest of a written text is read as the text. -/
theorem readText?_escaped (characters : List Char) (read rest : List UInt8) :
    readText? (.reading read) ((characters.flatMap escapeCharacter).flatMap
        String.utf8EncodeChar ++ 0x22 :: rest) =
      some (Text.decode? (read.reverse ++ characters.flatMap String.utf8EncodeChar), rest) := by
  induction characters generalizing read with
  | nil =>
      rw [List.flatMap_nil, List.flatMap_nil, List.append_nil]
      rfl
  | cons character others ih =>
      rw [List.flatMap_cons, List.flatMap_append, List.append_assoc, readText?_escapeCharacter, ih,
        List.reverse_append, List.reverse_reverse, List.append_assoc, List.flatMap_cons]

theorem encode_quote (text : String) :
    Text.encode (quote text) =
      0x22 :: ((text.toList.flatMap escapeCharacter).flatMap String.utf8EncodeChar ++ [0x22]) := by
  rw [quote, Text.encode_append, Text.encode_append, Text.encode_ofList, Text.encode_ofList]
  rfl

/-- A written text is read as the text. -/
theorem readText?_quote (text : String) (rest : List UInt8) :
    ∃ written, Text.encode (quote text) ++ rest = 0x22 :: written ∧
      readText? {} written = some (some text, rest) := by
  refine ⟨_, by rw [encode_quote, List.cons_append, List.append_assoc], ?_⟩
  rw [List.singleton_append]
  refine (readText?_escaped text.toList [] rest).trans ?_
  rw [List.reverse_nil, List.nil_append, ← Text.encode_eq, Text.decode?_encode]

/-! ## Numbers -/

/-- The digits of a number in base ten. -/
def digitValues (number : Nat) : List Nat :=
  (decimalDigits number).map fun digit => digit.toNat - '0'.toNat

/-- The literal of an integer. -/
def literalOf (value : Int) : Literal :=
  ⟨value < 0, digitValues value.natAbs, none, none⟩

/-- What may stand behind a value: nothing, or the end of its line. -/
def Closed (rest : List UInt8) : Prop :=
  ∀ byte ∈ rest.head?, byte = 0x2C ∨ byte = 0x0A

theorem Closed.digit? {byte : UInt8} {rest : List UInt8} (closed : Closed (byte :: rest)) :
    digit? byte = none := by
  rcases closed byte rfl with rfl | rfl <;> rfl

theorem readDigits_of_closed {rest : List UInt8} (closed : Closed rest) :
    readDigits rest = ([], rest) := by
  cases rest with
  | nil => rfl
  | cons byte others =>
      rw [readDigits, closed.digit?]

theorem digit?_ofNat {digit : Char} (isDigit : digit.isDigit = true) :
    digit? (UInt8.ofNat digit.toNat) = some (digit.toNat - '0'.toNat) := by
  obtain ⟨above, below⟩ : 0x30 ≤ digit.toNat ∧ digit.toNat ≤ 0x39 :=
    Char.isDigit_iff_toNat.1 isDigit
  have number : (UInt8.ofNat digit.toNat).toNat = digit.toNat := Text.toNat_ofNat (by omega)
  have within : (0x30 ≤ UInt8.ofNat digit.toNat && UInt8.ofNat digit.toNat ≤ 0x39) = true := by
    simp only [Bool.and_eq_true, decide_eq_true_eq, UInt8.le_iff_toNat_le, number]
    exact ⟨above, below⟩
  rw [digit?, if_pos within, number]
  rfl

theorem readDigits_append {digits : List Char}
    (areDigits : ∀ digit ∈ digits, digit.isDigit = true) {rest : List UInt8} (closed : Closed rest) :
    readDigits (digits.flatMap String.utf8EncodeChar ++ rest) =
      (digits.map fun digit => digit.toNat - '0'.toNat, rest) := by
  induction digits with
  | nil => exact readDigits_of_closed closed
  | cons digit others ih =>
      obtain ⟨isDigit, others⟩ := List.forall_mem_cons.1 areDigits
      have small : digit.toNat ≤ 0x39 := (Char.isDigit_iff_toNat.1 isDigit).2
      rw [List.flatMap_cons, Text.utf8EncodeChar_of_small (by omega), List.append_assoc,
        List.singleton_append, readDigits, digit?_ofNat isDigit, ih others]
      rfl

theorem readFraction?_of_closed {rest : List UInt8} (closed : Closed rest) :
    readFraction? rest = some (none, rest) := by
  cases rest with
  | nil => rfl
  | cons byte others => rcases closed byte rfl with rfl | rfl <;> rfl

theorem readExponent?_of_closed {rest : List UInt8} (closed : Closed rest) :
    readExponent? rest = some (none, rest) := by
  cases rest with
  | nil => rfl
  | cons byte others => rcases closed byte rfl with rfl | rfl <;> rfl

theorem isDigit_decimalDigits (number : Nat) :
    ∀ digit ∈ decimalDigits number, digit.isDigit = true :=
  fun _ => Nat.isDigit_of_mem_toDigits (by decide) (by decide)

/-- The digits of a positive number do not start with a zero. -/
theorem digitValues_of_pos {number : Nat} (positive : 0 < number) :
    ∃ first rest, digitValues number = (first + 1) :: rest := by
  induction number using Nat.strongRecOn with
  | ind number ih =>
      rcases Nat.lt_or_ge number 10 with small | large
      · refine ⟨number - 1, [], ?_⟩
        rw [digitValues, decimalDigits, Nat.toDigits_of_lt_base small]
        interval_cases number <;> rfl
      · obtain ⟨first, rest, begins⟩ := ih (number / 10) (by omega) (by omega)
        have further : ∃ last, digitValues number = digitValues (number / 10) ++ last := by
          rw [digitValues, decimalDigits, Nat.toDigits_of_base_le (by decide) large,
            List.map_append]
          exact ⟨_, rfl⟩
        obtain ⟨last, further⟩ := further
        exact ⟨first, rest ++ last, by rw [further, begins, List.cons_append]⟩

theorem encode_toString (value : Int) :
    Text.encode (toString value) =
      (if value < 0 then [0x2D] else []) ++
        (decimalDigits value.natAbs).flatMap String.utf8EncodeChar := by
  cases value with
  | ofNat number => exact Text.encode_ofList (decimalDigits number)
  | negSucc number =>
      have written : toString (Int.negSucc number) =
          "-" ++ String.ofList (decimalDigits (number + 1)) := rfl
      rw [written, Text.encode_append, Text.encode_ofList, Text.encode_ofList,
        if_pos (Int.negSucc_lt_zero number)]
      rfl

/-- At the front of the digits of a number stands a digit. -/
theorem front_digits (number : Nat) (rest : List UInt8) :
    ∃ byte others,
      (decimalDigits number).flatMap String.utf8EncodeChar ++ rest = byte :: others ∧
      0x30 ≤ byte ∧ byte ≤ 0x39 := by
  cases digits : decimalDigits number with
  | nil => exact absurd digits Nat.toDigits_ne_nil
  | cons digit others =>
      have belongs : digit ∈ decimalDigits number := by
        rw [digits]
        exact List.mem_cons_self
      obtain ⟨above, below⟩ : 0x30 ≤ digit.toNat ∧ digit.toNat ≤ 0x39 :=
        Char.isDigit_iff_toNat.1 (isDigit_decimalDigits number digit belongs)
      have value := Text.toNat_ofNat (show digit.toNat < 256 by omega)
      refine ⟨UInt8.ofNat digit.toNat, others.flatMap String.utf8EncodeChar ++ rest, ?_, ?_, ?_⟩
      · rw [List.flatMap_cons, Text.utf8EncodeChar_of_small (by omega)]
        rfl
      · rwa [UInt8.le_iff_toNat_le, value]
      · rwa [UInt8.le_iff_toNat_le, value]

/-- At the front of a number stands its sign or a digit. -/
theorem front_toString (value : Int) (rest : List UInt8) :
    ∃ byte others, Text.encode (toString value) ++ rest = byte :: others ∧
      0x2D ≤ byte ∧ byte ≤ 0x39 := by
  rw [encode_toString]
  by_cases negative : value < 0
  · rw [if_pos negative]
    exact ⟨_, _, rfl, by decide, by decide⟩
  · rw [if_neg negative, List.nil_append]
    obtain ⟨byte, others, isFront, above, below⟩ := front_digits value.natAbs rest
    exact ⟨byte, others, isFront, UInt8.le_trans (by decide) above, below⟩

/-- No digit follows a leading zero. -/
theorem digitValues_shape (number : Nat) :
    digitValues number = [0] ∨ ∃ first rest, digitValues number = (first + 1) :: rest := by
  rcases Nat.eq_zero_or_pos number with rfl | positive
  · exact .inl rfl
  · exact .inr (digitValues_of_pos positive)

theorem readNumber?_literalOf (value : Int) {rest : List UInt8} (closed : Closed rest) :
    readNumber? (Text.encode (toString value) ++ rest) =
      some (.number (literalOf value), rest) := by
  have whole := readDigits_append (isDigit_decimalDigits value.natAbs) closed
  change readDigits _ = (digitValues value.natAbs, rest) at whole
  have fraction := readFraction?_of_closed closed
  have exponent := readExponent?_of_closed closed
  rw [encode_toString, literalOf]
  by_cases negative : value < 0
  · have sign : (0x2D : UInt8) = byteOf '-' := rfl
    rw [if_pos negative, List.singleton_append, List.cons_append]
    rcases digitValues_shape value.natAbs with shape | ⟨first, others, shape⟩ <;>
      rw [shape] at whole ⊢ <;>
      simp [readNumber?, ← sign, whole, fraction, exponent, negative]
  · rw [if_neg negative, List.nil_append]
    obtain ⟨byte, behind, isDigits, above, -⟩ := front_digits value.natAbs rest
    have notSign : byte ≠ byteOf '-' := by
      rintro rfl
      exact absurd above (by decide)
    rw [isDigits] at whole ⊢
    rcases digitValues_shape value.natAbs with shape | ⟨first, others, shape⟩ <;>
      rw [shape] at whole ⊢ <;>
      simp [readNumber?, notSign, whole, fraction, exponent, negative]

/-! ## What a literal denotes -/

theorem takeDigits_of_le {digits : List Nat} {significand : Nat}
    (fits : digits.foldl (fun sofar digit => sofar * 10 + digit) significand ≤
      Decimal.significandLimit) :
    Decimal.takeDigits significand digits =
      (digits.foldl (fun sofar digit => sofar * 10 + digit) significand, []) := by
  induction digits generalizing significand with
  | nil => rfl
  | cons digit others ih =>
      have grows (total : Nat) : total ≤
          others.foldl (fun sofar digit => sofar * 10 + digit) total := by
        clear ih fits
        induction others generalizing total with
        | nil => exact Nat.le_refl _
        | cons next others ih =>
            exact Nat.le_trans (by omega) (ih (total * 10 + next))
      have below := Nat.le_trans (grows _) fits
      rw [Decimal.takeDigits, if_neg (Nat.not_lt.2 below), ih fits]
      rfl

theorem foldl_digitValues (number : Nat) :
    (digitValues number).foldl (fun sofar digit => sofar * 10 + digit) 0 = number := by
  rw [digitValues, List.foldl_map]
  have value := Nat.ofDigitChars_toDigits (b := 10) (n := number) (by decide) (by decide)
  simpa only [decimalDigits, Nat.ofDigitChars, Nat.mul_comm] using value

/-- A literal of a natural number of 64 bits denotes the number. -/
theorem number?_literalOf {number : Nat} (fits : number < 2 ^ 64) :
    (literalOf number).number? = some (.integer number) := by
  have limit : (digitValues number).foldl (fun sofar digit => sofar * 10 + digit) 0 ≤
      Decimal.significandLimit := by
    rw [foldl_digitValues, Decimal.significandLimit]
    omega
  rw [literalOf, Literal.number?, Int.natAbs_natCast, takeDigits_of_le limit, foldl_digitValues]
  simp

end DocumentHost.Json
