import DocumentHost.Text.Encoding
import Mathlib.Data.List.Basic
import Mathlib.Tactic.IntervalCases

/-!
# Texts are read from their bytes

The bytes of a text are those of its characters one behind the other, and each character can be
read off the front.  So a text is what is read from its bytes.
-/

namespace DocumentHost.Text

theorem toList_loop (bytes : ByteArray) (index : Nat) (front : List UInt8) :
    ByteArray.toList.loop bytes index front =
      front.reverse ++ bytes.data.toList.drop index := by
  induction left : bytes.size - index generalizing index front with
  | zero =>
      have behind : bytes.data.toList.length ≤ index := by
        rw [Array.length_toList, ByteArray.size_data]
        omega
      rw [ByteArray.toList.loop, if_neg (by omega), List.drop_eq_nil_of_le behind, List.append_nil]
  | succ count ih =>
      have inside : index < bytes.data.toList.length := by
        rw [Array.length_toList, ByteArray.size_data]
        omega
      have first : bytes.get! index = bytes.data.toList[index] := by
        change bytes.data[index]! = _
        rw [getElem!_pos bytes.data index (by simpa using inside), Array.getElem_toList]
      rw [ByteArray.toList.loop, if_pos (by omega), ih (index + 1) _ (by omega),
        List.reverse_cons, List.append_assoc, first, List.drop_eq_getElem_cons inside]
      rfl

theorem encode_eq_toList (text : String) : encode text = text.toByteArray.data.toList := by
  rw [encode, ByteArray.toList, toList_loop]
  rfl

/-- The bytes of a text are those of its characters. -/
theorem encode_ofList (characters : List Char) :
    encode (String.ofList characters) = characters.flatMap String.utf8EncodeChar := by
  rw [encode_eq_toList, String.toByteArray_ofList, List.utf8Encode, List.data_toByteArray]

theorem encode_eq (text : String) : encode text = text.toList.flatMap String.utf8EncodeChar := by
  rw [← encode_ofList, String.ofList_toList]

@[simp]
theorem encode_append (first second : String) :
    encode (first ++ second) = encode first ++ encode second := by
  rw [encode_eq, encode_eq, encode_eq, String.toList_append, List.flatMap_append]

/-! ## Reading a character off the front -/

theorem toNat_ofNat {number : Nat} (fits : number < 256) : (UInt8.ofNat number).toNat = number :=
  UInt8.toNat_ofNat_of_lt fits

theorem isContinuation_ofNat {bits : Nat} (fits : bits < 64) :
    isContinuation (UInt8.ofNat (bits + 128)) = true := by
  have number := toNat_ofNat (show bits + 128 < 256 by omega)
  simp only [isContinuation, Bool.and_eq_true, decide_eq_true_eq, UInt8.le_iff_toNat_le, number,
    UInt8.reduceToNat]
  omega

theorem takeContinuation_ofNat {count code bits : Nat} (fits : bits < 64) (rest : List UInt8) :
    takeContinuation (count + 1) code (UInt8.ofNat (bits + 128) :: rest) =
      takeContinuation count (code * 64 + bits) rest := by
  have number := toNat_ofNat (show bits + 128 < 256 by omega)
  rw [takeContinuation, if_pos (isContinuation_ofNat fits), number, Nat.add_sub_cancel]

theorem decodeFrom_of_small {number : Nat} (small : number < 128) (rest : List UInt8) :
    decodeFrom (UInt8.ofNat number) rest = (some (Char.ofNat number), rest) := by
  have value := toNat_ofNat (show number < 256 by omega)
  have below : UInt8.ofNat number < 0x80 := by
    rw [UInt8.lt_iff_toNat_lt, value]
    exact small
  unfold decodeFrom
  rw [if_pos below, value]

/-- A leading byte, a byte within its bounds, and further ones. -/
theorem decodeFrom_of_leading {first second count code : Nat} {low high : UInt8}
    {rest left : List UInt8} (large : 128 ≤ first) (fits : first < 256)
    (leads : leading? (UInt8.ofNat first) = some (count, low, high)) (short : second < 64)
    (above : low.toNat ≤ second + 128) (below : second + 128 ≤ high.toNat)
    (continued : takeContinuation (count - 1) (first % (1 <<< (6 - count)) * 64 + second) rest =
      (code, left, 0)) :
    decodeFrom (UInt8.ofNat first) (UInt8.ofNat (second + 128) :: rest) =
      (some (Char.ofNat code), left) := by
  have firstValue := toNat_ofNat fits
  have secondValue := toNat_ofNat (show second + 128 < 256 by omega)
  have notSmall : ¬UInt8.ofNat first < 0x80 := by
    rw [UInt8.lt_iff_toNat_lt, firstValue]
    exact Nat.not_lt.2 large
  have within : (low ≤ UInt8.ofNat (second + 128) && UInt8.ofNat (second + 128) ≤ high) = true := by
    simp only [Bool.and_eq_true, decide_eq_true_eq, UInt8.le_iff_toNat_le, secondValue]
    exact ⟨above, below⟩
  unfold decodeFrom
  rw [if_neg notSmall, leads]
  dsimp only
  rw [if_pos within, leadingBits, firstValue, secondValue, Nat.add_sub_cancel, continued]

/-- The bounds that a leading byte sets for the second byte. -/
theorem leading?_ofNat_of_two {number : Nat} (above : 194 ≤ number) (below : number ≤ 223) :
    leading? (UInt8.ofNat number) = some (1, 0x80, 0xBF) := by
  have value := toNat_ofNat (show number < 256 by omega)
  simp only [leading?, UInt8.le_iff_toNat_le, value, UInt8.reduceToNat, Bool.and_eq_true,
    decide_eq_true_eq]
  rw [if_pos ⟨above, below⟩]

theorem leading?_ofNat_of_three {number : Nat} (above : 224 ≤ number) (below : number ≤ 239) :
    leading? (UInt8.ofNat number) =
      some (2, if number = 224 then 0xA0 else 0x80, if number = 237 then 0x9F else 0xBF) := by
  interval_cases number <;> rfl

theorem leading?_ofNat_of_four {number : Nat} (above : 240 ≤ number) (below : number ≤ 244) :
    leading? (UInt8.ofNat number) =
      some (3, if number = 240 then 0x90 else 0x80, if number = 244 then 0x8F else 0xBF) := by
  interval_cases number <;> rfl

/-- The bytes of a code point. -/
def codeBytes (code : Nat) : List UInt8 :=
  if code ≤ 127 then [UInt8.ofNat code]
  else if code ≤ 2047 then [UInt8.ofNat (code / 64 % 32 + 192), UInt8.ofNat (code % 64 + 128)]
  else if code ≤ 65535 then
    [UInt8.ofNat (code / 4096 % 16 + 224), UInt8.ofNat (code / 64 % 64 + 128),
      UInt8.ofNat (code % 64 + 128)]
  else
    [UInt8.ofNat (code / 262144 % 8 + 240), UInt8.ofNat (code / 4096 % 64 + 128),
      UInt8.ofNat (code / 64 % 64 + 128), UInt8.ofNat (code % 64 + 128)]

theorem utf8EncodeChar_eq (character : Char) :
    String.utf8EncodeChar character = codeBytes character.toNat :=
  rfl

/-- The bytes of ASCII characters are their numbers. -/
theorem utf8EncodeChar_of_small {character : Char} (small : character.toNat ≤ 127) :
    String.utf8EncodeChar character = [UInt8.ofNat character.toNat] := by
  rw [utf8EncodeChar_eq, codeBytes, if_pos small]

theorem codeBytes_of_large {code : Nat} (large : 127 < code) :
    ∀ byte ∈ codeBytes code, 0x80 ≤ byte := by
  have marked {bits mark : Nat} (low : 128 ≤ mark) (fits : bits + mark < 256) :
      0x80 ≤ UInt8.ofNat (bits + mark) := by
    rw [UInt8.le_iff_toNat_le, toNat_ofNat fits]
    exact Nat.le_trans low (Nat.le_add_left ..)
  unfold codeBytes
  rw [if_neg (Nat.not_le.2 large)]
  split
  · simp only [List.forall_mem_cons]
    exact ⟨marked (by omega) (by omega), marked (by omega) (by omega), nofun⟩
  split
  · simp only [List.forall_mem_cons]
    exact ⟨marked (by omega) (by omega), marked (by omega) (by omega),
      marked (by omega) (by omega), nofun⟩
  · simp only [List.forall_mem_cons]
    exact ⟨marked (by omega) (by omega), marked (by omega) (by omega),
      marked (by omega) (by omega), marked (by omega) (by omega), nofun⟩

theorem encode_singleton (character : Char) :
    encode (String.singleton character) = String.utf8EncodeChar character := by
  rw [String.singleton_eq_ofList, encode_ofList, List.flatMap_singleton]

theorem decodeFrom_codeBytes {code : Nat}
    (valid : code < 0xD800 ∨ 0xDFFF < code ∧ code < 0x110000) (rest : List UInt8) :
    ∃ first others, codeBytes code = first :: others ∧
      decodeFrom first (others ++ rest) = (some (Char.ofNat code), rest) := by
  unfold codeBytes
  by_cases one : code ≤ 127
  · rw [if_pos one]
    exact ⟨_, _, rfl, decodeFrom_of_small (by omega) rest⟩
  rw [if_neg one]
  by_cases two : code ≤ 2047
  · rw [if_pos two]
    refine ⟨_, _, rfl, decodeFrom_of_leading (by omega) (by omega)
      (leading?_ofNat_of_two (by omega) (by omega)) (by omega) (by simp) ?_ ?_⟩
    · simp
      omega
    · have bits : (code / 64 % 32 + 192) % 32 = code / 64 := by omega
      change takeContinuation 0 ((code / 64 % 32 + 192) % 32 * 64 + code % 64) _ = _
      rw [bits, takeContinuation, Nat.div_add_mod']
      rfl
  rw [if_neg two]
  by_cases three : code ≤ 65535
  · rw [if_pos three]
    refine ⟨_, _, rfl, decodeFrom_of_leading (by omega) (by omega)
      (leading?_ofNat_of_three (by omega) (by omega)) (by omega) ?_ ?_ ?_⟩
    · split
      · simp
        omega
      · simp
    · split <;> (simp; omega)
    · have bits : (code / 4096 % 16 + 224) % 16 = code / 4096 := by omega
      change takeContinuation (0 + 1) ((code / 4096 % 16 + 224) % 16 * 64 + code / 64 % 64)
        (UInt8.ofNat (code % 64 + 128) :: rest) = _
      rw [bits, takeContinuation_ofNat (by omega), takeContinuation, Prod.mk.injEq]
      exact ⟨by omega, rfl⟩
  rw [if_neg three]
  refine ⟨_, _, rfl, decodeFrom_of_leading (by omega) (by omega)
      (leading?_ofNat_of_four (by omega) (by omega)) (by omega) ?_ ?_ ?_⟩
  · split
    · simp
      omega
    · simp
  · split <;> (simp; omega)
  · have bits : (code / 262144 % 8 + 240) % 8 = code / 262144 := by omega
    change takeContinuation (0 + 1 + 1) ((code / 262144 % 8 + 240) % 8 * 64 + code / 4096 % 64)
      (UInt8.ofNat (code / 64 % 64 + 128) :: UInt8.ofNat (code % 64 + 128) :: rest) = _
    rw [bits, takeContinuation_ofNat (by omega), takeContinuation_ofNat (by omega),
      takeContinuation, Prod.mk.injEq]
    exact ⟨by omega, rfl⟩

/-- A character is read off the front of what begins with its bytes. -/
theorem decodeFrom_utf8EncodeChar (character : Char) (rest : List UInt8) :
    ∃ first others, String.utf8EncodeChar character = first :: others ∧
      decodeFrom first (others ++ rest) = (some character, rest) := by
  have read := decodeFrom_codeBytes character.valid rest
  rwa [show Char.ofNat character.val.toNat = character from Char.ofNat_toNat character] at read

/-! ## Reading a text -/

theorem decodeAll_flatMap (characters : List Char) {fuel : Nat}
    (enough : (characters.flatMap String.utf8EncodeChar).length ≤ fuel) :
    decodeAll fuel (characters.flatMap String.utf8EncodeChar) = characters.map some := by
  induction characters generalizing fuel with
  | nil => cases fuel <;> rfl
  | cons character others ih =>
      rw [List.flatMap_cons] at enough ⊢
      obtain ⟨first, bytes, isEncoded, read⟩ :=
        decodeFrom_utf8EncodeChar character (others.flatMap String.utf8EncodeChar)
      rw [isEncoded, List.cons_append] at enough ⊢
      obtain ⟨fuel, rfl⟩ : ∃ less, fuel = less + 1 :=
        Nat.exists_eq_add_one_of_ne_zero (Nat.ne_of_gt (Nat.lt_of_lt_of_le (Nat.succ_pos _) enough))
      rw [List.length_cons, List.length_append] at enough
      rw [decodeAll, read, List.map_cons]
      dsimp only
      rw [ih (by omega)]

/-- A text is read from its bytes. -/
@[simp]
theorem decode?_encode (text : String) : decode? (encode text) = some text := by
  rw [decode?, encode_eq, decodeAll_flatMap _ (Nat.le_refl _)]
  have all (characters : List Char) :
      (characters.map some).mapM (id : Option Char → Option Char) = some characters := by
    induction characters with
    | nil => rfl
    | cons character others ih => simp [ih]
  rw [all, Option.map_some, String.ofList_toList]

/-- Different texts have different bytes. -/
theorem encode_injective : Function.Injective encode := by
  intro text other same
  have read := congrArg decode? same
  rw [decode?_encode, decode?_encode] at read
  exact Option.some.inj read

end DocumentHost.Text
