import DocumentHost.Proofs.Options.Key
import DocumentHost.Proofs.Text.Encoding
import Mathlib.Data.List.Lemmas
import Mathlib.Data.Nat.ModEq

/-!
# Options are told apart by what is digested

The bytes that are digested for a compile key are the fields of the options, each behind its
length.  A length can be read off the front, and after it a field, so the bytes tell the fields,
whatever they contain and however many there are; and five fields stand in front of the
delimiters and five behind them, so the fields tell the options.
-/

namespace DocumentHost

namespace CompileOptions

/-! ## Lengths -/

/-- The number that bytes stand for, the low byte first. -/
def numberOfBytes (bytes : List UInt8) : Nat :=
  bytes.foldr (fun byte higher => byte.toNat + 256 * higher) 0

/-- Bytes of a number, the low byte first, give it back as far as they go. -/
theorem numberOfBytes_map_range (count number : Nat) :
    numberOfBytes ((List.range count).map fun index => (number >>> (8 * index)).toUInt8) =
      number % 256 ^ count := by
  induction count generalizing number with
  | zero => simp [numberOfBytes, Nat.mod_one]
  | succ count ih =>
      have higher (index : Nat) :
          number >>> (8 * (index + 1)) = (number >>> 8) >>> (8 * index) := by
        rw [← Nat.shiftRight_add]
        congr 1
        omega
      have low : (number >>> (8 * 0)).toUInt8.toNat = number % 256 := by simp
      rw [List.range_succ_eq_map, List.map_cons, List.map_map]
      simp only [Function.comp_def, Nat.succ_eq_add_one, higher]
      change (number >>> (8 * 0)).toUInt8.toNat + 256 * numberOfBytes _ = _
      rw [ih, low, Nat.shiftRight_eq_div_pow, show 256 ^ (count + 1) = 256 * 256 ^ count from
        pow_succ' .., Nat.mod_mul]

theorem length_lengthBytes (number : Nat) : (lengthBytes number).length = 8 := by
  simp [lengthBytes]

/-- Lengths that fit eight bytes can be read back. -/
theorem eq_of_lengthBytes_eq {number other : Nat} (fits : number < 2 ^ 64)
    (otherFits : other < 2 ^ 64) (same : lengthBytes number = lengthBytes other) :
    number = other := by
  have read := congrArg numberOfBytes same
  rw [lengthBytes, lengthBytes, numberOfBytes_map_range, numberOfBytes_map_range] at read
  rwa [show 256 ^ 8 = 2 ^ 64 from rfl, Nat.mod_eq_of_lt fits, Nat.mod_eq_of_lt otherFits] at read

/-! ## Fields -/

/-- A text whose length in bytes fits into the eight bytes in front of it. -/
def Fits (field : String) : Prop :=
  (Text.encode field).length < 2 ^ 64

instance (field : String) : Decidable (Fits field) :=
  inferInstanceAs (Decidable (_ < _))

/-- A field behind its length can be taken off the front of whatever bytes follow it. -/
theorem framed_append_inj {field other : String} (fits : Fits field) (otherFits : Fits other)
    {rest otherRest : List UInt8}
    (same : framed field ++ rest = framed other ++ otherRest) :
    field = other ∧ rest = otherRest := by
  unfold framed at same
  dsimp only at same
  rw [List.append_assoc, List.append_assoc] at same
  obtain ⟨lengths, behind⟩ := List.append_inj same (by simp only [length_lengthBytes])
  obtain ⟨fields, rests⟩ := List.append_inj behind
    (eq_of_lengthBytes_eq fits otherFits lengths)
  exact ⟨Text.encode_injective fields, rests⟩

theorem framed_ne_nil (field : String) : framed field ≠ [] := by
  intro empty
  have length := congrArg List.length empty
  simp [framed, length_lengthBytes] at length

/-- Framed fields tell how many there are, and each of them. -/
theorem eq_of_flatMap_framed_eq {fields others : List String} (fit : ∀ field ∈ fields, Fits field)
    (othersFit : ∀ field ∈ others, Fits field)
    (same : fields.flatMap framed = others.flatMap framed) : fields = others := by
  induction fields generalizing others with
  | nil =>
      cases others with
      | nil => rfl
      | cons other others =>
          rw [List.flatMap_nil, List.flatMap_cons] at same
          exact absurd (List.append_eq_nil_iff.1 same.symm).1 (framed_ne_nil other)
  | cons field fields ih =>
      cases others with
      | nil =>
          rw [List.flatMap_nil, List.flatMap_cons] at same
          exact absurd (List.append_eq_nil_iff.1 same).1 (framed_ne_nil field)
      | cons other others =>
          obtain ⟨fieldFits, fit⟩ := List.forall_mem_cons.1 fit
          obtain ⟨otherFits, othersFit⟩ := List.forall_mem_cons.1 othersFit
          rw [List.flatMap_cons, List.flatMap_cons] at same
          obtain ⟨isSame, rest⟩ := framed_append_inj fieldFits otherFits same
          rw [isSame, ih fit othersFit rest]

/-! ## Options -/

theorem delimiters_eq_of_flatMap_eq {pairs others : List Delimiters}
    (same : pairs.flatMap (fun pair => [pair.opening, pair.closing]) =
      others.flatMap (fun pair => [pair.opening, pair.closing])) : pairs = others := by
  induction pairs generalizing others with
  | nil =>
      cases others with
      | nil => rfl
      | cons other others => simp at same
  | cons pair pairs ih =>
      cases others with
      | nil => simp at same
      | cons other others =>
          simp only [List.flatMap_cons, List.cons_append, List.nil_append, List.cons.injEq] at same
          obtain ⟨opening, closing, rest⟩ := same
          obtain ⟨ownOpening, ownClosing⟩ := pair
          obtain rfl : ownOpening = other.opening := opening
          obtain rfl : ownClosing = other.closing := closing
          rw [ih rest]

/-- The fields in front of the delimiters are five, and so are those behind them. -/
theorem keyFields_injective : Function.Injective keyFields := by
  intro options other same
  obtain ⟨parser, includeParser, defaultTag, prepare, delimiters,
    ⟨comment, expression, documentInclude, inFlow⟩, containerService⟩ := options
  obtain ⟨otherParser, otherIncludeParser, otherDefaultTag, otherPrepare, otherDelimiters,
    ⟨otherComment, otherExpression, otherDocumentInclude, otherInFlow⟩,
    otherContainerService⟩ := other
  simp only [keyFields, List.append_assoc] at same
  obtain ⟨front, rest⟩ := List.append_inj same rfl
  obtain ⟨pairs, back⟩ := List.append_inj' rest rfl
  simp only [List.cons.injEq, and_true] at front back
  obtain ⟨rfl, rfl, tag, isTagged, isPrepared⟩ := front
  obtain ⟨rfl, rfl, rfl, rfl, rfl⟩ := back
  obtain rfl := delimiters_eq_of_flatMap_eq pairs
  obtain rfl : prepare = otherPrepare := by
    cases prepare <;> cases otherPrepare <;> simp_all
  -- an absent tag and an empty one give the same third field, but not the same fourth
  obtain rfl : defaultTag = otherDefaultTag := by
    cases defaultTag <;> cases otherDefaultTag <;> simp_all
  rfl

/-! ## Keys -/

/-- Options whose texts are no longer than a text in memory can be: their lengths are numbers of
64 bits. -/
def Storable (options : CompileOptions) : Prop :=
  ∀ field ∈ options.keyFields, Fits field

instance (options : CompileOptions) : Decidable options.Storable :=
  inferInstanceAs (Decidable (∀ field ∈ options.keyFields, Fits field))

/-- The digits of a key: the first sixteen of a digest. -/
def keyDigits (bytes : List UInt8) : String :=
  Text.hexOfBytes ((Digest.ofBytes bytes).take 8)

theorem keyDigits_eq_of_compileKey_eq {options other : CompileOptions}
    (same : options.compileKey = other.compileKey) :
    keyDigits options.keyBytes = keyDigits other.keyBytes := by
  have parsers := parser_eq_of_compileKey_eq same
  rw [compileKey, compileKey, parsers] at same
  exact (String.append_right_inj _).1 same

/-- The bytes that are digested are those of no other options, and can be read as no other list
of fields.  As long as the digits of two such digests do not collide, options share a key just if
they are the same. -/
theorem compileKey_tells_apart {options other : CompileOptions} (storable : options.Storable)
    (otherStorable : other.Storable) :
    (options.keyBytes = other.keyBytes ↔ options = other) ∧
      (∀ fields : List String, (∀ field ∈ fields, Fits field) →
        (fields.flatMap framed = options.keyBytes ↔ fields = options.keyFields)) ∧
      ((keyDigits options.keyBytes = keyDigits other.keyBytes →
          options.keyBytes = other.keyBytes) →
        (options.compileKey = other.compileKey ↔ options = other)) := by
  have told (same : options.keyBytes = other.keyBytes) : options = other :=
    keyFields_injective (eq_of_flatMap_framed_eq storable otherStorable same)
  refine ⟨⟨told, congrArg keyBytes⟩, fun fields fit => ⟨?_, ?_⟩, fun apart => ⟨?_, ?_⟩⟩
  · exact eq_of_flatMap_framed_eq fit storable
  · rintro rfl
    rfl
  · intro same
    exact told (apart (keyDigits_eq_of_compileKey_eq same))
  · exact congrArg compileKey

/-- Options without markers, and with a pair of delimiters. -/
def pairedOptions : CompileOptions where
  delimiters := [⟨"&", ":"⟩]
  markers := { comment := "", expression := "", documentInclude := "", inFlow := "" }

/-- Options with the same texts one behind the other, of which none is a delimiter. -/
def markedOptions : CompileOptions where
  delimiters := []
  markers := { comment := "&", expression := ":", documentInclude := "", inFlow := "" }

theorem compileKey_tells_apart_paired :
    String.join pairedOptions.keyFields = String.join markedOptions.keyFields ∧
      pairedOptions.Storable ∧ markedOptions.Storable ∧
      (keyDigits pairedOptions.keyBytes = keyDigits markedOptions.keyBytes →
        pairedOptions.keyBytes = markedOptions.keyBytes) ∧
      pairedOptions.keyBytes ≠ markedOptions.keyBytes ∧
      pairedOptions.compileKey ≠ markedOptions.compileKey := by
  have differs : pairedOptions ≠ markedOptions := by decide
  obtain ⟨storable, otherStorable, digits⟩ : pairedOptions.Storable ∧ markedOptions.Storable ∧
      keyDigits pairedOptions.keyBytes ≠ keyDigits markedOptions.keyBytes := by
    decide +kernel
  have apart (same : keyDigits pairedOptions.keyBytes = keyDigits markedOptions.keyBytes) :
      pairedOptions.keyBytes = markedOptions.keyBytes := absurd same digits
  obtain ⟨bytes, -, keys⟩ := compileKey_tells_apart storable otherStorable
  exact ⟨rfl, storable, otherStorable, apart, bytes.not.2 differs, (keys apart).not.2 differs⟩

end CompileOptions

end DocumentHost
