import DocumentHost.Options.Key
import Mathlib.Data.List.Lemmas

/-!
# What compile keys tell apart

A compile key begins with the name of a parser, and the digits behind it hold no colon.  So
options with equal keys name the same parser, and the options for included documents share
the key of the options they were made from only if they are the same.
-/

namespace DocumentHost

theorem Text.hexDigit_ne_colon {value : Nat} (small : value < 16) :
    Text.hexDigit value ≠ ':' := by
  revert value
  decide

theorem Text.colon_notMem_hexOfBytes (bytes : List UInt8) :
    ':' ∉ (Text.hexOfBytes bytes).toList := by
  rw [Text.hexOfBytes, String.toList_ofList, List.mem_flatMap]
  rintro ⟨byte, -, digit⟩
  have small := byte.toNat_lt
  rw [List.mem_pair] at digit
  rcases digit with upper | lower
  · exact Text.hexDigit_ne_colon (by omega) upper.symm
  · exact Text.hexDigit_ne_colon (by omega) lower.symm

theorem dropWhile_append_colon {digits : List Char} (plain : ':' ∉ digits) (rest : List Char) :
    (digits ++ ':' :: rest).dropWhile (· ≠ ':') = ':' :: rest := by
  rw [List.dropWhile_append_of_pos]
  · rfl
  · intro digit member
    exact decide_eq_true fun isColon => plain (isColon ▸ member)

/-- What stands before the last colon of a text is found again. -/
theorem eq_of_append_colon {first second digits others : String}
    (plain : ':' ∉ digits.toList) (othersPlain : ':' ∉ others.toList)
    (same : first ++ ":" ++ digits = second ++ ":" ++ others) : first = second := by
  have colon (text digits : String) : (text ++ ":" ++ digits).toList.reverse =
      digits.toList.reverse ++ ':' :: text.toList.reverse := by
    simp
  have reversed := congrArg (fun text => text.toList.reverse) same
  simp only [colon] at reversed
  have dropped := congrArg (List.dropWhile (· ≠ ':')) reversed
  rw [dropWhile_append_colon (by simpa using plain),
    dropWhile_append_colon (by simpa using othersPlain)] at dropped
  exact String.toList_inj.1 (List.reverse_injective (List.tail_eq_of_cons_eq dropped))

namespace CompileOptions

variable {options other : CompileOptions}

/-- Options with equal keys name the same parser. -/
theorem parser_eq_of_compileKey_eq (same : options.compileKey = other.compileKey) :
    options.parser = other.parser := by
  rw [compileKey, compileKey] at same
  exact eq_of_append_colon (Text.colon_notMem_hexOfBytes _) (Text.colon_notMem_hexOfBytes _) same

theorem forIncludes_eq_of_compileKey_eq
    (same : options.forIncludes.compileKey = options.compileKey) :
    options.forIncludes = options := by
  have parsers : options.includeParser = options.parser := parser_eq_of_compileKey_eq same
  obtain ⟨parser, includeParser⟩ := options
  obtain rfl : includeParser = parser := parsers
  rfl

end CompileOptions

end DocumentHost
