import DocumentHost.Json.Printer
import DocumentHost.Mini.Program

/-!
# Outlines of Mini programs

The outline of a program shows its tree: every statement and every sum in
parentheses, texts in quotes, lists in brackets.
-/

namespace DocumentHost.Mini

/-- The outline of an expression. -/
def Expression.outline : Expression → String
  | .text value => Json.quote value
  | .integer value => toString value
  | .named name => name
  | .argument index => "$" ++ toString index
  | .sum left right => "(+ " ++ left.outline ++ " " ++ right.outline ++ ")"

/-- A list in brackets, its items separated by blanks. -/
def bracketed (items : List String) : String :=
  "[" ++ String.intercalate " " items ++ "]"

mutual

/-- The outline of a statement. -/
def Statement.outline : Statement → String
  | .print value => "(print " ++ value.outline ++ ")"
  | .printError value => "(eprint " ++ value.outline ++ ")"
  | .assign name value => "(set " ++ name ++ " " ++ value.outline ++ ")"
  | .assignGlobal name value => "(global " ++ name ++ " " ++ value.outline ++ ")"
  | .includeDocument document => "(include " ++ document.outline ++ ")"
  | .define name body => "(def " ++ name ++ " " ++ bracketed (outlines body) ++ ")"
  | .call name arguments =>
      "(call " ++ name ++ " " ++ bracketed (arguments.map Expression.outline) ++ ")"
  | .giveBack value => "(return " ++ value.outline ++ ")"

/-- The outlines of a list of statements. -/
def outlines : List Statement → List String
  | [] => []
  | statement :: rest => statement.outline :: outlines rest

end

end DocumentHost.Mini
