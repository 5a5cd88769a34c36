/-!
# Mini programs

Mini is the language that comes with the host.  A program is a list of
statements; a statement prints, assigns, includes a document, defines or calls
an entry point, or returns.
-/

namespace DocumentHost.Mini

/-- An expression. -/
inductive Expression where
  | text (value : String)
  | integer (value : Int)
  /-- An attribute of the context or, failing that, a global value. -/
  | named (name : String)
  /-- An argument of the running entry point. -/
  | argument (index : Nat)
  | sum (left right : Expression)
deriving DecidableEq, Repr, Inhabited

/-- A statement. -/
inductive Statement where
  | print (value : Expression)
  | printError (value : Expression)
  | assign (name : String) (value : Expression)
  | assignGlobal (name : String) (value : Expression)
  | includeDocument (document : Expression)
  | define (name : String) (body : List Statement)
  | call (name : String) (arguments : List Expression)
  | giveBack (value : Expression)
deriving Repr, Inhabited

/-- The words that are no names. -/
def keywords : List String :=
  ["print", "eprint", "set", "global", "include", "def", "call", "return"]

end DocumentHost.Mini
