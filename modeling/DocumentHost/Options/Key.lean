import DocumentHost.Digest
import DocumentHost.Options.Basic
import DocumentHost.Text.Encoding

/-!
# Compile keys

The compiled forms of a document are kept under keys that are computed from the
options.  The fields of the options are framed by their lengths and digested,
so that options share a key only if they agree in every field.
-/

namespace DocumentHost

namespace CompileOptions

/-- The fields of the options in the order in which they are digested.  An absent
tag is told apart from an empty one by a field of its own. -/
def keyFields (options : CompileOptions) : List String :=
  [options.parser, options.includeParser, options.defaultTag.getD "",
    if options.defaultTag.isSome then "tagged" else "untagged",
    if options.prepare then "prepare" else "lazy"] ++
  options.delimiters.flatMap (fun pair => [pair.opening, pair.closing]) ++
  [options.markers.comment, options.markers.expression, options.markers.documentInclude,
    options.markers.inFlow, options.containerService]

/-- A number in eight bytes, the low byte first. -/
def lengthBytes (number : Nat) : List UInt8 :=
  (List.range 8).map fun index => (number >>> (8 * index)).toUInt8

/-- A field behind its length. -/
def framed (field : String) : List UInt8 :=
  let bytes := Text.encode field
  lengthBytes bytes.length ++ bytes

/-- The bytes that are digested. -/
def keyBytes (options : CompileOptions) : List UInt8 :=
  options.keyFields.flatMap framed

/-- The key under which a document's compiled form is kept: the parser and the first
sixteen hexadecimal digits of the digest. -/
def compileKey (options : CompileOptions) : String :=
  options.parser ++ ":" ++ Text.hexOfBytes ((Digest.ofBytes options.keyBytes).take 8)

end CompileOptions

end DocumentHost
