/-!
# Settings of a file source

Where documents are read from, how a name that leads to a directory or to no
file is completed, and when files are looked at again.
-/

namespace DocumentHost

/-- The settings of a source that reads documents from files. -/
structure FileSettings where
  /-- The directory that names are relative to. -/
  basePath : String := "."
  /-- The base name that stands for a directory. -/
  defaultName : String := "default"
  /-- The second to last extension that the files standing for a directory need. -/
  preExtension : Option String := none
  /-- The extension that is taken first among files of one base name. -/
  preferredExtension : Option String := none
  /-- Whether times of modification are looked at again. -/
  recheck : Bool := true
  /-- The least number of milliseconds between two looks at one document. -/
  minCheckInterval : Nat := 1000
deriving DecidableEq, Repr, Inhabited

end DocumentHost
