import DocumentHost.Host.World

/-!
# Values outside of contexts

Global values are shared by all runs, and an executable has attributes of its
own that outlast every run.  A change returns what was there before.
-/

namespace DocumentHost

variable {ε : Type}

/-- Set a global value. -/
def setGlobal (name : String) (value : Json) : HostM ε (Option Json) := do
  let world ← get
  set { world with globals := world.globals.insert name value }
  return world.globals.get? name

/-- Remove a global value. -/
def removeGlobal (name : String) : HostM ε (Option Json) := do
  let world ← get
  set { world with globals := world.globals.erase name }
  return world.globals.get? name

/-- Remove all global values. -/
def clearGlobals : HostM ε Unit :=
  modify fun world => { world with globals := {} }

/-- Set an attribute of an executable. -/
def setExecutableAttribute (id : ExecutableId) (name : String) (value : Json) :
    HostM ε (Option Json) := do
  let world ← get
  set (world.modifyExecutable id fun executable =>
    { executable with attributes := executable.attributes.insert name value })
  return (world.executables.get id).attributes.get? name

end DocumentHost
