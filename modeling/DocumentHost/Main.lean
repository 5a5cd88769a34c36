import DocumentHost.CommandLine.Perform
import DocumentHost.CommandLine.Snapshot

/-!
# The program

The words of the command line say what to do.  The working directory is read
from the first line of standard input, as a snapshot; an empty line stands for
an empty directory.  Files that the command wrote follow its output, again as a
snapshot.
-/

namespace DocumentHost.CommandLine

/-- The exit code for a command line or a snapshot that is not understood. -/
def misuse : Nat := 2

/-- When everything in the working directory counts as modified. -/
def snapshotTime : Instant := ⟨0⟩

/-- Show what a command leaves of a file tree. -/
def Outcome.print (outcome : Outcome) (before : FileTree) : IO Unit := do
  IO.print outcome.output
  IO.eprint outcome.errorOutput
  if outcome.code = misuse then IO.eprint Topic.host.text
  let written := changedFiles before outcome.files
  if !written.isEmpty then IO.println (snapshotOf written).compact

end DocumentHost.CommandLine

open DocumentHost.CommandLine

/-- Perform the command line on the working directory that standard input shows. -/
def main (words : List String) : IO UInt32 := do
  let line := (← (← IO.getStdin).getLine).trimAscii.toString
  match treeOfSnapshot? snapshotTime (if line.isEmpty then "\x7b\x7d" else line) with
  | some before => do
      let outcome := perform words before snapshotTime
      outcome.print before
      return outcome.code.toUInt32
  | none => do
      IO.eprintln "The first line of input has to be an object with the text of each file."
      return misuse.toUInt32
