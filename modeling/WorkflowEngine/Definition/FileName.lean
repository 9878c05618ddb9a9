import WorkflowEngine.Text.Cut

/-!
# Names of files

Files with definitions lie in a directory that holds no other directories. A name is cut at its
slashes: the last part is the file's own name, and the parts before it must not lead into a
directory that is not there. Of the own name, what follows its last point is the extension.
-/

namespace WorkflowEngine.Definition

/-- Whether a part of a name stays in the directory or goes up. -/
def isDots (part : List Char) : Bool := part = [] || part = ['.'] || part = ['.', '.']

/-- The longest name that a file can have of its own, in bytes. -/
def maxNameLength : Nat := 255

/-- Whether a file can have this name of its own: it has no null character and is not too long. -/
def isOwnName (part : List Char) : Bool :=
  !isDots part && part.all (·.toNat ≠ 0) && (String.ofList part).utf8ByteSize ≤ maxNameLength

/-- Whether there can be a file with this name. -/
def isFileName (name : String) : Bool :=
  let parts := Text.parts '/' name.toList
  parts.dropLast.all isDots && parts.getLast?.any isOwnName

/-- The part of a file's own name after its last point, unless the point comes first. -/
def extension? (name : String) : Option String :=
  let base := (name.toList.reverse.takeWhile (· ≠ '/')).reverse
  let after := (base.reverse.takeWhile (· ≠ '.')).reverse
  if after.length + 1 < base.length then some (String.ofList after) else none

end WorkflowEngine.Definition
