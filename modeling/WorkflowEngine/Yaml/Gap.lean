import WorkflowEngine.Yaml.Cursor

/-!
# The space between two words

Scalars that are not laid out in a block may run over several lines. The space between two of their
words is kept if it lies in one line. Otherwise only its line breaks count: a single one is read as
a space, and of several the first is dropped. A line break that is escaped is not read at all.
-/

namespace WorkflowEngine.Yaml

structure Gap where
  /-- The blanks before the first line break. -/
  blanks : List Char := []
  breaks : List Char := []
  /-- Whether an escaped line break came first. -/
  escaped : Bool := false

namespace Gap

/-- Whether there is a line break in the gap. -/
def isBroken (g : Gap) : Bool := g.escaped || !g.breaks.isEmpty

def isEmpty (g : Gap) : Bool := g.blanks.isEmpty && !g.isBroken

/-- Adds a blank or a line break. -/
def add (g : Gap) (c : Char) : Gap :=
  if isBreak c then { g with breaks := g.breaks ++ [c] }
  else if g.isBroken then g
  else { g with blanks := g.blanks ++ [c] }

/-- What a gap is read as. -/
def text (g : Gap) : List Char :=
  if g.escaped then g.breaks
  else
    match g.breaks with
    | [] => g.blanks
    | ['\n'] => [' ']
    | '\n' :: more => more
    | breaks => breaks

end Gap

end WorkflowEngine.Yaml
