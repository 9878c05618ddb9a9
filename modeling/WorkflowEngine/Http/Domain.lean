import WorkflowEngine.Http.Domain.Direction
import WorkflowEngine.Http.Domain.Excluded
import WorkflowEngine.Http.Domain.Folded
import WorkflowEngine.Text.Cut
import WorkflowEngine.Text.Punycode

/-!
# Domain names

A domain name is written in labels with dots between them. Its characters are folded first, dots of
other scripts among them. A label that begins with `xn--` is another one written in ASCII, and is
read as that.

Main statement: `Domain.labels?`, which reads the labels of a name and refuses a text that is none.
-/

namespace WorkflowEngine.Http.Domain

/-- What begins a label that is written in ASCII for another. -/
def codedStart : List Char := "xn--".toList

/-- Whether all characters of a label stand for themselves. -/
def isFolded (label : List Char) : Bool :=
  label.all fun c => !isVariant c && !isIgnored c && !isExcluded c

/-- The label that a label stands for. -/
def label? (label : List Char) : Option (List Char) :=
  if codedStart.isPrefixOf label then
    (Text.Punycode.decode? (label.drop codedStart.length)).filter isFolded
  else some label

/-- Whether a label is well formed: it does not begin with a mark, and joiners stand where they
may. -/
def isLabel (label : List Char) : Bool := !label.head?.any isMark && joinersFit [] label

/-- The labels of a domain name. -/
def labels? (name : List Char) : Option (List (List Char)) := do
  let folded := name.flatMap fold
  if folded.any isExcluded then none
  let labels ← (Text.parts '.' folded).mapM label?
  let ordered := !labels.any (·.any isLeftward) || labels.all isOrdered
  if labels.all isLabel && ordered then some labels else none

end WorkflowEngine.Http.Domain
