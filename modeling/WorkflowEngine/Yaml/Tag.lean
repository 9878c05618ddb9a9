import WorkflowEngine.Text.Utf8

/-!
# Tags

A tag says what a node is. It is a sequence of octets and no text, because escapes in it may denote
any octets that have the outline of UTF-8. Octets from the first zero on do not count.

**Kinds.** A tag of YAML's own (`Tag.core`) fixes what a scalar denotes. A tag that begins with an
exclamation mark is left to the reader: it is local, and means something only to readers that know
it, or, if it is no UTF-8, as good as no tag. Every other tag makes a scalar a text.
-/

namespace WorkflowEngine.Yaml

structure Tag where
  octets : List UInt8
deriving DecidableEq

namespace Tag

/-- The octets of characters of ASCII. -/
def ascii (cs : List Char) : List UInt8 := cs.map fun c => c.toNat.toUInt8

/-- The octets that count. -/
def counted (octets : List UInt8) : List UInt8 := octets.takeWhile (· ≠ 0)

/-- The tag that is an exclamation mark alone. -/
def mark : Tag := ⟨ascii ['!']⟩

/-- A tag of YAML's own. -/
def core (name : String) : Tag := ⟨ascii ("tag:yaml.org,2002:" ++ name).toList⟩

/-- Whether a tag begins with an exclamation mark. -/
def isMarked (t : Tag) : Bool := t.octets.take 1 = mark.octets

/-- Whether a tag is a local one. -/
def isLocal (t : Tag) : Bool := t.isMarked && (Text.ofUtf8? t.octets).isSome

end Tag

end WorkflowEngine.Yaml
