import WorkflowEngine.Yaml.Gap

/-!
# Plain scalars

A plain scalar stands without quotes. It ends before a colon that ends a word, before a word that
begins with a number sign, before a marker of a document and, outside flow collections, before a
line that is not indented far enough; inside flow collections also before the characters that mean
something there.
-/

namespace WorkflowEngine.Yaml

/-- A plain scalar that has been read. -/
structure Plain where
  text : List Char
  /-- Whether a line break follows its last word. -/
  broken : Bool
  cursor : Cursor

namespace Plain

/-- Whether a word cannot begin here: a marker, a comment or, outside flow collections, a line that
is not indented far enough. -/
def endsBefore (flow : Bool) (margin : Nat) (p : Position) (text : List Char) : Bool :=
  (!flow && p.column < margin) || isDocumentMarker p text || text.head? = some '#'

/-- Whether a colon here ends a word, or a character that means something in flow collections. -/
def endsAt (flow : Bool) (c : Char) (rest : List Char) : Bool :=
  (c = ':' && endsWord rest) || (flow && isFlowIndicator c)

/-- Whether a colon stands directly before a character that means something in flow collections. -/
def clashes (c : Char) (rest : List Char) : Bool :=
  c = ':' && rest.head?.any fun d => isFlowIndicator d || d = '?'

/-- Goes on reading a plain scalar, of which `text` has been read, newest first, and then a gap.
Lines have to be indented to `margin`, and not with tabs. -/
def readFrom (flow : Bool) (margin : Nat) (text : List Char) (gap : Gap) (p : Position) :
    List Char → Option Plain
  | [] => some ⟨text.reverse, gap.isBroken, ⟨p, []⟩⟩
  | c :: rest =>
    if isBlank c || isBreak c then
      if gap.isBroken && c = '\t' && p.column < margin then none
      else readFrom flow margin text (gap.add c) (p.after c) rest
    else
      let stops := (!gap.isEmpty && endsBefore flow margin p (c :: rest))
      if stops then some ⟨text.reverse, gap.isBroken, ⟨p, c :: rest⟩⟩
      else if flow && clashes c rest then none
      else if endsAt flow c rest then some ⟨text.reverse, gap.isBroken, ⟨p, c :: rest⟩⟩
      else readFrom flow margin (c :: (gap.text.reverse ++ text)) {} (p.after c) rest

/-- Reads a plain scalar. -/
def read (flow : Bool) (margin : Nat) (c : Cursor) : Option Plain :=
  readFrom flow margin [] {} c.position c.rest

end Plain

end WorkflowEngine.Yaml
