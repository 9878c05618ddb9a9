import WorkflowEngine.Http.Address
import WorkflowEngine.Http.Domain
import WorkflowEngine.Text.Utf8

/-!
# URLs

A URL can be sent a request if it is an HTTP URL with a proper host, which is an address or a domain
name, and maybe a number after it. Whatever follows these, and whatever names the user before them,
is put right by the client.
-/

namespace WorkflowEngine.Http

/-- The part of a URL between the scheme and the path, if it is an HTTP URL. Control characters and
spaces around the URL do not count, nor do line breaks and tabulators inside it. -/
def authority? (url : String) : Option (List Char) :=
  let outer (c : Char) := c.toNat ≤ 32
  let cs := ((url.toList.dropWhile outer).reverse.dropWhile outer).reverse
  let cs := cs.filter fun c => !(c = '\t' || c = '\n' || c = '\r')
  let scheme := (cs.takeWhile (· ≠ ':')).map Char.toLower
  let rest := cs.dropWhile (· ≠ ':')
  if rest.isEmpty ∨ ¬(scheme = "http".toList ∨ scheme = "https".toList) then none
  else
    let slash (c : Char) := c = '/' || c = '\\'
    let inner := (rest.drop 1).dropWhile slash
    some (inner.takeWhile fun c => !(slash c || c = '?' || c = '#'))

/-- The part of an authority behind the name of a user. -/
def server (authority : List Char) : List Char :=
  (authority.reverse.takeWhile (· ≠ '@')).reverse

/-- The bytes of a text in which bytes may be written as a percent sign and two digits. -/
def unescape : List Char → List UInt8
  | '%' :: a :: b :: rest =>
    match Text.natural? 16 [a, b] with
    | some byte => byte.toUInt8 :: unescape rest
    | none => "%".toUTF8.toList ++ unescape (a :: b :: rest)
  | c :: rest => (String.ofList [c]).toUTF8.toList ++ unescape rest
  | [] => []

/-- Whether a host that stands in no brackets is an address of version 4 or a domain name. -/
def isNamedHost (host : List Char) : Bool :=
  match (Text.ofUtf8? (unescape host)).bind Domain.labels? with
  | none => false
  | some labels => labels ≠ [[]] && (!endsInNumber labels || isAddress4 labels)

/-- Whether what follows a host is nothing or a colon and a number of 16 bits, which may be left
out. -/
def isHostSuffix (cs : List Char) : Bool :=
  match cs with
  | [] | [':'] => true
  | ':' :: digits => (Text.natural? 10 digits).any (· < 0x10000)
  | _ => false

/-- Whether a host and what follows it are proper. -/
def isServer (cs : List Char) : Bool :=
  match cs with
  | '[' :: rest =>
    isAddress6 (rest.takeWhile (· ≠ ']')) &&
      match rest.dropWhile (· ≠ ']') with
      | _ :: suffix => isHostSuffix suffix
      | [] => false
  | _ => isNamedHost (cs.takeWhile (· ≠ ':')) && isHostSuffix (cs.dropWhile (· ≠ ':'))

/-- Whether a URL can be sent a request. -/
def isUrl (url : String) : Bool := (authority? url).any fun a => isServer (server a)

end WorkflowEngine.Http
