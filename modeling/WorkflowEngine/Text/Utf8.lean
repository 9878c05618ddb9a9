/-!
# Bytes as text

UTF-8, read strictly or with a replacement character for what is no UTF-8: one for each longest run
of bytes that could begin a character and does not complete it.
-/

namespace WorkflowEngine.Text

/-- How many bytes follow a first byte, and the range that the first of them must lie in. -/
def continuation? (b : Nat) : Option (Nat × Nat × Nat) :=
  if 0xc2 ≤ b ∧ b ≤ 0xdf then some (1, 0x80, 0xbf)
  else if b = 0xe0 then some (2, 0xa0, 0xbf)
  else if b = 0xed then some (2, 0x80, 0x9f)
  else if 0xe1 ≤ b ∧ b ≤ 0xef then some (2, 0x80, 0xbf)
  else if b = 0xf0 then some (3, 0x90, 0xbf)
  else if 0xf1 ≤ b ∧ b ≤ 0xf3 then some (3, 0x80, 0xbf)
  else if b = 0xf4 then some (3, 0x80, 0x8f)
  else none

/-- A character of several bytes that is being read: how many bytes are still to come, the range of
the next, and the code so far. -/
structure Partial where
  missing : Nat
  low : Nat
  high : Nat
  code : Nat

/-- A byte between characters: a character, the first byte of one, or nothing of the kind. -/
def beginByte (b : Nat) : Except (Option Char) Partial :=
  if b < 0x80 then .error (some (Char.ofNat b))
  else
    match continuation? b with
    | some (n, low, high) => .ok ⟨n, low, high, b % Nat.pow 2 (6 - n)⟩
    | none => .error none

/-- Reads bytes as characters; `none` stands for bytes that are no character. -/
def decode (p : Option Partial) : List UInt8 → List (Option Char)
  | [] => if p.isSome then [none] else []
  | byte :: rest =>
    let b := byte.toNat
    let fresh (before : List (Option Char)) :=
      match beginByte b with
      | .ok q => before ++ decode (some q) rest
      | .error c => before ++ c :: decode none rest
    match p with
    | none => fresh []
    | some p =>
      if p.low ≤ b ∧ b ≤ p.high then
        let code := p.code * 64 + b % 64
        if p.missing = 1 then some (Char.ofNat code) :: decode none rest
        else decode (some ⟨p.missing - 1, 0x80, 0xbf, code⟩) rest
      else fresh [none]

/-- The text of bytes that are UTF-8 throughout. -/
def ofUtf8? (bytes : List UInt8) : Option (List Char) := (decode none bytes).mapM id

/-- The text of bytes, with U+FFFD for what is no UTF-8. -/
def ofUtf8Lossy (bytes : List UInt8) : List Char :=
  (decode none bytes).map (·.getD (Char.ofNat 0xfffd))

end WorkflowEngine.Text
