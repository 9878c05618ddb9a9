/-!
# Cutting texts

A text is cut at every one of its marks into parts (`parts`), or in two at the first doubled mark
(`cutAtPair`). Nothing but the marks is lost.
-/

namespace WorkflowEngine.Text

/-- A text cut at its marks; without marks it is one part. -/
def parts (mark : Char) : List Char → List (List Char)
  | [] => [[]]
  | c :: cs =>
    if c = mark then [] :: parts mark cs
    else
      match parts mark cs with
      | [] => [[c]]
      | s :: rest => (c :: s) :: rest

theorem parts_ne_nil (mark : Char) (text : List Char) : parts mark text ≠ [] := by
  cases text with
  | nil => simp [parts]
  | cons c cs =>
    rw [parts]
    split
    · simp
    · split <;> simp

theorem intercalate_parts (mark : Char) (text : List Char) :
    [mark].intercalate (parts mark text) = text := by
  induction text with
  | nil => rfl
  | cons c cs ih =>
    rw [parts]
    cases h : parts mark cs with
    | nil => exact absurd h (parts_ne_nil mark cs)
    | cons s rest =>
      rw [h] at ih
      split
      · next hc => simp [hc, ih]
      · cases rest <;> simp_all

/-- The text before the first doubled `c`, and the text after it. -/
def cutAtPair (c : Char) : List Char → Option (List Char × List Char)
  | [] => none
  | [_] => none
  | a :: b :: rest =>
    if a = c ∧ b = c then some ([], rest)
    else (cutAtPair c (b :: rest)).map fun p => (a :: p.1, p.2)

theorem eq_of_cutAtPair {c : Char} {text before after : List Char}
    (h : cutAtPair c text = some (before, after)) : text = before ++ c :: c :: after := by
  fun_induction cutAtPair c text generalizing before after with
  | case1 => simp at h
  | case2 => simp at h
  | case3 a b rest hab => simp_all
  | case4 a b rest hab ih =>
    simp only [Option.map_eq_some_iff, Prod.mk.injEq] at h
    obtain ⟨p, hp, rfl, rfl⟩ := h
    simp [ih hp]

theorem length_lt_of_cutAtPair {c : Char} {text before after : List Char}
    (h : cutAtPair c text = some (before, after)) : after.length < text.length := by
  have := congrArg List.length (eq_of_cutAtPair h)
  simp only [List.length_append, List.length_cons] at this
  omega

end WorkflowEngine.Text
