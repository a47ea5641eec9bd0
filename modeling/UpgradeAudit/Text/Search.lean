/-!
# Pieces of a text

Splitting at a separator, replacing a piece wherever it stands, and taking a piece off either end.
What is taken off the start of a text is what was put in front (`afterLead?_eq_some_iff`).
-/

namespace UpgradeAudit.Text

/-- What follows `lead` at the start of a text. -/
def afterLead? : List Char → List Char → Option (List Char)
  | [], text => some text
  | _ :: _, [] => none
  | c :: lead, d :: text => if c = d then afterLead? lead text else none

theorem afterLead?_eq_some_iff {lead text rest : List Char} :
    afterLead? lead text = some rest ↔ text = lead ++ rest := by
  induction lead generalizing text with
  | nil => simp [afterLead?]
  | cons c lead ih =>
    cases text with
    | nil => simp [afterLead?]
    | cons d text =>
      rw [afterLead?]
      split
      · next hcd => simp [ih, hcd]
      · next hcd => simp [Ne.symm hcd]

def startsWith (lead text : List Char) : Bool :=
  (afterLead? lead text).isSome

theorem startsWith_iff {lead text : List Char} :
    startsWith lead text ↔ ∃ rest, text = lead ++ rest := by
  unfold startsWith
  simp only [Option.isSome_iff_exists, afterLead?_eq_some_iff]

theorem startsWith_toList_iff {lead text : String} :
    startsWith lead.toList text.toList ↔ ∃ rest, text = lead ++ rest := by
  rw [startsWith_iff]
  constructor
  · rintro ⟨rest, hrest⟩
    refine ⟨String.ofList rest, ?_⟩
    rw [← String.toList_inj, hrest, String.toList_append, String.toList_ofList]
  · rintro ⟨rest, rfl⟩
    exact ⟨rest.toList, String.toList_append⟩

/-- The text without `lead`, if it starts with it. -/
def dropLead (lead text : List Char) : List Char :=
  (afterLead? lead text).getD text

/-- The text without `tail`, if it ends with it. -/
def dropTail (tail text : List Char) : List Char :=
  (dropLead tail.reverse text.reverse).reverse

/-- Replaces each occurrence of `c :: piece`, from left to right and without overlaps; `skip`
counts the characters left of an occurrence that is already replaced. -/
def replaceFrom (c : Char) (piece new : List Char) : Nat → List Char → List Char
  | _, [] => []
  | skip + 1, _ :: rest => replaceFrom c piece new skip rest
  | 0, d :: rest =>
    if d = c ∧ startsWith piece rest then new ++ replaceFrom c piece new piece.length rest
    else d :: replaceFrom c piece new 0 rest

/-- Replaces each occurrence of a piece, from left to right and without overlaps. -/
def replaceAll (piece new text : List Char) : List Char :=
  match piece with
  | [] => text
  | c :: piece => replaceFrom c piece new 0 text

/-- The parts of a text between separators, of which there is one more than separators. -/
def splitOn (separator : Char) : List Char → List (List Char)
  | [] => [[]]
  | c :: rest =>
    if c = separator then [] :: splitOn separator rest
    else
      match splitOn separator rest with
      | part :: parts => (c :: part) :: parts
      | [] => [[c]]

end UpgradeAudit.Text
