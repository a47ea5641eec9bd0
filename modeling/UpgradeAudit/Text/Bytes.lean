/-!
# Byte positions in a text

Positions in source files and bytecode texts count UTF-8 bytes. A text is cut only between two
characters: `cut?` gives the two parts of a text at a byte position and refuses a position inside a
character or past the end. Main statements: the parts make up the text and have as many bytes as the
positions say, and no other texts do (`cut?_eq_some_iff`, `window?_eq_some_iff`).
-/

namespace UpgradeAudit.Text

def byteLength : List Char → Nat
  | [] => 0
  | c :: rest => c.utf8Size + byteLength rest

@[simp]
theorem byteLength_append (a b : List Char) :
    byteLength (a ++ b) = byteLength a + byteLength b := by
  induction a with
  | nil => simp [byteLength]
  | cons c rest ih => simp [byteLength, ih, Nat.add_assoc]

/-- The parts of a text before and after a byte position that lies between two characters. -/
def cut? : List Char → Nat → Option (List Char × List Char)
  | text, 0 => some ([], text)
  | [], _ + 1 => none
  | c :: rest, position + 1 =>
    if c.utf8Size ≤ position + 1 then
      (cut? rest (position + 1 - c.utf8Size)).map fun parts => (c :: parts.1, parts.2)
    else none

/-- The parts of a text make up the text, and the first one has as many bytes as asked for. -/
theorem cut?_eq_some_iff {text a b : List Char} {position : Nat} :
    cut? text position = some (a, b) ↔ text = a ++ b ∧ byteLength a = position := by
  induction text generalizing position a with
  | nil =>
    cases position with
    | zero =>
      cases a with
      | nil => simp [cut?, byteLength, eq_comm]
      | cons c rest => simp [cut?]
    | succ n =>
      cases a with
      | nil => simp [cut?, byteLength]
      | cons c rest => simp [cut?]
  | cons c rest ih =>
    have hc := c.utf8Size_pos
    cases position with
    | zero =>
      cases a with
      | nil => simp [cut?, byteLength, eq_comm]
      | cons d others =>
        have hd := d.utf8Size_pos
        simp [cut?, byteLength]
        omega
    | succ n =>
      rw [cut?]
      cases a with
      | nil => split <;> simp [byteLength]
      | cons d others =>
        split
        · next hle =>
          simp only [Option.map_eq_some_iff, Prod.exists, Prod.mk.injEq, List.cons.injEq,
            List.cons_append, byteLength]
          constructor
          · rintro ⟨x, y, hcut, ⟨rfl, rfl⟩, rfl⟩
            obtain ⟨htext, hlength⟩ := ih.mp hcut
            exact ⟨⟨rfl, htext⟩, by omega⟩
          · rintro ⟨⟨rfl, htext⟩, hlength⟩
            exact ⟨others, b, ih.mpr ⟨htext, by omega⟩, ⟨rfl, rfl⟩, rfl⟩
        · next hgt =>
          simp only [List.cons_append, List.cons.injEq, byteLength, reduceCtorEq, false_iff]
          rintro ⟨⟨rfl, -⟩, hlength⟩
          omega

/-- A text in three parts, the middle one being the bytes from `first` up to `last`. -/
structure Window where
  before : List Char
  inside : List Char
  after : List Char
  deriving DecidableEq, Repr

/-- The window of a text from one byte position up to another. -/
def window? (text : List Char) (first last : Nat) : Option Window :=
  if first ≤ last then do
    let (before, rest) ← cut? text first
    let (inside, after) ← cut? rest (last - first)
    some ⟨before, inside, after⟩
  else none

/-- A window divides the text at the two positions. -/
theorem window?_eq_some_iff {text : List Char} {first last : Nat} {w : Window} :
    window? text first last = some w ↔
      first ≤ last ∧ text = w.before ++ w.inside ++ w.after ∧
        byteLength w.before = first ∧ byteLength w.inside = last - first := by
  obtain ⟨before, inside, after⟩ := w
  unfold window?
  split
  · next hle =>
    simp only [Option.bind_eq_bind, Option.bind_eq_some_iff, Prod.exists, cut?_eq_some_iff,
      Option.some.injEq, Window.mk.injEq, hle, true_and]
    constructor
    · rintro ⟨x, y, ⟨rfl, hfirst⟩, u, v, ⟨rfl, hlast⟩, rfl, rfl, rfl⟩
      exact ⟨by simp, hfirst, hlast⟩
    · rintro ⟨rfl, hfirst, hlast⟩
      exact ⟨before, inside ++ after, ⟨by simp, hfirst⟩, inside, after, ⟨rfl, hlast⟩, rfl, rfl, rfl⟩
  · next hgt => simp [hgt]

/-- The byte positions just after each newline of a text that starts at byte `offset`. -/
def lineStarts (offset : Nat) : List Char → List Nat
  | [] => []
  | c :: rest =>
    let next := offset + c.utf8Size
    if c = '\n' then next :: lineStarts next rest else lineStarts next rest

theorem lt_of_mem_lineStarts {offset start : Nat} {text : List Char}
    (h : start ∈ lineStarts offset text) : offset < start := by
  induction text generalizing offset with
  | nil => cases h
  | cons c rest ih =>
    have hc := c.utf8Size_pos
    rw [lineStarts] at h
    split at h
    · rcases List.mem_cons.mp h with rfl | h
      · omega
      · have := ih h
        omega
    · have := ih h
      omega

theorem lineStarts_pairwise (offset : Nat) (text : List Char) :
    (lineStarts offset text).Pairwise (· < ·) := by
  induction text generalizing offset with
  | nil => exact .nil
  | cons c rest ih =>
    rw [lineStarts]
    split
    · exact List.pairwise_cons.mpr ⟨fun start hstart => lt_of_mem_lineStarts hstart, ih _⟩
    · exact ih _

def isAscii (text : List Char) : Bool :=
  text.all fun c => c.toNat < 128

end UpgradeAudit.Text
