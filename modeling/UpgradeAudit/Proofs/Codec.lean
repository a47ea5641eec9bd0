import Mathlib.Data.List.Nodup
import UpgradeAudit.Json.Decode
import UpgradeAudit.Json.Encode
import UpgradeAudit.Proofs.Traversal
import UpgradeAudit.Proofs.WrittenJson

/-!
# Decoders that undo encoders

A decoder and an encoder of one type are `Faithful` if the decoder gives back every value from the
tree that the encoder makes of it, as long as there is room for the nesting of the type. One law for
each way of building a codec: texts, words, lists, tables, values that may be absent, records, and
records of texts and words alone.
-/

namespace UpgradeAudit.Proofs

open Json

variable {α β γ : Type}

/-- A decoder undoes an encoder of plain trees, given room for so many nested arrays and objects. -/
structure Faithful (decode : Decoder α) (encode : α → Tree) (depth : Nat) : Prop where
  plain : ∀ value, (encode value).Plain
  restores : ∀ value nesting, depth ≤ nesting → decode nesting (encode value) = some value

lemma faithful_of_inner {decode : Decoder α} {encode : α → Tree} {depth : Nat}
    (hplain : ∀ value, (encode value).Plain)
    (hinner : ∀ value inner, depth ≤ inner → decode (inner + 1) (encode value) = some value) :
    Faithful decode encode (depth + 1) where
  plain := hplain
  restores value nesting hnesting := by
    obtain ⟨inner, rfl⟩ : ∃ inner, nesting = inner + 1 := ⟨nesting - 1, by omega⟩
    exact hinner value inner (Nat.le_of_succ_le_succ hnesting)

lemma mapM_map_eq_some (xs : List α) {f : α → β} {g : β → Option γ} {h : α → γ}
    (heach : ∀ x ∈ xs, g (f x) = some (h x)) : (xs.map f).mapM g = some (xs.map h) := by
  induction xs with
  | nil => rfl
  | cons x xs ih =>
    have hx : g (f x) = some (h x) := heach x List.mem_cons_self
    have hxs := ih fun y hy => heach y (List.mem_cons_of_mem x hy)
    rw [List.map_cons, List.mapM_cons, hx, hxs]
    rfl

section Leaves

lemma resolveOnto_chars (read text : List Char) :
    resolveOnto read (text.map Piece.char) = some (read.reverse ++ text) := by
  induction text generalizing read with
  | nil => simp [resolveOnto]
  | cons c text ih => simp [resolveOnto, ih]

@[simp]
lemma resolve_piecesOf (text : String) : resolve (piecesOf text) = some text := by
  simp [resolve, piecesOf, resolveOnto_chars]

lemma faithful_text : Faithful Decode.text Encode.text 0 where
  plain := Tree.Plain.string
  restores text _ _ := resolve_piecesOf text

lemma integer?_ofNat {n : Nat} (h : n ≤ Text.maxWord) :
    (Number.ofNat n).integer? = some (n : Int) := by
  simp [Number.integer?, Number.ofNat, digitsNat_decimal, h]

lemma faithful_word : Faithful Decode.word (fun word => Encode.nat word.toNat) 0 where
  plain word := Tree.Plain.number word.toNat
  restores word nesting _ := by
    have hword : word.toNat ≤ Text.maxWord := Nat.le_of_lt_succ word.toNat_lt
    have hinteger : (Number.ofNat word.toNat).integer? = some (Int.ofNat word.toNat) :=
      integer?_ofNat hword
    simp [Decode.word, Decode.natUpTo, Encode.nat, hinteger, hword]

end Leaves

section Containers

variable {decode : Decoder α} {encode : α → Tree} {depth : Nat}

lemma faithful_list (h : Faithful decode encode depth) :
    Faithful (Decode.list decode) (Encode.list encode) (depth + 1) := by
  apply faithful_of_inner
  · intro values
    apply Tree.Plain.array
    intro item hitem
    obtain ⟨value, -, rfl⟩ := List.mem_map.mp hitem
    exact h.plain value
  · intro values inner hinner
    have hvalues : (values.map encode).mapM (decode inner) = some (values.map id) :=
      mapM_map_eq_some values fun value _ => h.restores value inner hinner
    rwa [List.map_id] at hvalues

lemma membersInto_written (decoder : Tree → Option α) (entries : List (String × α))
    (read : Table α) (h : ∀ entry ∈ entries, decoder (encode entry.2) = some entry.2) :
    Decode.membersInto decoder read (entries.map fun entry => (piecesOf entry.1, encode entry.2)) =
      some (entries.foldl (fun t entry => t.insert entry.1 entry.2) read) := by
  induction entries generalizing read with
  | nil => rfl
  | cons entry entries ih =>
    have hfirst : decoder (encode entry.2) = some entry.2 := h entry List.mem_cons_self
    have hrest := fun t => ih t fun other hother => h other (List.mem_cons_of_mem entry hother)
    simp [Decode.membersInto, hfirst, hrest]

lemma ofList_entries (t : Table α) : Table.ofList t.entries = t := by
  apply Table.ext_get?
  intro key
  rw [get?_ofList]
  cases hlast : t.entries.findRev? (fun entry => entry.1 = key) with
  | none =>
    symm
    rw [Option.map_none, Option.eq_none_iff_forall_ne_some]
    intro value hvalue
    have hno := findRev?_eq_none_iff.mp hlast _ ((Table.mem_entries_iff t).mpr hvalue)
    simp at hno
  | some entry =>
    have hkey : entry.1 = key := by simpa using findRev?_holds hlast
    rw [Option.map_some, ← hkey]
    exact ((Table.mem_entries_iff t).mp (mem_of_findRev? hlast)).symm

lemma faithful_table (h : Faithful decode encode depth) :
    Faithful (Decode.table decode) (Encode.table encode) (depth + 1) := by
  apply faithful_of_inner
  · intro t
    have hmembers : (t.entries.map fun entry => (piecesOf entry.1, encode entry.2)) =
        (t.entries.map fun entry => (entry.1, encode entry.2)).map writtenMember := by
      rw [List.map_map]
      rfl
    rw [Encode.table, hmembers]
    apply Tree.Plain.object
    intro member hmember
    obtain ⟨entry, -, rfl⟩ := List.mem_map.mp hmember
    exact h.plain entry.2
  · intro t inner hinner
    have hmembers := membersInto_written (decode inner) t.entries ∅ fun entry _ =>
      h.restores entry.2 inner hinner
    rw [Encode.table, Decode.table, hmembers]
    exact congrArg some (ofList_entries t)

lemma faithful_nullable (h : Faithful decode encode depth) (hnull : ∀ value, encode value ≠ .null) :
    Faithful (Decode.nullable decode) (Encode.nullable encode) depth where
  plain value := by
    cases value with
    | none => exact Tree.Plain.null
    | some value => exact h.plain value
  restores value nesting hnesting := by
    cases value with
    | none => rfl
    | some value =>
      rw [Encode.nullable, Decode.nullable]
      · rw [h.restores value nesting hnesting]
        rfl
      · exact hnull value

end Containers

section Records

lemma namedMembers?_written (fields : List (String × Tree)) :
    Decode.namedMembers? (fields.map fun field => (piecesOf field.1, field.2)) = some fields := by
  have hnames : Decode.namedMembers? (fields.map fun field => (piecesOf field.1, field.2)) =
      some (fields.map id) := mapM_map_eq_some fields fun field _ => by simp
  rwa [List.map_id] at hnames

lemma field?_of_mem {members : List (String × Tree)} (hnodup : (members.map Prod.fst).Nodup)
    {member : String × Tree} (h : member ∈ members) :
    Decode.field? members member.1 = some (some member.2) := by
  have hfilter : members.filter (fun other => other.1 = member.1) = [member] := by
    induction members with
    | nil => cases h
    | cons first rest ih =>
      obtain ⟨hfirst, hrest⟩ := List.nodup_cons.mp hnodup
      rcases List.mem_cons.mp h with rfl | h
      · have hnone : rest.filter (fun other => other.1 = member.1) = [] := by
          rw [List.filter_eq_nil_iff]
          intro other hother heq
          have hname : other.1 = member.1 := by simpa using heq
          exact hfirst (hname ▸ List.mem_map_of_mem hother)
        simp [hnone]
      · have hne : first.1 ≠ member.1 := fun heq => hfirst (heq ▸ List.mem_map_of_mem h)
        simp [hne, ih hrest h]
  rw [Decode.field?, hfilter]

lemma fields?_record (fields : List (String × Tree)) (h : (fields.map Prod.fst).Nodup) :
    Decode.fields? (fields.map Prod.fst) (Encode.record fields) =
      some (fields.map fun field => some field.2) := by
  have hfields : (fields.map Prod.fst).mapM (Decode.field? fields) =
      some (fields.map fun field => some field.2) :=
    mapM_map_eq_some fields fun field hfield => field?_of_mem h hfield
  rw [Encode.record, Decode.fields?, namedMembers?_written]
  exact hfields

lemma plain_record {fields : List (String × Tree)} (h : ∀ field ∈ fields, field.2.Plain) :
    (Encode.record fields).Plain :=
  Tree.Plain.object h

lemma faithful_record {names : List String} {make : Nat → List (Option Tree) → Option α}
    {fields : α → List (String × Tree)} {depth : Nat}
    (hnames : ∀ value, (fields value).map Prod.fst = names) (hnodup : names.Nodup)
    (hplain : ∀ value, ∀ field ∈ fields value, field.2.Plain)
    (hmake : ∀ value nesting, depth ≤ nesting →
      make nesting ((fields value).map fun field => some field.2) = some value) :
    Faithful (Decode.record names make) (fun value => Encode.record (fields value))
      (depth + 1) := by
  apply faithful_of_inner
  · intro value
    exact plain_record (hplain value)
  · intro value inner hinner
    have hfields := fields?_record (fields value) (hnames value ▸ hnodup)
    rw [hnames value] at hfields
    rw [Decode.record, hfields, Option.bind_some]
    exact hmake value inner hinner

/-- A field of a record that is a text or a word. -/
inductive Leaf where
  | text (value : String)
  | word (value : UInt64)

def Leaf.encode : Leaf → Tree
  | .text value => Encode.text value
  | .word value => Encode.nat value.toNat

lemma plain_leaf (leaf : Leaf) : leaf.encode.Plain := by
  cases leaf with
  | text value => exact faithful_text.plain value
  | word value => exact faithful_word.plain value

@[simp]
lemma required_text (nesting : Nat) (value : String) :
    Decode.required Decode.text nesting (some (Leaf.text value).encode) = some value :=
  faithful_text.restores value nesting (Nat.zero_le nesting)

@[simp]
lemma required_word (nesting : Nat) (value : UInt64) :
    Decode.required Decode.word nesting (some (Leaf.word value).encode) = some value :=
  faithful_word.restores value nesting (Nat.zero_le nesting)

lemma faithful_leaves {names : List String} {make : Nat → List (Option Tree) → Option α}
    (leaves : α → List (String × Leaf)) (hnames : ∀ value, (leaves value).map Prod.fst = names)
    (hnodup : names.Nodup)
    (hmake : ∀ value nesting,
      make nesting ((leaves value).map fun leaf => some leaf.2.encode) = some value) :
    Faithful (Decode.record names make)
      (fun value => Encode.record ((leaves value).map fun leaf => (leaf.1, leaf.2.encode))) 1 := by
  apply faithful_record
  · intro value
    rw [List.map_map, ← hnames value]
    rfl
  · exact hnodup
  · intro value field hfield
    obtain ⟨leaf, -, rfl⟩ := List.mem_map.mp hfield
    exact plain_leaf leaf.2
  · intro value nesting _
    rw [List.map_map]
    exact hmake value nesting

end Records

end UpgradeAudit.Proofs
