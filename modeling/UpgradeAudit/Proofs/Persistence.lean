import UpgradeAudit.Proofs.Codec
import UpgradeAudit.Validation.Archive

/-!
# A log survives as text

Every part of a log is read back as it was written: fingerprints with both digests, link references,
findings of all kinds, layouts, records, runs and the log itself. A log is nested six deep, well
within what a reader allows.
-/

namespace UpgradeAudit.Proofs

open Json

lemma faithful_fingerprint : Faithful Fingerprint.decode Fingerprint.encode 1 :=
  faithful_leaves
    (fun version : Fingerprint => [("withMetadata", .text version.withMetadata),
      ("withoutMetadata", .text version.withoutMetadata)])
    (fun _ => rfl) (by decide) (by simp)

lemma faithful_linkReference : Faithful LinkReference.decode LinkReference.encode 1 :=
  faithful_leaves
    (fun r : LinkReference => [("src", .text r.src), ("name", .text r.name),
      ("start", .word r.start), ("length", .word r.length), ("placeholder", .text r.placeholder)])
    (fun _ => rfl) (by decide) (by simp)

section Layouts

lemma faithful_storageItem : Faithful StorageItem.decode StorageItem.encode 1 :=
  faithful_leaves
    (fun item : StorageItem => [("contract", .text item.contract), ("label", .text item.label),
      ("type", .text item.type), ("src", .text item.src)])
    (fun _ => rfl) (by decide) (by simp)

lemma faithful_typeItem : Faithful TypeItem.decode TypeItem.encode 1 :=
  faithful_leaves (fun item : TypeItem => [("label", .text item.label)])
    (fun _ => rfl) (by decide) (by simp)

lemma faithful_layout : Faithful StorageLayout.decode StorageLayout.encode 3 := by
  have hstorage := faithful_list faithful_storageItem
  have htypes := faithful_table faithful_typeItem
  unfold StorageLayout.decode StorageLayout.encode
  apply faithful_record
  · intro layout
    rfl
  · decide
  · intro layout
    simp [hstorage.plain, htypes.plain]
  · intro layout nesting hnesting
    simp [Decode.required, hstorage.restores _ nesting hnesting, htypes.restores _ nesting hnesting]

end Layouts

section Findings

lemma ofName?_name (kind : FindingKind) : FindingKind.ofName? kind.name = some kind := by
  cases kind <;> decide

lemma nodup_fieldNames (kind : FindingKind) : ("kind" :: kind.fieldNames).Nodup := by
  cases kind <;> decide

lemma length_fieldValues (finding : Finding) :
    finding.fieldValues.length = finding.kind.fieldNames.length := by
  cases finding <;> rfl

lemma ofFields?_fieldValues (finding : Finding) :
    Finding.ofFields? finding.kind finding.fieldValues = some finding := by
  cases finding <;> rfl

/-- The fields of a finding behind its kind, each with its text. -/
def textFields (finding : Finding) : List (String × String) :=
  finding.kind.fieldNames.zip finding.fieldValues

def writtenText (field : String × String) : String × Tree :=
  (field.1, Encode.text field.2)

lemma encode_eq_record (finding : Finding) :
    finding.encode =
      Encode.record ((("kind", finding.kind.name) :: textFields finding).map writtenText) := by
  simp only [Finding.encode, textFields, List.map_cons, List.zip_map_right]
  rfl

lemma map_fst_textFields (finding : Finding) :
    (textFields finding).map Prod.fst = finding.kind.fieldNames :=
  List.map_fst_zip (Nat.le_of_eq (length_fieldValues finding).symm)

lemma map_snd_textFields (finding : Finding) :
    (textFields finding).map Prod.snd = finding.fieldValues :=
  List.map_snd_zip (Nat.le_of_eq (length_fieldValues finding))

lemma plain_encode (finding : Finding) : finding.encode.Plain := by
  rw [encode_eq_record]
  apply plain_record
  intro field hfield
  obtain ⟨text, -, rfl⟩ := List.mem_map.mp hfield
  exact faithful_text.plain text.2

lemma memberValues?_texts (nesting : Nat) (fields : List (String × String))
    (read : List (String × Value)) :
    ∃ values, memberValues? nesting read ((fields.map writtenText).map writtenMember) =
      some values := by
  induction fields generalizing read with
  | nil => exact ⟨read, rfl⟩
  | cons field fields ih =>
    obtain ⟨values, hvalues⟩ := ih (insertEntry field.1 (.text field.2) read)
    have hfield : (Encode.text field.2).toValue? nesting = some (.text field.2) := by
      simp [Encode.text, Tree.toValue?]
    refine ⟨values, ?_⟩
    rw [← hvalues]
    simp [memberValues?, writtenMember, writtenText, hfield]

lemma exists_free_encode (finding : Finding) (nesting : Nat) :
    ∃ value, Decode.free (nesting + 1) finding.encode = some value := by
  rw [encode_eq_record]
  obtain ⟨values, hvalues⟩ :=
    memberValues?_texts nesting (("kind", finding.kind.name) :: textFields finding) []
  refine ⟨.object values, ?_⟩
  change (memberValues? nesting [] _).map Value.object = _
  exact congrArg (Option.map Value.object) hvalues

lemma parts?_encode (finding : Finding) (nesting : Nat) :
    Finding.parts? nesting finding.encode =
      some (finding.kind, (textFields finding).map fun field => some (Encode.text field.2)) := by
  have hnodup : ((((("kind", finding.kind.name) :: textFields finding).map writtenText).map
      Prod.fst)).Nodup := by
    rw [List.map_map, List.map_cons]
    change ("kind" :: (textFields finding).map Prod.fst).Nodup
    rw [map_fst_textFields]
    exact nodup_fieldNames finding.kind
  have hkind := field?_of_mem hnodup (List.mem_cons_self)
  have hfields : ((textFields finding).map Prod.fst).mapM (Decode.field?
      ((("kind", finding.kind.name) :: textFields finding).map writtenText)) =
        some ((textFields finding).map fun field => some (Encode.text field.2)) := by
    apply mapM_map_eq_some
    intro field hfield
    exact field?_of_mem hnodup
      (List.mem_map_of_mem (f := writtenText) (List.mem_cons_of_mem _ hfield))
  rw [map_fst_textFields] at hfields
  have hname : Decode.text nesting (Encode.text finding.kind.name) = some finding.kind.name :=
    faithful_text.restores _ nesting (Nat.zero_le nesting)
  rw [encode_eq_record, Encode.record, Finding.parts?, namedMembers?_written]
  simp only [writtenText, List.map_cons] at hkind hfields ⊢
  simp [hkind, hfields, hname, Decode.required, ofName?_name]

lemma faithful_finding : Faithful Finding.decode Finding.encode 1 := by
  apply faithful_of_inner
  · exact plain_encode
  · intro finding inner _
    -- all members are read as values first, and then once more as the fields of the kind
    obtain ⟨value, hvalue⟩ := exists_free_encode finding inner
    have htexts : ((textFields finding).map fun field => some (Encode.text field.2)).mapM
        (Decode.required Decode.text inner) = some ((textFields finding).map Prod.snd) := by
      apply mapM_map_eq_some
      intro field _
      exact faithful_text.restores field.2 inner (Nat.zero_le inner)
    rw [map_snd_textFields] at htexts
    simp [Finding.decode, hvalue, parts?_encode, htexts, ofFields?_fieldValues]

end Findings

section Logs

lemma faithful_contractRecord : Faithful ContractRecord.decode ContractRecord.encode 4 := by
  have hversion := faithful_nullable faithful_fingerprint (fun version h => by cases h)
  have hnames := faithful_list faithful_text
  have hlinks := faithful_list faithful_linkReference
  have herrors := faithful_list faithful_finding
  unfold ContractRecord.decode ContractRecord.encode
  apply faithful_record
  · intro record
    rfl
  · decide
  · intro record
    simp [hversion.plain, hnames.plain, hlinks.plain, herrors.plain, faithful_layout.plain]
  · intro record nesting hnesting
    simp [Decode.required, Decode.defaulted, hversion.restores _ nesting (by omega),
      hnames.restores _ nesting (by omega), hlinks.restores _ nesting (by omega),
      herrors.restores _ nesting (by omega), faithful_layout.restores _ nesting hnesting]

lemma faithful_run : Faithful ValidationRun.decode ValidationRun.encode 5 where
  plain run := (faithful_table faithful_contractRecord).plain run.records
  restores run nesting hnesting := by
    have hrecords := (faithful_table faithful_contractRecord).restores run.records nesting hnesting
    rw [ValidationRun.decode, ValidationRun.encode, hrecords]
    rfl

lemma faithful_log : Faithful ValidationLog.decode ValidationLog.encode 6 where
  plain log := (faithful_list faithful_run).plain log.runs
  restores log nesting hnesting := by
    have hruns := (faithful_list faithful_run).restores log.runs nesting hnesting
    rw [ValidationLog.decode, ValidationLog.encode, hruns]
    rfl

end Logs

/-- The text of a log is read as that log: nothing is lost, also not the digests without metadata,
which no comparison of versions looks at. -/
theorem log_survives_as_text (log : ValidationLog) :
    ValidationLog.parse? log.render = some log := by
  have htree : Json.parse? log.render = some log.encode := parse?_render (faithful_log.plain log)
  have hlog : ValidationLog.decode maxNesting log.encode = some log :=
    faithful_log.restores log maxNesting (by decide)
  rw [ValidationLog.parse?, Decoder.parse?, htree, Option.bind_some, hlog]

end UpgradeAudit.Proofs
