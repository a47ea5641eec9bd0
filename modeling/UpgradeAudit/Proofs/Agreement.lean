import UpgradeAudit.Proofs.Provenance

/-!
# What a record depends on

A record is made from the last contract compiled under its name, from the last definition of the
name among the sources that compile it, and from the names that the numbers in that definition stand
for. Nothing else of an output has any influence on it: an output that agrees on these gives the
same record, whatever its paths and whatever else it holds.
-/

namespace UpgradeAudit.Proofs

open Compiler (Output)
open Validation

variable {config : Config} {locate : Locator} {output output' : Output} {run run' : ValidationRun}
  {name : String} {record : ContractRecord}

/-- All that the record of a name is made from stands in another output too, perhaps under other
paths. -/
structure CarriesOver (output output' : Output) (name : String) : Prop where
  compiled : ∀ path contract, LastCompiled output name path contract →
    ∃ path', LastCompiled output' name path' contract
  defined : ∀ path node, lastDefinition? output name = some (path, node) →
    ∃ path', lastDefinition? output' name = some (path', node) ∧
      output'.contract? path' name = output.contract? path name
  undefined : lastDefinition? output name = none → lastDefinition? output' name = none
  numbers : ∀ id found, nameOfNumber? output id = some found →
    nameOfNumber? output' id = some found

lemma Resolves.unique {ids : List Int} {names names' : List String}
    (h : Resolves output ids names) (h' : Resolves output ids names') : names = names' := by
  have hunique : Relator.RightUnique fun id name => nameOfNumber? output id = some name :=
    fun id first second hfirst hsecond => Option.some.inj (hfirst.symm.trans hsecond)
  exact hunique.forall₂ h h'

lemma CarriesOver.resolves (h : CarriesOver output output' name) {ids : List Int}
    {names : List String} (hnames : Resolves output ids names) : Resolves output' ids names :=
  hnames.imp h.numbers

lemma analysed_unique {path path' : String} {node : Node} {record' : ContractRecord}
    (h : CarriesOver output output' name)
    (hcontract : output'.contract? path' name = output.contract? path name)
    (hrecord : AnalysedAs config locate output name path node record)
    (hrecord' : AnalysedAs config locate output' name path' node record') :
    record'.errors = record.errors ∧ record'.layout = record.layout ∧
      record'.inherit = record.inherit ∧ record'.libraries = record.libraries := by
  obtain ⟨contract, id, bases, hcompiled, hid, hbases, herrors, hlayout, hinherit, hlibraries⟩ :=
    hrecord
  obtain ⟨contract', id', bases', hcompiled', hid', hbases', herrors', hlayout', hinherit',
    hlibraries'⟩ := hrecord'
  rw [hcontract, hcompiled] at hcompiled'
  rw [hid] at hid'
  rw [hbases] at hbases'
  obtain rfl := Option.some.inj hcompiled'
  obtain rfl := Option.some.inj hid'
  obtain rfl := Option.some.inj hbases'
  exact ⟨herrors'.trans herrors.symm, hlayout'.trans hlayout.symm,
    hinherit'.unique (h.resolves hinherit), hlibraries'.unique (h.resolves hlibraries)⟩

/-- Outputs that agree on what the record of a name is made from give it the same record. -/
theorem record_carries_over (h : CarriesOver output output' name)
    (hvalid : validate config locate output = .ok run)
    (hvalid' : validate config locate output' = .ok run') (hrecord : run.get? name = some record) :
    run'.get? name = some record := by
  obtain ⟨path, contract, hlast, hversion, hlinks⟩ := compiled_of_validate hvalid hrecord
  obtain ⟨path', hlast'⟩ := h.compiled path contract hlast
  have hsome : (run'.get? name).isSome :=
    (get?_validate_isSome_iff hvalid' name).mpr ⟨path', by rw [hlast'.compiled]; rfl⟩
  obtain ⟨record', hrecord'⟩ := Option.isSome_iff_exists.mp hsome
  obtain ⟨_, contract', hlast'', hversion', hlinks'⟩ := compiled_of_validate hvalid' hrecord'
  obtain rfl : contract' = contract := hlast''.unique hlast'
  have hreferences : record'.linkReferences = record.linkReferences :=
    Except.ok.inj (hlinks'.symm.trans hlinks)
  have hanalysed : record'.errors = record.errors ∧ record'.layout = record.layout ∧
      record'.inherit = record.inherit ∧ record'.libraries = record.libraries := by
    cases hdefinition : lastDefinition? output name with
    | none =>
      obtain ⟨herrors, hlayout, hinherit, hlibraries⟩ :=
        unanalysed_of_validate hvalid hrecord hdefinition
      obtain ⟨herrors', hlayout', hinherit', hlibraries'⟩ :=
        unanalysed_of_validate hvalid' hrecord' (h.undefined hdefinition)
      exact ⟨herrors'.trans herrors.symm, hlayout'.trans hlayout.symm,
        hinherit'.trans hinherit.symm, hlibraries'.trans hlibraries.symm⟩
    | some place =>
      obtain ⟨path', hdefinition', hcontract⟩ := h.defined place.1 place.2 hdefinition
      exact analysed_unique h hcontract (analysed_of_validate hvalid hrecord hdefinition)
        (analysed_of_validate hvalid' hrecord' hdefinition')
  obtain ⟨herrors, hlayout, hinherit, hlibraries⟩ := hanalysed
  have hrecords : record' = record := by
    rw [ContractRecord.mk.injEq record'.version]
    exact ⟨hversion'.trans hversion.symm, hinherit, hlibraries, hreferences, herrors, hlayout⟩
  rw [hrecord', hrecords]

end UpgradeAudit.Proofs
