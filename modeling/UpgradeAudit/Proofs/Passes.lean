import UpgradeAudit.Proofs.Compilation

/-!
# The passes of a validation

One statement for each step: what it takes for the step to succeed, and what it then gives. A
validation registers the compiled contracts, reads the definitions, names their references and
completes the records; each pass is followed here from the items it goes over.
-/

namespace UpgradeAudit.Proofs

open Compiler (Output)
open Validation

variable {config : Config} {locate : Locator} {output : Output}

lemma orMissing_eq_ok_iff {α : Type} {node : Node} {key : String} {found : Option α} {value : α} :
    Node.orMissing node key found = .ok value ↔ found = some value := by
  cases found <;> simp [Node.orMissing]

/-- The fingerprint of a bytecode, which an empty one does not have. -/
def versionOf? (bytecode : Bytecode) : Option Fingerprint :=
  if bytecode.object = "" then none else some (Fingerprint.of bytecode.object)

lemma registered_eq_ok_iff {name : String} {bytecode : Bytecode} {record : ContractRecord} :
    registered name bytecode = .ok record ↔
      ∃ references, Link.extract name bytecode = .ok references ∧
        record = { version := versionOf? bytecode, linkReferences := references } := by
  unfold registered
  rw [bind_eq_ok_iff]
  refine exists_congr fun references => and_congr_right fun _ => ?_
  have hversion : (if bytecode.isEmpty then none else some (Fingerprint.of bytecode.object)) =
      versionOf? bytecode := by
    simp [versionOf?, Bytecode.isEmpty, String.isEmpty_iff]
  simp only [ContractRecord.ofVersion, pure, Except.pure, Except.ok.injEq, hversion]
  exact eq_comm

/-- After registration, a name has the record of the last contract that was compiled under it. -/
lemma get?_register {run : ValidationRun} (h : register output = .ok run) (name : String) :
    ((∀ path, output.contract? path name = none) ∧ run.get? name = none) ∨
      ∃ path contract record, LastCompiled output name path contract ∧
        run.get? name = some record ∧ registered name contract.bytecode = .ok record := by
  obtain ⟨records, hrecords, hrun⟩ := bind_eq_ok_iff.mp h
  obtain rfl := Except.ok.inj hrun
  have hpairs := (mapM_eq_ok_iff.mp hrecords).imp (S := fun item pair =>
      pair.1 = item.2.1 ∧ registered item.2.1 item.2.2.bytecode = .ok pair.2) (by
    rintro ⟨path, key, contract⟩ pair hpair
    obtain ⟨record, hrecord, hpair⟩ := bind_eq_ok_iff.mp hpair
    obtain rfl := Except.ok.inj hpair
    exact ⟨rfl, hrecord⟩)
  have hget : ValidationRun.get? ⟨Table.ofList records⟩ name =
      (records.findRev? fun pair => pair.1 = name).map Prod.snd := get?_ofList records name
  rcases findRev?_forall₂ (p := fun item => decide (item.2.1 = name))
    (q := fun pair => decide (pair.1 = name)) hpairs (fun item pair hpair => by rw [hpair.1])
    with ⟨hnone, hlast⟩ | ⟨item, pair, hitem, hlast, hpair⟩
  · refine .inl ⟨fun path => ?_, by rw [hget, hlast]; rfl⟩
    cases hcontract : output.contract? path name with
    | none => rfl
    | some contract =>
      have hno := findRev?_eq_none_iff.mp hnone _ (mem_compiled_iff.mpr hcontract)
      simp at hno
  · have hname : item.2.1 = name := by simpa using findRev?_holds hitem
    rw [hname] at hpair
    exact .inr ⟨item.1, item.2.2, pair.2, lastCompiled_of_findRev? hitem, by rw [hget, hlast]; rfl,
      hpair.2⟩

/-- The analysis of a definition whose bases are known. -/
def analysisOf (config : Config) (locate : Locator) (id : Int) (node : Node) (bases : List Int)
    (bytecode : Bytecode) : Analysis where
  errors := config.detectors ⟨node, bytecode, locate⟩
  layout := config.layout node locate
  inherit := bases.filter fun base => base ≠ id
  libraries := Library.referenced node

lemma analyse_eq_ok_iff {id : Int} {node : Node} {bytecode : Bytecode} {analysis : Analysis} :
    analyse config locate id node bytecode = .ok analysis ↔
      ∃ bases, Node.bases? node = some bases ∧
        analysis = analysisOf config locate id node bases bytecode := by
  unfold analyse Node.requireBases
  rw [bind_eq_ok_iff]
  refine exists_congr fun bases => ?_
  rw [orMissing_eq_ok_iff]
  refine and_congr_right fun _ => ?_
  simp only [pure, Except.pure, Except.ok.injEq]
  exact eq_comm

lemma define_eq_ok_iff {place : String × Node} {definition : Definition} :
    define config locate output place = .ok definition ↔
      Node.id? place.2 = some definition.id ∧ Node.name? place.2 = some definition.name ∧
        match output.contract? place.1 definition.name with
        | some contract => ∃ bases, Node.bases? place.2 = some bases ∧
            definition.analysis =
              some (analysisOf config locate definition.id place.2 bases contract.bytecode)
        | none => definition.analysis = none := by
  obtain ⟨path, node⟩ := place
  obtain ⟨id, name, analysis⟩ := definition
  unfold define Node.requireId Node.requireName
  simp only [bind_eq_ok_iff, orMissing_eq_ok_iff]
  constructor
  · rintro ⟨_, hid, _, hname, h⟩
    split at h
    · next contract hcontract =>
      obtain ⟨result, hresult, h⟩ := bind_eq_ok_iff.mp h
      obtain ⟨rfl, rfl, rfl⟩ := Definition.mk.inj (Except.ok.inj h)
      obtain ⟨bases, hbases, rfl⟩ := analyse_eq_ok_iff.mp hresult
      refine ⟨hid, hname, ?_⟩
      rw [hcontract]
      exact ⟨bases, hbases, rfl⟩
    · next hcontract =>
      obtain ⟨rfl, rfl, rfl⟩ := Definition.mk.inj (Except.ok.inj h)
      refine ⟨hid, hname, ?_⟩
      rw [hcontract]
  · rintro ⟨hid, hname, h⟩
    refine ⟨id, hid, name, hname, ?_⟩
    cases hcontract : output.contract? path name with
    | none =>
      rw [hcontract] at h
      dsimp only at h
      rw [h]
      rfl
    | some contract =>
      rw [hcontract] at h
      obtain ⟨bases, hbases, rfl⟩ := h
      exact bind_eq_ok_iff.mpr ⟨_, analyse_eq_ok_iff.mpr ⟨bases, hbases, rfl⟩, rfl⟩

abbrev DefinedFrom (config : Config) (locate : Locator) (output : Output)
    (definitions : List Definition) : Prop :=
  List.Forall₂ (fun place definition => define config locate output place = .ok definition)
    (definitionNodes output) definitions

lemma nameOf?_eq {definitions : List Definition} (h : DefinedFrom config locate output definitions)
    (id : Int) : nameOf? definitions id = nameOfNumber? output id := by
  unfold nameOf? nameOfNumber? lastNumbered?
  rw [← List.findRev?_eq_find?_reverse]
  rcases findRev?_forall₂ (p := fun place => decide (Node.id? place.2 = some id))
    (q := fun definition => decide (definition.id = id)) h (fun place definition hdefine => by
      simp [(define_eq_ok_iff.mp hdefine).1])
    with ⟨hplace, hlast⟩ | ⟨place, definition, hplace, hlast, hdefine⟩
  · rw [hplace, hlast]
    rfl
  · rw [hplace, hlast, Option.bind_some, (define_eq_ok_iff.mp hdefine).2.1, Option.map_some]

/-- Numbers, each with the name that it stands for. -/
def Resolves (output : Output) (ids : List Int) (names : List String) : Prop :=
  List.Forall₂ (fun id name => nameOfNumber? output id = some name) ids names

lemma resolve_eq_ok_iff {definitions : List Definition}
    (h : DefinedFrom config locate output definitions) {contract : String} {ids : List Int}
    {names : List String} :
    resolve definitions contract ids = .ok names ↔ Resolves output ids names := by
  unfold resolve Resolves
  rw [mapM_eq_ok_iff]
  constructor
  · refine fun hnames => hnames.imp fun id name hname => ?_
    rw [← nameOf?_eq h]
    split at hname
    · next found hfound => rw [hfound, Except.ok.inj hname]
    · cases hname
  · refine fun hnames => hnames.imp fun id name hname => ?_
    rw [← nameOf?_eq h] at hname
    simp only [hname]

/-- What a completion takes from an analysis: findings and layout as they are, references named. -/
structure Completes (output : Output) (analysis : Analysis) (completion : Completion) : Prop where
  errors : completion.errors = analysis.errors
  layout : completion.layout = analysis.layout
  inherit : Resolves output analysis.inherit completion.inherit
  libraries : Resolves output analysis.libraries completion.libraries

/-- The analyses of definitions, each under the name of its contract. -/
def analyses (definitions : List Definition) : List (String × Analysis) :=
  definitions.filterMap fun definition =>
    definition.analysis.map fun analysis => (definition.name, analysis)

lemma completions_forall₂ {definitions : List Definition}
    (h : DefinedFrom config locate output definitions) {found : List Completion}
    (hfound : completions definitions = .ok found) :
    List.Forall₂ (fun entry completion => completion.name = entry.1 ∧
      Completes output entry.2 completion) (analyses definitions) found := by
  refine (mapM_eq_ok_iff.mp hfound).imp ?_
  rintro ⟨name, analysis⟩ completion hcompletion
  obtain ⟨inherit, hinherit, hcompletion⟩ := bind_eq_ok_iff.mp hcompletion
  obtain ⟨libraries, hlibraries, hcompletion⟩ := bind_eq_ok_iff.mp hcompletion
  obtain rfl := Except.ok.inj hcompletion
  exact ⟨rfl, rfl, rfl, (resolve_eq_ok_iff h).mp hinherit, (resolve_eq_ok_iff h).mp hlibraries⟩

lemma definesCompiled_of_define {place : String × Node} {definition : Definition}
    (h : define config locate output place = .ok definition) (name : String) :
    definesCompiled output name place =
      (definition.analysis.map fun analysis => (definition.name, analysis)).any fun entry =>
        entry.1 = name := by
  obtain ⟨-, hname, hanalysis⟩ := define_eq_ok_iff.mp h
  unfold definesCompiled
  rw [hname]
  by_cases heq : definition.name = name
  · rw [heq] at hanalysis
    cases hcontract : output.contract? place.1 name with
    | none =>
      rw [hcontract] at hanalysis
      simp [show definition.analysis = none from hanalysis]
    | some contract =>
      rw [hcontract] at hanalysis
      obtain ⟨bases, -, hanalysis⟩ := hanalysis
      simp [hanalysis, heq]
  · cases definition.analysis <;> simp [heq]

/-- The last analysis under a name is that of its last definition among the sources that compile it.
-/
lemma lastAnalysis {definitions : List Definition}
    (h : DefinedFrom config locate output definitions) (name : String) :
    (lastDefinition? output name = none ∧
        ((analyses definitions).findRev? fun entry => entry.1 = name) = none) ∨
      ∃ path node contract id bases, lastDefinition? output name = some (path, node) ∧
        output.contract? path name = some contract ∧ Node.id? node = some id ∧
        Node.bases? node = some bases ∧
        ((analyses definitions).findRev? fun entry => entry.1 = name) =
          some (name, analysisOf config locate id node bases contract.bytecode) := by
  unfold analyses
  rw [findRev?_filterMap]
  rcases findRev?_forall₂ h (fun _ _ hdefine => definesCompiled_of_define hdefine name)
    with ⟨hplace, hnone⟩ | ⟨place, definition, hplace, hsome, hdefine⟩
  · exact .inl ⟨hplace, by rw [hnone, Option.bind_none]⟩
  · obtain ⟨hid, hname, hanalysis⟩ := define_eq_ok_iff.mp hdefine
    obtain ⟨-, hname', hcompiled⟩ := mem_of_lastDefinition? hplace
    obtain ⟨contract, hcontract⟩ := Option.isSome_iff_exists.mp hcompiled
    have heq : definition.name = name := Option.some.inj (hname.symm.trans hname')
    rw [heq, hcontract] at hanalysis
    obtain ⟨bases, hbases, hanalysis⟩ := hanalysis
    refine .inr ⟨place.1, place.2, contract, definition.id, bases, hplace, hcontract, hid, hbases,
      ?_⟩
    rw [hsome, Option.bind_some, hanalysis, Option.map_some, heq]

lemma lastCompletion {definitions : List Definition}
    (h : DefinedFrom config locate output definitions) {found : List Completion}
    (hfound : completions definitions = .ok found) (name : String) :
    (lastDefinition? output name = none ∧
        (found.findRev? fun completion => completion.name = name) = none) ∨
      ∃ path node contract id bases completion,
        lastDefinition? output name = some (path, node) ∧
        output.contract? path name = some contract ∧ Node.id? node = some id ∧
        Node.bases? node = some bases ∧
        (found.findRev? fun completion => completion.name = name) = some completion ∧
        Completes output (analysisOf config locate id node bases contract.bytecode) completion := by
  have hlast := findRev?_forall₂ (p := fun entry => decide (entry.1 = name))
    (q := fun completion => decide (completion.name = name)) (completions_forall₂ h hfound)
    (fun entry completion hcompletion => by rw [hcompletion.1])
  rcases lastAnalysis h name with
    ⟨hplace, hnone⟩ | ⟨path, node, contract, id, bases, hplace, hcontract, hid, hbases, hsome⟩
  · rw [hnone] at hlast
    rcases hlast with ⟨-, hlast⟩ | ⟨_, _, hentry, -, -⟩
    · exact .inl ⟨hplace, hlast⟩
    · cases hentry
  · rw [hsome] at hlast
    rcases hlast with ⟨hnone, -⟩ | ⟨entry, completion, hentry, hlast, -, hcompletes⟩
    · cases hnone
    · obtain rfl := Option.some.inj hentry
      exact .inr ⟨path, node, contract, id, bases, completion, hplace, hcontract, hid, hbases,
        hlast, hcompletes⟩

def completed (completion : Completion) (record : ContractRecord) : ContractRecord :=
  { record with
    errors := completion.errors
    layout := completion.layout
    inherit := completion.inherit
    libraries := completion.libraries }

lemma get?_complete (run : ValidationRun) (completion : Completion) (name : String) :
    (complete run completion).get? name =
      if completion.name = name then (run.get? name).map (completed completion)
      else run.get? name := by
  change (run.records.modify completion.name (completed completion)).get? name = _
  rw [Table.get?_modify]
  by_cases h : completion.name = name
  · rw [if_pos h.symm, if_pos h, h]
    rfl
  · rw [if_neg (Ne.symm h), if_neg h]
    rfl

/-- Each completion replaces what an earlier one of the same name has put into the record. -/
lemma get?_foldl_complete (found : List Completion) (run : ValidationRun) (name : String) :
    (found.foldl complete run).get? name =
      match found.findRev? fun completion => completion.name = name with
      | none => run.get? name
      | some completion => (run.get? name).map (completed completion) := by
  induction found using List.reverseRecOn with
  | nil => rfl
  | append_singleton found completion ih =>
    rw [List.foldl_append, List.foldl_cons, List.foldl_nil, get?_complete, ih, findRev?_concat]
    by_cases h : completion.name = name
    · rw [if_pos h, if_pos (by simpa using h)]
      cases found.findRev? fun completion => completion.name = name with
      | none => rfl
      | some earlier => rw [Option.map_map]; rfl
    · rw [if_neg h, if_neg (by simpa using h)]

theorem validate_eq_ok_iff {run : ValidationRun} :
    validate config locate output = .ok run ↔
      ∃ registered definitions found, register output = .ok registered ∧
        DefinedFrom config locate output definitions ∧ completions definitions = .ok found ∧
        run = found.foldl complete registered := by
  unfold validate
  simp only [bind_eq_ok_iff, mapM_eq_ok_iff, pure, Except.pure, Except.ok.injEq]
  constructor
  · rintro ⟨registered, hregister, definitions, hdefinitions, found, hfound, hrun⟩
    exact ⟨registered, definitions, found, hregister, hdefinitions, hfound, hrun.symm⟩
  · rintro ⟨registered, definitions, found, hregister, hdefinitions, hfound, hrun⟩
    exact ⟨registered, hregister, definitions, hdefinitions, found, hfound, hrun.symm⟩

end UpgradeAudit.Proofs
