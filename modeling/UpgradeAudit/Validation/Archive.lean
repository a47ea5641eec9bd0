import UpgradeAudit.Json.Writer
import UpgradeAudit.Validation.Record

/-!
# Logs as text

A log is kept between compilations as compact JSON text, which `ValidationLog.render` writes and
`ValidationLog.parse?` reads.
-/

namespace UpgradeAudit

open Json

namespace Fingerprint

def decode : Decoder Fingerprint :=
  Decode.record ["withMetadata", "withoutMetadata"] fun
    | nesting, [withMetadata, withoutMetadata] => do
      return ⟨← Decode.required Decode.text nesting withMetadata,
        ← Decode.required Decode.text nesting withoutMetadata⟩
    | _, _ => none

def encode (version : Fingerprint) : Tree :=
  Encode.record [("withMetadata", Encode.text version.withMetadata),
    ("withoutMetadata", Encode.text version.withoutMetadata)]

end Fingerprint

namespace ContractRecord

/-- Reads a record. A version that is not written is absent. -/
def decode : Decoder ContractRecord :=
  Decode.record ["version", "inherit", "libraries", "linkReferences", "errors", "layout"] fun
    | nesting, [version, inherit, libraries, linkReferences, errors, layout] => do
      return {
        version := ← Decode.defaulted (Decode.nullable Fingerprint.decode) none nesting version
        inherit := ← Decode.required (Decode.list Decode.text) nesting inherit
        libraries := ← Decode.required (Decode.list Decode.text) nesting libraries
        linkReferences :=
          ← Decode.required (Decode.list LinkReference.decode) nesting linkReferences
        errors := ← Decode.required (Decode.list Finding.decode) nesting errors
        layout := ← Decode.required StorageLayout.decode nesting layout }
    | _, _ => none

def encode (record : ContractRecord) : Tree :=
  Encode.record [("version", Encode.nullable Fingerprint.encode record.version),
    ("inherit", Encode.list Encode.text record.inherit),
    ("libraries", Encode.list Encode.text record.libraries),
    ("linkReferences", Encode.list LinkReference.encode record.linkReferences),
    ("errors", Encode.list Finding.encode record.errors),
    ("layout", record.layout.encode)]

end ContractRecord

namespace ValidationRun

def decode : Decoder ValidationRun := fun nesting tree =>
  (Decode.table ContractRecord.decode nesting tree).map ValidationRun.mk

def encode (run : ValidationRun) : Tree :=
  Encode.table ContractRecord.encode run.records

end ValidationRun

namespace ValidationLog

def decode : Decoder ValidationLog := fun nesting tree =>
  (Decode.list ValidationRun.decode nesting tree).map ValidationLog.mk

def encode (log : ValidationLog) : Tree :=
  Encode.list ValidationRun.encode log.runs

def parse? (text : String) : Option ValidationLog :=
  Decoder.parse? decode text

def render (log : ValidationLog) : String :=
  Json.render log.encode

end ValidationLog

end UpgradeAudit
