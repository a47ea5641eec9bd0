import UpgradeAudit.Text.Search

/-!
# Type identifiers of storage variables

The compiler marks a type identifier by the place a reference points to. A variable in storage and a
pointer into storage have the same layout, so layouts name types without the pointer mark.
-/

namespace UpgradeAudit.Storage

/-- The mark of a pointer into storage. -/
def storagePointer : List Char := "_storage_ptr".toList

/-- The mark of a value in storage. -/
def storageValue : List Char := "_storage".toList

/-- The mark of any other pointer, at the end of an identifier. -/
def pointer : List Char := "_ptr".toList

/-- The type identifier without pointer marks. -/
def normalizeType (identifier : String) : String :=
  String.ofList <|
    Text.dropTail pointer (Text.replaceAll storagePointer storageValue identifier.toList)

end UpgradeAudit.Storage
