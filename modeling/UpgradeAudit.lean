import UpgradeAudit.Table.Lemmas
import UpgradeAudit.Validation.Archive
import UpgradeAudit.Validation.Safety
import UpgradeAudit.Validation.Validate
import UpgradeAudit.Proofs.Compilation
import UpgradeAudit.Proofs.Passes
import UpgradeAudit.Proofs.Linking
import UpgradeAudit.Proofs.Diagnosis
import UpgradeAudit.Proofs.Provenance
import UpgradeAudit.Proofs.Lookup
import UpgradeAudit.Proofs.Unambiguous
import UpgradeAudit.Proofs.Verdict
import UpgradeAudit.Proofs.SelfInheritance
import UpgradeAudit.Proofs.Agreement
import UpgradeAudit.Proofs.Renaming
import UpgradeAudit.Proofs.Spelling
import UpgradeAudit.Proofs.Recognition
import UpgradeAudit.Proofs.MergedLayout
import UpgradeAudit.Proofs.StorageOrder
import UpgradeAudit.Proofs.Extension
import UpgradeAudit.Proofs.FirstMatch
import UpgradeAudit.Proofs.Tolerance
import UpgradeAudit.Proofs.LogGrowth
import UpgradeAudit.Proofs.Codec
import UpgradeAudit.Proofs.Persistence
import UpgradeAudit.Proofs.LibraryNames
import UpgradeAudit.Proofs.Occurrences
import UpgradeAudit.Proofs.SourceOrder
import UpgradeAudit.Proofs.UnlinkedBytes
import UpgradeAudit.Proofs.Normalization
import UpgradeAudit.Proofs.UnsafeConstructs
import UpgradeAudit.Proofs.AddedMembers
import UpgradeAudit.Proofs.Extraction
import UpgradeAudit.Proofs.Unlinking
import UpgradeAudit.Proofs.LastWriter
import UpgradeAudit.Proofs.Noninterference
import UpgradeAudit.Proofs.LineNumbers
import UpgradeAudit.Proofs.UnknownLines
import UpgradeAudit.Proofs.MetadataSection
import UpgradeAudit.Proofs.ReferencedLibraries
import UpgradeAudit.Proofs.PointerMarks
import UpgradeAudit.Proofs.ClosedTypes
import UpgradeAudit.Proofs.LinkedLibraries
import UpgradeAudit.Proofs.StateVariables
import UpgradeAudit.Proofs.SignedLengths
