/-
  How a record and its builder are named.
-/
import InterfaceRecord.QualifiedName
import InterfaceRecord.Settings

namespace InterfaceRecord

/-- Names for records and builders. The record's name may depend on the interface's name, the
texts of its type parameters and the settings. -/
structure NameScheme where
  record : QualifiedName → List String → Settings → String
  builder : String → Settings → String

/-- Names by suffixes: `Point` gives `PointRecord`, and that gives `PointRecordBuilder`. -/
def NameScheme.suffixes : NameScheme where
  record interface _ settings := interface.simple ++ settings.recordSuffix
  builder record settings := record ++ settings.builderSuffix

end InterfaceRecord
