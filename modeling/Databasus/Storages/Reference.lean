import Databasus.Common

/-
  References to files that a storage holds.

  Main declarations:
    * `StoredFileReference`
-/

namespace Databasus

namespace Storages

/- A file of a storage, by the name it was written under. -/
structure StoredFileReference where
  storageID : Uuid
  fileName : String
deriving DecidableEq, Repr

end Storages

end Databasus
