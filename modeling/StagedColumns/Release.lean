/-!
# Release

The release of the library.
-/

set_option autoImplicit false

namespace StagedColumns

/-- The version of the library. -/
def version : String :=
  "0.1.0"

end StagedColumns
