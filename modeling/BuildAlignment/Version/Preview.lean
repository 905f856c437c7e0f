import BuildAlignment.Error
import BuildAlignment.Text.Blank
import BuildAlignment.Version.Suffix

/-!
# Previewing the next version

* `Version.preview` is the version that an alignment would give next, for a suffix and a padding
  that are checked first.
-/

namespace BuildAlignment.Version

/-- The next version. The suffix must say something, and the padding is limited. -/
def preview (version suffix : String) (padding : Nat) : Except AlignmentError String :=
  if Text.isBlank suffix then .error (.configuration .emptySuffix)
  else if padding = 0 ∨ padding > maxPadding then
    .error (.configuration (.paddingRefused maxPadding))
  else .ok (nextVersion version [] suffix padding)

end BuildAlignment.Version
