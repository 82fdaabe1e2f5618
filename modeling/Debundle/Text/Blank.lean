import Debundle.Text.CharSet

/-!
# Blank characters

White space of Unicode 14, with the four information separators.
-/

namespace Debundle.CharSet

/-- Every white space character. -/
def blanks : CharSet where
  ranges := [
    (9, 13), (28, 32), (133, 133), (160, 160), (5760, 5760), (8192, 8202), (8232, 8233),
    (8239, 8239), (8287, 8287), (12288, 12288)]

end Debundle.CharSet
