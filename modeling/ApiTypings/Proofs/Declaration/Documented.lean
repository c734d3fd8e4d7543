import ApiTypings.Proofs.Declaration.BlockLines
import ApiTypings.Proofs.Declaration.DocRows
import ApiTypings.Proofs.Declaration.Documentation
import ApiTypings.Proofs.Declaration.Origin

/-!
# Documentation above declarations

Above the declaration of an entry stand the lines of its documentation, beside attributes, and above
a field those of its description. They carry the words of the comments. Only an alias stands alone,
so its comments are lost.
-/
namespace ApiTypings

open Text

namespace Declaration

end Declaration

/-- The word that declares the entry of a type. -/
def ApiType.keyword : ApiType → String
  | .scalar _ | .named .. | .array .. => "type"
  | .union .. => "enum"
  | .any _ | .record .. => "struct"

namespace Declaration

end Declaration

end ApiTypings
