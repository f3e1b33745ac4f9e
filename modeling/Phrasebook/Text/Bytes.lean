/-! The length of a text in bytes, as it is stored in UTF-8. -/

namespace Phrasebook.Text

def byteCount : List Char → Nat
  | [] => 0
  | c :: rest => c.utf8Size + byteCount rest

end Phrasebook.Text
