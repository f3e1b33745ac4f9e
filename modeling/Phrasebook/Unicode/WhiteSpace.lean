import Phrasebook.Unicode.Ranges

/-! White space in the sense of the Unicode property `White_Space`. -/

namespace Phrasebook.Unicode

def whiteSpace : Ranges :=
  [(0x9, 0xD), (0x20, 0x20), (0x85, 0x85), (0xA0, 0xA0), (0x1680, 0x1680), (0x2000, 0x200A),
   (0x2028, 0x2029), (0x202F, 0x202F), (0x205F, 0x205F), (0x3000, 0x3000)]

def isWhiteSpace (c : Char) : Bool :=
  whiteSpace.contains c

@[simp] theorem isWhiteSpace_space : isWhiteSpace ' ' = true := by decide

@[simp] theorem isWhiteSpace_of_visible {c : Char} (low : 0x21 ≤ c.toNat) (high : c.toNat ≤ 0x7E) :
    isWhiteSpace c = false := by
  simp [isWhiteSpace, whiteSpace, Ranges.contains]
  omega

end Phrasebook.Unicode
