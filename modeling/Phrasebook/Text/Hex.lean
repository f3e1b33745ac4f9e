namespace Phrasebook.Text

def hexValue? (c : Char) : Option Nat :=
  if c.isDigit then some (c.toNat - '0'.toNat)
  else if 'a' ≤ c ∧ c ≤ 'f' then some (c.toNat - 'a'.toNat + 10)
  else if 'A' ≤ c ∧ c ≤ 'F' then some (c.toNat - 'A'.toNat + 10)
  else none

def isHexDigit (c : Char) : Bool :=
  (hexValue? c).isSome

def hexNumber (digits : List Char) : Nat :=
  digits.foldl (fun n c => 16 * n + (hexValue? c).getD 0) 0

/-- The character of a code point; surrogates and numbers beyond the last code point have none. -/
def scalar? (n : Nat) : Option Char :=
  if h : n.isValidChar then some (Char.ofNatAux n h) else none

/-- Four digits of a number below 65536. -/
def hexQuad (n : Nat) : List Char :=
  [n / 4096 % 16, n / 256 % 16, n / 16 % 16, n % 16].map Nat.digitChar

theorem hexValue?_digitChar : ∀ n < 16, hexValue? (Nat.digitChar n) = some n := by
  decide

theorem isHexDigit_hexQuad (n : Nat) : ∀ c ∈ hexQuad n, isHexDigit c = true := by
  intro c member
  obtain ⟨digit, inQuad, rfl⟩ := List.mem_map.mp member
  have small : digit < 16 := by
    simp only [List.mem_cons, List.not_mem_nil, or_false] at inQuad
    omega
  rw [isHexDigit, hexValue?_digitChar digit small]
  rfl

theorem hexNumber_hexQuad {n : Nat} (small : n < 65536) : hexNumber (hexQuad n) = n := by
  have value : ∀ m, (hexValue? (Nat.digitChar (m % 16))).getD 0 = m % 16 := by
    intro m
    rw [hexValue?_digitChar _ (Nat.mod_lt m (by decide))]
    rfl
  simp only [hexQuad, hexNumber, List.map_cons, List.map_nil, List.foldl_cons, List.foldl_nil,
    value]
  omega

theorem scalar?_toNat (c : Char) : scalar? c.toNat = some c := by
  have valid : c.toNat.isValidChar := c.valid
  rw [scalar?, dif_pos valid]
  rfl

end Phrasebook.Text
