/-! Blank characters: the Unicode property `White_Space`, and trimming by it. -/

namespace Quorum.Text

/-- The code points with the property `White_Space`. -/
def Blank (character : Char) : Prop :=
  let code := character.toNat
  (9 ≤ code ∧ code ≤ 13) ∨ code = 0x20 ∨ code = 0x85 ∨ code = 0xa0 ∨ code = 0x1680 ∨
    (0x2000 ≤ code ∧ code ≤ 0x200a) ∨ code = 0x2028 ∨ code = 0x2029 ∨ code = 0x202f ∨
    code = 0x205f ∨ code = 0x3000

instance (character : Char) : Decidable (Blank character) :=
  inferInstanceAs (Decidable (_ ∨ _))

/-- Characters without the blank ones at both ends. -/
def trimBlank (characters : List Char) : List Char :=
  let rest := characters.dropWhile (fun character => decide (Blank character))
  (rest.reverse.dropWhile (fun character => decide (Blank character))).reverse

/-- A text without the blank characters at its ends. -/
def trim (text : String) : String :=
  String.ofList (trimBlank text.toList)

end Quorum.Text
