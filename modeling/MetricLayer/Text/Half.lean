/-!
# Halves of pairs of code units

A text written in 16-bit units may hold half of a pair on its own, and no character has the number of
a half.  A half is kept as the character of the last plane whose number ends like it;
`codePoint_unitChar` says that its number can be read off again.
-/

namespace MetricLayer.Text

/-- The number of a half. -/
def isHalf (n : Nat) : Bool :=
  0xd800 ≤ n && n < 0xe000

/-- How far the character that stands for a half is from it. -/
def halfShift : Nat := 0x100000

/-- The character of a code unit. -/
def unitChar (n : Nat) : Char :=
  Char.ofNat (if isHalf n then halfShift + n else n)

/-- The number of a character, or of the half it stands for. -/
def codePoint (c : Char) : Nat :=
  if isHalf (c.toNat - halfShift) then c.toNat - halfShift else c.toNat

/-- The text holds a half. -/
def hasHalf (s : String) : Bool :=
  s.toList.any fun c => isHalf (codePoint c)

theorem toNat_ofNat_of_isValidChar {n : Nat} (h : n.isValidChar) : (Char.ofNat n).toNat = n := by
  rw [Char.ofNat, dif_pos h]
  rfl

theorem codePoint_unitChar {n : Nat} (h : n < 0x10000) : codePoint (unitChar n) = n := by
  by_cases hn : isHalf n
  · have hv : (halfShift + n).isValidChar := by
      simp only [isHalf, Bool.and_eq_true, decide_eq_true_eq] at hn
      simp only [Nat.isValidChar, halfShift]; omega
    simp [codePoint, unitChar, hn, toNat_ofNat_of_isValidChar hv]
  · have hv : n.isValidChar := by
      simp only [isHalf, Bool.and_eq_true, decide_eq_true_eq] at hn
      simp only [Nat.isValidChar]; omega
    have hz : n - halfShift = 0 := by simp only [halfShift]; omega
    simp [codePoint, unitChar, hn, toNat_ofNat_of_isValidChar hv, hz, show isHalf 0 = false from rfl]

end MetricLayer.Text
