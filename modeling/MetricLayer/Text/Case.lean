import MetricLayer.Text.CaseTable
import MetricLayer.Text.Word

/-!
# Letter case

Lower, upper and title case by the full mappings of Unicode: one character may become several, and
a capital sigma at the end of a word becomes the final sigma.
-/

namespace MetricLayer.Text

/-- The code point a run of a case table moves `n` to. -/
def moveBy? (runs : List (Nat × Nat × Nat × Int)) (n : Nat) : Option Nat :=
  runs.findSome? fun (first, last, step, offset) =>
    if first ≤ n ∧ n ≤ last ∧ (n - first) % step = 0 then some (n + offset).toNat else none

/-- The characters an expansion table replaces `n` by. -/
def expand? (table : List (Nat × List Nat)) (n : Nat) : Option (List Char) :=
  (table.find? fun r => r.1 == n).map fun r => r.2.map Char.ofNat

/-- The lower-case form of a character outside a word. -/
def lowerChar (c : Char) : List Char :=
  if c.toNat < 128 then [c.toLower]
  else if c.toNat = 0x130 then ['i', Char.ofNat 0x307]
  else [((moveBy? lowerRuns c.toNat).map Char.ofNat).getD c]

/-- The upper-case form of a character. -/
def upperChar (c : Char) : List Char :=
  if c.toNat < 128 then [c.toUpper]
  else (expand? upperExpansions c.toNat).getD
    [((moveBy? upperRuns c.toNat).map Char.ofNat).getD c]

/-- The title-case form of a character, which is its upper-case form unless a table says otherwise. -/
def titleChar (c : Char) : List Char :=
  if c.toNat < 128 then [c.toUpper]
  else match expand? titleExpansions c.toNat, moveBy? titleRuns c.toNat with
    | some cs, _ => cs
    | none, some n => [Char.ofNat n]
    | none, none => upperChar c

/-- The first character that is not ignorable has case. -/
def meetsCased (cs : List Char) : Bool :=
  match cs.dropWhile fun c => inRanges ignorableRanges c.toNat with
  | [] => false
  | c :: _ => inRanges casedRanges c.toNat

/-- Lower case of the rest of a text, of which the part before, reversed, is given: a capital sigma
after a cased letter and before none is final. -/
def lowerAfter : List Char → List Char → List Char
  | _, [] => []
  | before, c :: cs =>
    (if c.toNat = 0x3a3 then
      [if meetsCased before && !meetsCased cs then Char.ofNat 0x3c2 else Char.ofNat 0x3c3]
    else lowerChar c) ++ lowerAfter (c :: before) cs

/-- Lower case. -/
def lower (cs : List Char) : List Char :=
  lowerAfter [] cs

/-- Upper case. -/
def upper (cs : List Char) : List Char :=
  cs.flatMap upperChar

/-- The first character in title case and the others in lower case. -/
def capitalize : List Char → List Char
  | [] => []
  | c :: cs => titleChar c ++ lowerAfter [c] cs

/-- Equality that ignores letter case. -/
def sameLower (s t : String) : Bool :=
  lower s.toList == lower t.toList

theorem sameLower_iff {s t : String} : sameLower s t = true ↔ lower s.toList = lower t.toList := by
  simp [sameLower]

end MetricLayer.Text
