import MetricLayer.Text.Case
import MetricLayer.Text.Blank

/-!
# Pieces of a text

Splitting at characters, joining with a separator, and the label of a name.
-/

namespace MetricLayer.Text

/-- The pieces of a text between the characters of a class, empty ones included. -/
def splitAll (p : Char → Bool) : List Char → List (List Char)
  | [] => [[]]
  | c :: cs =>
    if p c then [] :: splitAll p cs
    else match splitAll p cs with
      | [] => [[c]]
      | piece :: pieces => (c :: piece) :: pieces

/-- The pieces of a text between two occurrences of a character, empty ones included. -/
def splitOn (sep : Char) (cs : List Char) : List (List Char) :=
  splitAll (· == sep) cs

/-- The runs of characters that are not white space. -/
def words (cs : List Char) : List (List Char) :=
  (splitAll isBlank cs).filter (!·.isEmpty)

/-- The texts with a separator between two of them. -/
def joinWith (sep : String) (parts : List String) : String :=
  String.ofList (List.intercalate sep.toList (parts.map String.toList))

@[simp] theorem toList_joinWith (sep : String) (parts : List String) :
    (joinWith sep parts).toList = List.intercalate sep.toList (parts.map String.toList) := by
  simp [joinWith]

/-- The label of a name: underscores are spaces, and every word is capitalized. -/
def label (name : String) : String :=
  joinWith " " ((words (name.toList.map fun c => if c = '_' then ' ' else c)).map fun w =>
    String.ofList (capitalize w))

end MetricLayer.Text
