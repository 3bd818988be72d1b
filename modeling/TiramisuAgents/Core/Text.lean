import Mathlib.Data.List.DropRight
import Mathlib.Data.String.Basic
import Mathlib.Tactic

/-!
The text operations of the source: `str.strip`.
-/

namespace TiramisuAgents

/-- The characters `str.strip` removes. -/
def isWhitespace (c : Char) : Bool :=
  (9 ≤ c.toNat ∧ c.toNat ≤ 13) ∨ (28 ≤ c.toNat ∧ c.toNat ≤ 32) ∨ c.toNat = 0x85 ∨ c.toNat = 0xa0 ∨
    c.toNat = 0x1680 ∨ (0x2000 ≤ c.toNat ∧ c.toNat ≤ 0x200a) ∨ c.toNat = 0x2028 ∨
    c.toNat = 0x2029 ∨ c.toNat = 0x202f ∨ c.toNat = 0x205f ∨ c.toNat = 0x3000

/-- `str.strip`. -/
def strip (text : String) : String :=
  .ofList ((text.toList.dropWhile isWhitespace).reverse.dropWhile isWhitespace).reverse

/-- A stripped text stays as it is. -/
lemma strip_strip (text : String) : strip (strip text) = strip text := by
  have hstrip (text : String) : strip text =
      .ofList ((text.toList.dropWhile isWhitespace).rdropWhile isWhitespace) := rfl
  have hfirst : ((text.toList.dropWhile isWhitespace).rdropWhile isWhitespace).dropWhile
      isWhitespace = (text.toList.dropWhile isWhitespace).rdropWhile isWhitespace := by
    obtain ⟨rest, hrest⟩ := List.rdropWhile_prefix isWhitespace
      (l := text.toList.dropWhile isWhitespace)
    generalize (text.toList.dropWhile isWhitespace).rdropWhile isWhitespace = stripped at hrest
    cases stripped with
    | nil => rfl
    | cons c stripped =>
        have hhead := List.head?_dropWhile_not isWhitespace text.toList
        rw [← hrest] at hhead
        exact List.dropWhile_cons_of_neg (by rw [hhead]; exact Bool.false_ne_true)
  rw [hstrip (strip text), hstrip text, String.toList_ofList, hfirst, List.rdropWhile_idempotent]

end TiramisuAgents
