/-!
# Blank and control characters

The Unicode property `White_Space`, the general category `Cc`, and trimming by the first.

* `isBlank`: the characters with the property `White_Space`.
* `isControlCode`: the characters of category `Cc`.
* `trimBlank`, `trimBlankStart`: a list of characters without the blanks at its ends.
* `trim`: a text without the blanks at its ends.
-/

set_option autoImplicit false

namespace Groth16.Text

/-- The character has the Unicode property `White_Space`. -/
def isBlank (c : Char) : Bool :=
  let n := c.toNat
  (9 ≤ n && n ≤ 13) || n == 0x20 || n == 0x85 || n == 0xA0 || n == 0x1680 ||
    (0x2000 ≤ n && n ≤ 0x200A) || n == 0x2028 || n == 0x2029 || n == 0x202F || n == 0x205F ||
    n == 0x3000

/-- The character is of the Unicode general category `Cc`. -/
def isControlCode (c : Char) : Bool := c.toNat < 0x20 || (0x7F ≤ c.toNat && c.toNat ≤ 0x9F)

/-- The text without the blanks at its start. -/
def trimBlankStart (cs : List Char) : List Char := cs.dropWhile isBlank

/-- The text without the blanks at both ends. -/
def trimBlank (cs : List Char) : List Char :=
  (trimBlankStart (trimBlankStart cs).reverse).reverse

/-- The text without the blanks at both ends. -/
def trim (s : String) : String := String.ofList (trimBlank s.toList)

/-- Where there are no blanks, none are cut off. -/
theorem trimBlank_eq {cs : List Char} (h : ∀ c ∈ cs, isBlank c = false) : trimBlank cs = cs := by
  have hstart : ∀ ds : List Char, (∀ c ∈ ds, isBlank c = false) → trimBlankStart ds = ds := by
    intro ds hds
    cases ds with
    | nil => rfl
    | cons d ds => rw [trimBlankStart, List.dropWhile_cons_of_neg (by simp [hds d])]
  rw [trimBlank, hstart cs h, hstart cs.reverse fun c hc => h c (List.mem_reverse.1 hc),
    List.reverse_reverse]

theorem trim_eq {s : String} (h : ∀ c ∈ s.toList, isBlank c = false) : trim s = s := by
  rw [trim, trimBlank_eq h, String.ofList_toList]

end Groth16.Text
