/-!
White space. The separators U+001C to U+001F are blank where text is matched as a duration or read
as a number, but they are not white space in the stricter sense of `isWhite`.
-/

namespace Workflow.Text

/-- White space in the stricter sense. -/
def isWhite (c : Char) : Bool :=
  let n := c.toNat
  (9 ≤ n && n ≤ 13) || n == 32 || n == 0x85 || n == 0xa0 || n == 0x1680 ||
    (0x2000 ≤ n && n ≤ 0x200a) || n == 0x2028 || n == 0x2029 || n == 0x202f || n == 0x205f ||
    n == 0x3000

def isBlank (c : Char) : Bool := isWhite c || (0x1c ≤ c.toNat && c.toNat ≤ 0x1f)

def trimBy (drop : Char → Bool) (cs : List Char) : List Char :=
  ((cs.dropWhile drop).reverse.dropWhile drop).reverse

/-- The parts of `cs` between the separators; there is always one part. -/
def splitOn (separator : Char) : List Char → List (List Char)
  | [] => [[]]
  | c :: cs =>
    if c = separator then [] :: splitOn separator cs
    else match splitOn separator cs with
      | part :: parts => (c :: part) :: parts
      | [] => [[c]]

def join (separator : String) (parts : List String) : String := String.intercalate separator parts

end Workflow.Text
