/-!
Base 64: three bytes as four characters. Zero bits fill up the last group, and equals signs stand
for the characters that it lacks.
-/

namespace Workflow.Text.Base64

def digits : List Char :=
  "ABCDEFGHIJKLMNOPQRSTUVWXYZabcdefghijklmnopqrstuvwxyz0123456789+/".toList

def digit (n : Nat) : Char := digits.getD (n % 64) '='

/-- The four characters for up to three bytes. -/
def encodeGroup (a b c : Nat) : List Char :=
  let n := a * 65536 + b * 256 + c
  [digit (n / 262144), digit (n / 4096), digit (n / 64), digit n]

def encode : List UInt8 → List Char
  | a :: b :: c :: rest => encodeGroup a.toNat b.toNat c.toNat ++ encode rest
  | [a, b] => (encodeGroup a.toNat b.toNat 0).take 3 ++ ['=']
  | [a] => (encodeGroup a.toNat 0 0).take 2 ++ ['=', '=']
  | [] => []

def encodeText (s : String) : String := String.ofList (encode s.toUTF8.toList)

end Workflow.Text.Base64
