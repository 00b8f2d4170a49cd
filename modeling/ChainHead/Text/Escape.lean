import ChainHead.Text.Hex

/-!
# Escapes in configured texts

In a text between double quotes a backslash starts an escape: a letter for a common control
character, a quote, a backslash, or the number of a character in four digits after `u` or in eight
after `U`.
-/

namespace ChainHead.Text

/-- The character whose number is written in the first `count` digits, and what follows them. -/
def numbered? (count : Nat) (cs : List Char) : Option (Char × List Char) := do
  let digits ← (cs.take count).mapM Hex.digit?
  let n := digits.foldl (fun total d => 16 * total + d) 0
  if digits.length = count ∧ n.isValidChar then return (Char.ofNat n, cs.drop count) else none

/-- The character that an escape stands for, given what follows the backslash, and the rest. -/
def escaped? : List Char → Option (Char × List Char)
  | 'b' :: rest => some ('\x08', rest)
  | 't' :: rest => some ('\t', rest)
  | 'n' :: rest => some ('\n', rest)
  | 'f' :: rest => some ('\x0c', rest)
  | 'r' :: rest => some ('\r', rest)
  | '"' :: rest => some ('"', rest)
  | '\\' :: rest => some ('\\', rest)
  | 'u' :: rest => numbered? 4 rest
  | 'U' :: rest => numbered? 8 rest
  | _ => none

/-- Whether a character may stand in a configured text as itself: a tab, and everything that is no
control character of ASCII. -/
def isOrdinary (c : Char) : Bool := c = '\t' || (32 ≤ c.toNat && c.toNat ≠ 127)

end ChainHead.Text
