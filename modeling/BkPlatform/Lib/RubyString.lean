import Mathlib.Data.Int.Notation
import Mathlib.Data.List.Basic
import Mathlib.Data.Nat.Notation

/-!
# The Ruby string operations the programs use

Strings are Lean strings; the operations work on their characters.  Case
conversion is Ruby's of the versions the programs run on: it touches ASCII
letters only.

## Main definitions

* `downcase`, `strip`, `isBlank`, `delete`, `lines`, `toI` — the operations.
-/

namespace RubyString

/-- `String#downcase`. -/
def downcase (s : String) : String := String.ofList (s.toList.map Char.toLower)

/-- Nothing but a capital letter is changed. -/
theorem eq_of_toLower {c x : Char} (hx : x.isLower = false) (h : c.toLower = x) : c = x := by
  unfold Char.toLower at h
  split at h
  · next hupper =>
    subst h
    delta Char.isLower at hx
    simp [UInt32.le_iff_toNat_le] at hx hupper
    omega
  · exact h

/-- The characters `[[:space:]]` matches: white space of Unicode, the next line and the no-break
space among it. -/
def isSpace (c : Char) : Bool :=
  c == ' ' || ('\t' ≤ c && c ≤ '\r') || c == '\x85' || c == '\xa0' || c == '\u1680' ||
    ('\u2000' ≤ c && c ≤ '\u200a') || c == '\u2028' || c == '\u2029' || c == '\u202f' ||
    c == '\u205f' || c == '\u3000'

/-- `String#blank?`: nothing but whitespace. -/
def isBlank (s : String) : Bool := s.toList.all isSpace

/-- The characters `String#strip` removes. -/
def isStripped (c : Char) : Bool :=
  c == ' ' || c == '\t' || c == '\n' || c == '\x0b' || c == '\x0c' || c == '\r' || c == '\x00'

/-- `String#strip`: the null character is removed at the end only. -/
def strip (s : String) : String :=
  let front := s.toList.dropWhile fun c => isStripped c && c != '\x00'
  String.ofList (front.reverse.dropWhile isStripped).reverse

/-- The characters without the occurrences of `p`; `skip` more of them belong to one. -/
def deleteFrom (p : List Char) : ℕ → List Char → List Char
  | _, [] => []
  | skip + 1, _ :: cs => deleteFrom p skip cs
  | 0, c :: cs =>
    if p.isPrefixOf (c :: cs) then deleteFrom p (p.length - 1) cs
    else c :: deleteFrom p 0 cs

/-- `gsub(p, '')`, for a `p` that is not empty. -/
def delete (p s : String) : String := String.ofList (deleteFrom p.toList 0 s.toList)

/-- The lines `^` and `$` anchor to: the parts between newlines. -/
def lines (s : String) : List String := (s.toList.splitOn '\n').map String.ofList

/-- The digits at the front; a single underscore may stand between two of them. -/
def leadingDigits (acc : ℕ) (afterDigit : Bool) : List Char → ℕ
  | [] => acc
  | c :: cs =>
    if c.isDigit then leadingDigits (acc * 10 + (c.toNat - '0'.toNat)) true cs
    else if c == '_' && afterDigit then leadingDigits acc false cs
    else acc

/-- `String#to_i`: what can be read as a number at the front, else zero. -/
def toI (s : String) : ℤ :=
  match s.toList.dropWhile fun c => isStripped c && c != '\x00' with
  | '-' :: cs => -(leadingDigits 0 false cs : ℕ)
  | '+' :: cs => (leadingDigits 0 false cs : ℕ)
  | cs => (leadingDigits 0 false cs : ℕ)

end RubyString
