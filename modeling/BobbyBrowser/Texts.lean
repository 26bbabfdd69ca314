/-
Texts, as the page engine reads them.

A text is the list of its characters. The operations below are the ones of the
standard library that the resolver and the intent engine use on what a page
says: trimming and collapsing white space, comparing without regard to ASCII
case, and looking for one text inside another.
-/
import Mathlib.Algebra.Order.BigOperators.Ring.Finset

set_option autoImplicit false

namespace BobbyBrowser.Texts

/-- The characters of a string. -/
abbrev Text := List Char

/-- `char::is_whitespace`: the code points with the `White_Space` property. -/
def is_whitespace (c : Char) : Bool :=
  let n := c.toNat
  (9 ≤ n && n ≤ 13) || n == 0x20 || n == 0x85 || n == 0xA0 || n == 0x1680
    || (0x2000 ≤ n && n ≤ 0x200A) || n == 0x2028 || n == 0x2029 || n == 0x202F || n == 0x205F
    || n == 0x3000

def trim_end_matches (p : Char → Bool) (text : Text) : Text := (text.reverse.dropWhile p).reverse

def trim (text : Text) : Text := trim_end_matches is_whitespace (text.dropWhile is_whitespace)

def split_whitespace (text : Text) : List Text :=
  (text.splitOnP is_whitespace).filter fun word => !word.isEmpty

/-- `split_whitespace().collect::<Vec<_>>().join(" ")`. -/
def collapsed (text : Text) : Text := [' '].intercalate (split_whitespace text)

def to_ascii_lowercase (text : Text) : Text := text.map Char.toLower

def eq_ignore_ascii_case (left right : Text) : Bool :=
  to_ascii_lowercase left == to_ascii_lowercase right

@[simp] theorem eq_ignore_ascii_case_self (text : Text) : eq_ignore_ascii_case text text = true :=
  beq_self_eq_true _

def contains (text part : Text) : Bool := decide (part <:+: text)

/-- `str::len`: the bytes of the UTF-8 encoding. -/
def len (text : Text) : ℕ := (text.map Char.utf8Size).sum

/-- `str::split_once` at a character. -/
def split_once (c : Char) (text : Text) : Option (Text × Text) :=
  match text.dropWhile (· ≠ c) with
  | [] => none
  | _ :: rest => some (text.takeWhile (· ≠ c), rest)

end BobbyBrowser.Texts
