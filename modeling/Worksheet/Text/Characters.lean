import Worksheet.Text.Unprintable

/-! # Characters

    Three things are asked of a character beyond ASCII: whether it is blank, whether it can be
    shown as itself, and how it is written between quotes. Properties are kept as ascending lists
    of closed ranges of code points, and a character has the property when its code point lies in
    one of them.
-/

namespace Worksheet.Text

/-! ## Section 1: Ranges of code points -/

/-- Whether the code point of `c` lies in one of the closed ranges. -/
def inRanges (ranges : List (Nat × Nat)) (c : Char) : Bool :=
  ranges.any fun range => range.1 ≤ c.toNat && c.toNat ≤ range.2

theorem inRanges_iff (ranges : List (Nat × Nat)) (c : Char) :
    inRanges ranges c = true ↔ ∃ range ∈ ranges, range.1 ≤ c.toNat ∧ c.toNat ≤ range.2 := by
  simp [inRanges]

/-! ## Section 2: Blank characters

    Blanks separate the tokens of a formula, and they are trimmed before an entry is tried as a
    number. -/

/-- The 25 code points with the Unicode property White_Space. -/
def blankRanges : List (Nat × Nat) :=
  [(0x0009, 0x000D), (0x0020, 0x0020), (0x0085, 0x0085), (0x00A0, 0x00A0), (0x1680, 0x1680),
   (0x2000, 0x200A), (0x2028, 0x2029), (0x202F, 0x202F), (0x205F, 0x205F), (0x3000, 0x3000)]

/-- Whether `c` has the property White_Space. -/
def isBlank (c : Char) : Bool :=
  inRanges blankRanges c

/-- The text without the blanks at its two ends. -/
def trim (text : List Char) : List Char :=
  ((text.dropWhile isBlank).reverse.dropWhile isBlank).reverse

/-! ## Section 3: Characters that a reader can see -/

/-- Whether `c` is a mark that attaches to the character before it. -/
def isExtending (c : Char) : Bool :=
  inRanges extendingRanges c

/-- Whether `c` cannot be shown as itself. The ASCII space is the one separator that can. -/
def isUnprintable (c : Char) : Bool :=
  c ≠ ' ' && (inRanges controlRanges c || inRanges formatRanges c || inRanges privateUseRanges c
    || inRanges separatorRanges c || isExtending c || inRanges fillerRanges c
    || inRanges unassignedRanges c)

/-! ## Section 4: Quoted text

    Messages show a text that may hold anything between double quotes. The quote, the backslash
    and the common control characters are written as a backslash and a letter, every other
    unprintable character as its code point in hexadecimal, and the rest as itself. -/

/-- The letter that stands for `c` behind a backslash, if it has one. -/
def escapeLetter? : Char → Option Char
  | '"' => some '"'
  | '\\' => some '\\'
  | '\n' => some 'n'
  | '\r' => some 'r'
  | '\t' => some 't'
  | '\x00' => some '0'
  | _ => none

/-- A code point in lower-case hexadecimal without padding, as in `\u{a0}`. -/
def codePointEscape (c : Char) : List Char :=
  ['\\', 'u', '\x7b'] ++ Nat.toDigits 16 c.toNat ++ ['\x7d']

/-- How `c` is written inside quotes. -/
def escape (c : Char) : List Char :=
  match escapeLetter? c with
  | some letter => ['\\', letter]
  | none => if isUnprintable c then codePointEscape c else [c]

/-- The text between double quotes. -/
def quoted (text : String) : String :=
  String.ofList ('"' :: text.toList.flatMap escape ++ ['"'])

end Worksheet.Text
