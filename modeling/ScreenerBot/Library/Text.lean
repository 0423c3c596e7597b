import Mathlib.Data.List.DropRight
import Mathlib.Data.List.Infix
import Mathlib.Data.Rat.Floor

/-! Text as a program reads and writes it. -/
namespace ScreenerBot.Library

/-- `char::is_whitespace`. -/
def isWhitespace (c : Char) : Bool :=
  (decide (9 ≤ c.val) && decide (c.val ≤ 13)) ||
  (decide (0x2000 ≤ c.val) && decide (c.val ≤ 0x200a)) ||
    [0x20, 0x85, 0xa0, 0x1680, 0x2028, 0x2029, 0x202f, 0x205f, 0x3000].contains c.val

/-- Whether `text` contains `pattern`. -/
def contains (text pattern : String) : Bool := decide (pattern.toList <:+: text.toList)

/-- `str::starts_with`. -/
def startsWith (text pattern : String) : Bool := pattern.toList.isPrefixOf text.toList

/-- `str::trim`. -/
def trim (text : String) : String :=
  String.ofList ((text.toList.dropWhile isWhitespace).rdropWhile isWhitespace)

/-- `str::eq_ignore_ascii_case`. -/
def eqIgnoreAsciiCase (a b : String) : Bool := a.toLower == b.toLower

/-- `n / 10 ^ digits` in decimal notation, without trailing zeros. -/
def decimal (n digits : ℕ) : String :=
  let fraction := toString (n % 10 ^ digits)
  let padded := (List.replicate (digits - fraction.length) '0' ++ fraction.toList).rdropWhile
    (· == '0')
  toString (n / 10 ^ digits) ++ (if padded.isEmpty then "" else "." ++ String.ofList padded)

/-- The nearest natural number, the even one of two. -/
def roundHalfEven (value : ℚ) : ℕ :=
  let below := ⌊value⌋.toNat
  let rest := value - below
  if rest < 1 / 2 then below
  else if 1 / 2 < rest then below + 1
  else if below % 2 = 0 then below else below + 1

/-- `format!("{value:.digits$}")` for a positive number of digits. -/
def fixed (value : ℚ) (digits : ℕ) : String :=
  let scaled := roundHalfEven (|value| * 10 ^ digits)
  let fraction := toString (scaled % 10 ^ digits)
  let padded := List.replicate (digits - fraction.length) '0' ++ fraction.toList
  (if value < 0 then "-" else "") ++ toString (scaled / 10 ^ digits) ++ "." ++ String.ofList padded

example : fixed (-(20000001 / 1000000)) 4 = "-20.0000" := by decide +kernel

end ScreenerBot.Library
