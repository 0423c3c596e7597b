import Mathlib

/-! JSON values, read the way a decoder reads them. -/
namespace ScreenerBot.Library

inductive Json where
  | null
  | bool (value : Bool)
  | int (value : ℤ)
  | float (text : String)
  | str (text : String)
  | arr (items : List Json)
  | obj (fields : List (String × Json))

namespace Json

/-- The value of a field, where the value is an object that has it. -/
def get (key : String) : Json → Option Json
  | obj fields => fields.lookup key
  | _ => none

def asStr : Json → Option String
  | str text => some text
  | _ => none

def asU64 : Json → Option ℕ
  | int value => if 0 ≤ value ∧ value < 2 ^ 64 then some value.toNat else none
  | _ => none

def asArray : Json → Option (List Json)
  | arr items => some items
  | _ => none

end Json

/-- The number a text of decimal digits writes, below a bound. -/
def parseBelow (bound : ℕ) (text : String) : Option ℕ :=
  let digits := match text.toList with
    | '+' :: digits => digits
    | digits => digits
  if digits.isEmpty || digits.any (!·.isDigit) then none
  else
    let value := digits.foldl (fun value digit => value * 10 + (digit.toNat - '0'.toNat)) 0
    if value < bound then some value else none

example : parseBelow (2 ^ 64) "1500" = some 1500 := by decide +kernel

/-- A bound decides on a number that another one has let through. -/
theorem parseBelow_of_some {bound bound' n : ℕ} {text : String}
    (h : parseBelow bound text = some n) :
    parseBelow bound' text = if n < bound' then some n else none := by
  obtain ⟨refused, value, hread⟩ : ∃ (refused : Bool) (value : ℕ), ∀ bound,
      parseBelow bound text =
        if refused then none else if value < bound then some value else none :=
    ⟨_, _, fun _ => rfl⟩
  rw [hread] at h ⊢
  split at h
  · exact absurd h (by simp)
  · next hrefused =>
    rw [if_neg hrefused]
    split at h
    · obtain rfl := Option.some.inj h
      rfl
    · exact absurd h (by simp)

theorem parseBelow_minus {bound : ℕ} {text : String} {digits : List Char}
    (h : text.toList = '-' :: digits) : parseBelow bound text = none := by
  simp [parseBelow, h]

end ScreenerBot.Library
