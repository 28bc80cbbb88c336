/-!
Digits of natural numbers in the radixes up to sixteen. Reading takes both cases of the letter
digits; writing gives lower case unless upper case is asked for.
-/

namespace ConfigTree.Number

def hexDigit? (c : Char) : Option Nat :=
  if '0' ≤ c ∧ c ≤ '9' then some (c.toNat - '0'.toNat)
  else if 'a' ≤ c ∧ c ≤ 'f' then some (c.toNat - 'a'.toNat + 10)
  else if 'A' ≤ c ∧ c ≤ 'F' then some (c.toNat - 'A'.toNat + 10)
  else none

def digit? (radix : Nat) (c : Char) : Option Nat :=
  (hexDigit? c).filter (· < radix)

def leadingDigits (radix : Nat) : List Char → List Nat
  | [] => []
  | c :: rest =>
    match digit? radix c with
    | some d => d :: leadingDigits radix rest
    | none => []

/-- The number that a list of digits denotes, the most significant digit first. -/
def ofDigits (radix : Nat) (digits : List Nat) : Nat :=
  digits.foldl (fun n d => n * radix + d) 0

def digits (radix n : Nat) : List Char :=
  Nat.toDigits radix n

def zeroPadded (length : Nat) (text : List Char) : List Char :=
  List.replicate (length - text.length) '0' ++ text

def upperHex (length n : Nat) : List Char :=
  zeroPadded length ((digits 16 n).map Char.toUpper)

theorem digit?_lt {radix : Nat} {c : Char} {d : Nat} (found : digit? radix c = some d) :
    d < radix := by
  have kept := Option.filter_eq_some_iff.mp found
  simpa using kept.2

theorem leadingDigits_lt (radix : Nat) (text : List Char) :
    ∀ d ∈ leadingDigits radix text, d < radix := by
  induction text with
  | nil => simp [leadingDigits]
  | cons c rest ih =>
    unfold leadingDigits
    split
    next d found =>
      intro e member
      rcases List.mem_cons.mp member with rfl | later
      · exact digit?_lt found
      · exact ih e later
    next => simp

end ConfigTree.Number
