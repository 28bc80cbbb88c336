import ConfigTree.Fault
import ConfigTree.Text.Blank
import ConfigTree.Text.Utf8

/-!
The lines of a document. A line is empty, a comment, a section header or an assignment, and what it
is shows in its first octet after the blanks. Headers and names are ASCII; the value of an
assignment is the rest of its line, read as UTF-8.

A document is read with a cursor that only moves forward. Every reader takes what is left of the
document from the cursor on, and gives what it has read together with what is left after it.
-/

namespace ConfigTree.Document

def lineFeed : UInt8 := 0x0A

def hash : UInt8 := 0x23

def openBracket : UInt8 := 0x5B

def closeBracket : UInt8 := 0x5D

def equalsSign : UInt8 := 0x3D

def isLetter (b : UInt8) : Bool :=
  (0x41 ≤ b && b ≤ 0x5A) || (0x61 ≤ b && b ≤ 0x7A)

def isAlphanumeric (b : UInt8) : Bool :=
  isLetter b || (0x30 ≤ b && b ≤ 0x39)

/-- The octets of the path in a header: letters, digits, low lines and separators. -/
def isPathOctet (b : UInt8) : Bool :=
  isAlphanumeric b || b == 0x5F || b == 0x2F

/-- The octets of the name in an assignment: letters, digits, points, hyphens and low lines. -/
def isNameOctet (b : UInt8) : Bool :=
  isAlphanumeric b || b == 0x2E || b == 0x2D || b == 0x5F

def skipBlanks (octets : List UInt8) : List UInt8 :=
  octets.dropWhile Text.isLineBlank

def text (octets : List UInt8) : String :=
  String.ofList (Text.Utf8.decode octets)

/-- What a line gives to a reader: nothing, the path of a header, or the name and the value of an
assignment. -/
inductive Item where
  | nothing
  | header (path : String)
  | assignment (name value : String)
  deriving DecidableEq, Repr

def skipLine (rest : List UInt8) : List UInt8 :=
  (rest.dropWhile (· ≠ lineFeed)).drop 1

def takeTrailer (rest : List UInt8) : Except Expectation (List UInt8) :=
  match skipBlanks rest with
  | [] => .ok []
  | next :: after =>
    if next = lineFeed then .ok after
    else if next = hash then .ok (skipLine after)
    else .error .lineEnd

def takeHeader (rest : List UInt8) : Except Expectation (Item × List UInt8) :=
  match skipBlanks rest with
  | [] => .error .letter
  | first :: tail =>
    if isLetter first then
      match skipBlanks (tail.dropWhile isPathOctet) with
      | [] => .error .closingBracket
      | next :: after =>
        if next = closeBracket then
          (takeTrailer after).map fun left =>
            (.header (text (first :: tail.takeWhile isPathOctet)), left)
        else .error .closingBracket
    else .error .letter

def takeAssignment (first : UInt8) (tail : List UInt8) :
    Except Expectation (Item × List UInt8) :=
  if isLetter first then
    match skipBlanks (tail.dropWhile isNameOctet) with
    | [] => .error .equalsSign
    | next :: after =>
      if next = equalsSign then
        let value := skipBlanks after
        let item := .assignment (text (first :: tail.takeWhile isNameOctet))
          (text (value.takeWhile (· ≠ lineFeed)))
        .ok (item, skipLine value)
      else .error .equalsSign
  else .error .letter

/-- Reads a line by its first octet after the blanks. While a section is skipped, only empty lines,
comments and headers are told apart from the rest. -/
def takeLine (skipping : Bool) (first : UInt8) (tail : List UInt8) :
    Except Expectation (Item × List UInt8) :=
  if first = lineFeed then .ok (.nothing, tail)
  else if first = hash then .ok (.nothing, skipLine tail)
  else if first = openBracket then takeHeader tail
  else if skipping then .ok (.nothing, skipLine tail)
  else takeAssignment first tail

theorem isNameOctet_of_isLetter {b : UInt8} (letter : isLetter b = true) :
    isNameOctet b = true := by
  simp [isNameOctet, isAlphanumeric, letter]

theorem length_skipBlanks_le (octets : List UInt8) :
    (skipBlanks octets).length ≤ octets.length :=
  (List.dropWhile_suffix _).length_le

theorem length_skipLine_le (rest : List UInt8) : (skipLine rest).length ≤ rest.length := by
  have dropped := (List.dropWhile_suffix (l := rest) (· ≠ lineFeed)).length_le
  rw [skipLine, List.length_drop]
  omega

theorem length_le_of_takeTrailer {rest left : List UInt8} (taken : takeTrailer rest = .ok left) :
    left.length ≤ rest.length := by
  have bound := length_skipBlanks_le rest
  unfold takeTrailer at taken
  split at taken
  · cases taken
    exact Nat.zero_le _
  next next after skipped =>
    rw [skipped, List.length_cons] at bound
    split at taken
    · cases taken
      omega
    · split at taken
      · cases taken
        have skip := length_skipLine_le after
        omega
      · cases taken

theorem length_le_of_takeHeader {rest left : List UInt8} {item : Item}
    (taken : takeHeader rest = .ok (item, left)) : left.length ≤ rest.length := by
  have bound := length_skipBlanks_le rest
  unfold takeHeader at taken
  split at taken
  · cases taken
  next first tail skipped =>
    rw [skipped, List.length_cons] at bound
    have path := (List.dropWhile_suffix (l := tail) isPathOctet).length_le
    have between := length_skipBlanks_le (tail.dropWhile isPathOctet)
    split at taken
    · split at taken
      · cases taken
      next next after found =>
        rw [found, List.length_cons] at between
        split at taken
        · cases trailer : takeTrailer after with
          | error expected => rw [trailer] at taken; cases taken
          | ok rest =>
            rw [trailer] at taken
            cases taken
            have ending := length_le_of_takeTrailer trailer
            omega
        · cases taken
    · cases taken

theorem length_le_of_takeAssignment {first : UInt8} {tail left : List UInt8} {item : Item}
    (taken : takeAssignment first tail = .ok (item, left)) : left.length ≤ tail.length := by
  have name := (List.dropWhile_suffix (l := tail) isNameOctet).length_le
  have between := length_skipBlanks_le (tail.dropWhile isNameOctet)
  unfold takeAssignment at taken
  split at taken
  · split at taken
    · cases taken
    next next after found =>
      rw [found, List.length_cons] at between
      split at taken
      · cases taken
        have value := length_skipBlanks_le after
        have ending := length_skipLine_le (skipBlanks after)
        omega
      · cases taken
  · cases taken

theorem length_le_of_takeLine {skipping : Bool} {first : UInt8} {tail left : List UInt8}
    {item : Item} (taken : takeLine skipping first tail = .ok (item, left)) :
    left.length ≤ tail.length := by
  have skip := length_skipLine_le tail
  unfold takeLine at taken
  split at taken
  · cases taken
    exact Nat.le_refl _
  split at taken
  · cases taken
    exact skip
  split at taken
  · exact length_le_of_takeHeader taken
  split at taken
  · cases taken
    exact skip
  · exact length_le_of_takeAssignment taken

theorem length_lt_of_takeLine {skipping : Bool} {rest tail left : List UInt8} {first : UInt8}
    {item : Item} (found : skipBlanks rest = first :: tail)
    (taken : takeLine skipping first tail = .ok (item, left)) : left.length < rest.length := by
  have bound := length_skipBlanks_le rest
  have shorter := length_le_of_takeLine taken
  rw [found, List.length_cons] at bound
  omega

end ConfigTree.Document
