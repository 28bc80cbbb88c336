/-!
Text as octets, and octets as text. Writing a text gives its UTF-8 octets. Reading is lenient: the
octets are taken through the machine of well-formed UTF-8, and each maximal run of octets that
begins a character but does not complete one, like each octet that begins none, is read as the one
character U+FFFD.
-/

namespace ConfigTree.Text.Utf8

def continuation (n : Nat) : UInt8 :=
  UInt8.ofNat (0x80 + n % 64)

def encodeChar (c : Char) : List UInt8 :=
  let n := c.toNat
  if n < 0x80 then [UInt8.ofNat n]
  else if n < 0x800 then [UInt8.ofNat (0xC0 + n / 64), continuation n]
  else if n < 0x10000 then
    [UInt8.ofNat (0xE0 + n / 4096), continuation (n / 64), continuation n]
  else
    [UInt8.ofNat (0xF0 + n / 262144), continuation (n / 4096), continuation (n / 64),
      continuation n]

def encode (text : List Char) : List UInt8 :=
  text.flatMap encodeChar

def replacement : Char := '\uFFFD'

/-- A character that has begun: how many octets it still owes after the next one, the bounds of
the next one, and the bits collected so far. -/
structure Pending where
  owed : Nat
  low : UInt8
  high : UInt8
  bits : Nat
  deriving DecidableEq, Repr

inductive Lead where
  | single (c : Char)
  | begins (pending : Pending)
  | stray
  deriving DecidableEq, Repr

/-- The bounds of the second octet exclude overlong forms, surrogates and code points above
U+10FFFF. -/
def lead (b : UInt8) : Lead :=
  if b < 0x80 then .single (Char.ofNat b.toNat)
  else if b < 0xC2 then .stray
  else if b < 0xE0 then .begins ⟨0, 0x80, 0xBF, b.toNat % 32⟩
  else if b < 0xF0 then
    .begins ⟨1, if b = 0xE0 then 0xA0 else 0x80, if b = 0xED then 0x9F else 0xBF, b.toNat % 16⟩
  else if b < 0xF5 then
    .begins ⟨2, if b = 0xF0 then 0x90 else 0x80, if b = 0xF4 then 0x8F else 0xBF, b.toNat % 8⟩
  else .stray

def Pending.extend (pending : Pending) (b : UInt8) : Nat :=
  pending.bits * 64 + b.toNat % 64

def Pending.next (pending : Pending) (b : UInt8) : Lead :=
  match pending.owed with
  | 0 => .single (Char.ofNat (pending.extend b))
  | owed + 1 => .begins ⟨owed, 0x80, 0xBF, pending.extend b⟩

/-- One octet in a state: the characters it settles, and the state after it. An octet outside the
bounds of a pending character ends that character as malformed and is read afresh. -/
def step (state : Option Pending) (b : UInt8) : List Char × Option Pending :=
  match state with
  | none => settle [] (lead b)
  | some pending =>
    if pending.low ≤ b ∧ b ≤ pending.high then settle [] (pending.next b)
    else settle [replacement] (lead b)
where
  /-- The characters before an octet, followed by what the octet itself settles. -/
  settle (before : List Char) : Lead → List Char × Option Pending
    | .single c => (before ++ [c], none)
    | .begins pending => (before, some pending)
    | .stray => (before ++ [replacement], none)

/-- The characters of the octets that follow a state; a character still pending at the end is
malformed. -/
def decodeFrom : Option Pending → List UInt8 → List Char
  | none, [] => []
  | some _, [] => [replacement]
  | state, b :: rest => (step state b).1 ++ decodeFrom (step state b).2 rest

def decode (octets : List UInt8) : List Char :=
  decodeFrom none octets

theorem encode_cons (c : Char) (text : List Char) :
    encode (c :: text) = encodeChar c ++ encode text := rfl

theorem encode_append (first second : List Char) :
    encode (first ++ second) = encode first ++ encode second := by
  simp [encode]

theorem lead_of_ascii {b : UInt8} (ascii : b < 0x80) :
    lead b = .single (Char.ofNat b.toNat) := by
  simp [lead, ascii]

theorem decode_cons_of_ascii {b : UInt8} (ascii : b < 0x80) (rest : List UInt8) :
    decode (b :: rest) = Char.ofNat b.toNat :: decode rest := by
  simp [decode, decodeFrom, step, step.settle, lead_of_ascii ascii]

end ConfigTree.Text.Utf8
