import ConfigTree.Document.Line

/-!
Reading a document. The document ends at its first NUL, and its lines are read one after the other
and numbered from one. What is found goes to a consumer: the consumer may decline a section, and
then the lines up to the next header are passed over unread. A malformed line stops the reading, and
the consumer keeps what it was given before.
-/

namespace ConfigTree.Document

/-- A receiver with a state of its own. Its answer to a header is whether it takes the section, and
its answer to an assignment whether the assignment counts. -/
structure Consumer (σ : Type) where
  openSection : (path : String) → (line : Nat) → σ → Bool × σ
  assign : (name value : String) → (line : Nat) → σ → Bool × σ

structure Progress (σ : Type) where
  state : σ
  skipping : Bool := false
  count : Nat := 0

def Progress.outcome {σ : Type} (progress : Progress σ) : Option Fault → Except Fault Nat × σ
  | none => (.ok progress.count, progress.state)
  | some fault => (.error fault, progress.state)

namespace Consumer

variable {σ : Type}

def accept (consumer : Consumer σ) (number : Nat) (progress : Progress σ) : Item → Progress σ
  | .nothing => progress
  | .header path =>
    let (taken, state) := consumer.openSection path number progress.state
    { progress with state, skipping := !taken }
  | .assignment name value =>
    let (counts, state) := consumer.assign name value number progress.state
    { progress with state, count := if counts then progress.count + 1 else progress.count }

/-- Reads what is left of a document, beginning with the line of a number. The fault, if there is
one, is that of the first malformed line, and the progress that before it. -/
def scan (consumer : Consumer σ) (number : Nat) (progress : Progress σ) (rest : List UInt8) :
    Progress σ × Option Fault :=
  match _ : skipBlanks rest with
  | [] => (progress, none)
  | first :: tail =>
    match taken : takeLine progress.skipping first tail with
    | .ok (item, left) => consumer.scan (number + 1) (consumer.accept number progress item) left
    | .error expected => (progress, some (.malformed number expected))
termination_by rest.length
decreasing_by exact length_lt_of_takeLine ‹_› taken

def read (consumer : Consumer σ) (octets : List UInt8) (initial : σ) : Except Fault Nat × σ :=
  let (progress, fault) := consumer.scan 1 { state := initial } (octets.takeWhile (· ≠ 0))
  progress.outcome fault

end Consumer

end ConfigTree.Document
