import ConfigTree.Kind
import ConfigTree.Text.Quoted

/-!
Everything that can go wrong, as causes; `Fault.message` is the one place that words them.
-/

namespace ConfigTree

inductive StorageFault where
  | missing
  | isDirectory
  | throughFile
  | full
  | other (reason : String)
  deriving DecidableEq, Repr

def StorageFault.message : StorageFault → String
  | missing => "No such file or directory (os error 2)"
  | isDirectory => "Is a directory (os error 21)"
  | throughFile => "Not a directory (os error 20)"
  | full => "failed to write whole buffer"
  | other reason => reason

/-- What a malformed line lacks at the first place where it leaves the grammar. -/
inductive Expectation where
  | letter
  | closingBracket
  | lineEnd
  | equalsSign
  deriving DecidableEq, Repr

def Expectation.text : Expectation → String
  | letter => "alphabetic character"
  | closingBracket => "]"
  | lineEnd => "end of line"
  | equalsSign => "="

/-- The causes of failure. Paths are kept as the caller gave them. -/
inductive Fault where
  | storage (cause : StorageFault)
  | malformed (line : Nat) (expected : Expectation)
  | pathNotFound (path : String)
  | notASection (path : String)
  | notALeaf (path : String)
  | undecodable (kind : Kind) (text : String)
  | unsupported (kind : Kind)
  | kindMismatch (kind : Kind) (label : String)
  deriving DecidableEq, Repr

namespace Fault

def message : Fault → String
  | storage cause => "io: " ++ cause.message
  | malformed line expected => s!"line {line}: expecting {expected.text}"
  | pathNotFound path => "path not found: " ++ path
  | notASection path => "not a section: " ++ path
  | notALeaf path => "not a leaf: " ++ path
  | undecodable kind text =>
    "cannot decode " ++ String.ofList (Text.quote text.toList) ++ " as " ++ kind.name
  | unsupported kind => kind.name ++ " values are not supported"
  | kindMismatch kind label => kind.name ++ " entry cannot hold a " ++ label ++ " value"

end Fault

end ConfigTree
