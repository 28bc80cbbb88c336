import ConfigTree.Command.Invocation
import ConfigTree.Command.Report
import ConfigTree.Files.Search
import ConfigTree.Files.Store

/-!
Running a command. The files it may look at are given as two actions of some monad, so the same
definition runs on a store and on a real file system.
-/

namespace ConfigTree.Command

structure Access (m : Type → Type) where
  isFile : String → m Bool
  contents : String → m (Except StorageFault (List UInt8))
  home : Option String

def Access.ofStore (store : Store) (home : Option String) : Access Id where
  isFile path := store.isFile path
  contents path := store.contents path
  home := home

structure Output where
  code : Nat
  stdout : String
  stderr : String
  deriving DecidableEq, Repr

namespace Output

def success (text : String) : Output :=
  ⟨0, text, ""⟩

/-- A failure may have printed its report first. -/
def failure (text : String) (fault : Fault) : Output :=
  ⟨1, text, unlines ["error: " ++ fault.message]⟩

def misuse : Output :=
  ⟨2, "", ""⟩

end Output

variable {m : Type → Type} [Monad m]

def readOutline (access : Access m) (file : String) : m (Except Fault Outline) := do
  match ← access.contents file with
  | .ok octets => return Outline.read octets
  | .error cause => return .error (.storage cause)

def firstFile? (access : Access m) : List String → m (Option String)
  | [] => return none
  | path :: rest => do
    if ← access.isFile path then return some path else firstFile? access rest

def runCheck (file : String) (json : Bool) : Except Fault Outline → Output
  | .ok outline =>
    .success (if json then Report.passedJson file outline else Report.passed file outline)
  | .error (.malformed line expected) =>
    .failure
      (if json then Report.failedJson file line expected else Report.failed file line expected)
      (.malformed line expected)
  | .error fault => .failure "" fault

def runList (file : String) (json : Bool) : Except Fault Outline → Output
  | .ok outline =>
    .success (if json then Report.listingJson file outline else Report.listing outline)
  | .error fault => .failure "" fault

def runGet (file path : String) (json : Bool) : Except Fault Outline → Output
  | .ok outline =>
    match outline.get? path with
    | some text => .success (if json then Report.valueJson file path text else Report.value text)
    | none => .failure "" (.pathNotFound path)
  | .error fault => .failure "" fault

def runLocate (names : List String) (json : Bool) : Option String → Output
  | some path => .success (if json then Report.foundJson path else Report.found path)
  | none => .failure "" (.pathNotFound (", ".intercalate names))

def Invocation.run (access : Access m) (invocation : Invocation) : m Output := do
  match invocation.request with
  | .check file => return runCheck file invocation.json (← readOutline access file)
  | .list file => return runList file invocation.json (← readOutline access file)
  | .get file path => return runGet file path invocation.json (← readOutline access file)
  | .locate names directories =>
    let candidates := Search.candidates access.home directories names
    return runLocate names invocation.json (← firstFile? access candidates)

def run (access : Access m) (arguments : List String) : m Output :=
  match Invocation.read? arguments with
  | some invocation => invocation.run access
  | none => return .misuse

end ConfigTree.Command
