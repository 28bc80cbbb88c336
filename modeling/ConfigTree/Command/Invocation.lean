/-!
The command line. There are four commands, and their options may stand among their arguments.
Every switch is given at most once and takes no value; a double hyphen ends the options of a
command. An argument list that fits no command has no invocation.
-/

namespace ConfigTree.Command

inductive Request where
  | check (file : String)
  | list (file : String)
  | get (file : String) (path : String)
  | locate (names directories : List String)
  deriving DecidableEq, Repr

def usage : String :=
  "usage: configtree [-v] check FILE [--json]\n" ++
  "       configtree [-v] show FILE [--json]\n" ++
  "       configtree [-v] get FILE PATH [--json]\n" ++
  "       configtree [-v] locate NAME... --dir DIR... [--json]\n"

structure Invocation where
  request : Request
  json : Bool
  deriving DecidableEq, Repr

structure Arguments where
  positional : List String := []
  directories : List String := []
  json : Bool := false
  verbose : Bool := false
  deriving DecidableEq, Repr

def isOption (argument : String) : Bool :=
  match argument.toList with
  | '-' :: _ :: _ => true
  | _ => false

def isVerbose (argument : String) : Bool :=
  argument == "-v" || argument == "--verbose"

def attachedDirectory? (argument : String) : Option String :=
  ("--dir=".toList.isPrefixOf? argument.toList).map String.ofList

namespace Arguments

def add? (takesDirectories : Bool) (sofar : Arguments) (argument : String) : Option Arguments :=
  if isVerbose argument then
    if sofar.verbose then none else some { sofar with verbose := true }
  else if argument = "--json" then
    if sofar.json then none else some { sofar with json := true }
  else
    match attachedDirectory? argument with
    | some directory =>
      if takesDirectories then
        some { sofar with directories := sofar.directories ++ [directory] }
      else none
    | none =>
      if isOption argument then none
      else some { sofar with positional := sofar.positional ++ [argument] }

/-- Sorts the arguments of a command. Only the search takes directories, and a directory that is
an argument of its own must not look like an option. -/
def collect (takesDirectories : Bool) (sofar : Arguments) : List String → Option Arguments
  | [] => some sofar
  | "--" :: rest => some { sofar with positional := sofar.positional ++ rest }
  | "--dir" :: directory :: rest =>
    if takesDirectories ∧ ¬isOption directory then
      collect takesDirectories { sofar with directories := sofar.directories ++ [directory] } rest
    else none
  | argument :: rest => do
    collect takesDirectories (← sofar.add? takesDirectories argument) rest

end Arguments

/-- The request of a command with its arguments. A file needs a name that is not empty, and a
search needs names and directories. -/
def Request.of? (command : String) (arguments : Arguments) : Option Request :=
  match command, arguments.positional with
  | "check", [file] => if file = "" then none else some (check file)
  | "show", [file] => if file = "" then none else some (list file)
  | "get", [file, path] => if file = "" then none else some (get file path)
  | "locate", name :: names =>
    if arguments.directories = [] then none
    else some (locate (name :: names) arguments.directories)
  | _, _ => none

/-- Reads an argument list. In front of the command only the verbose switch may stand. -/
def Invocation.read? : List String → Option Invocation
  | first :: rest =>
    if isVerbose first then
      match rest with
      | command :: arguments => ofCommand? command arguments
      | [] => none
    else ofCommand? first rest
  | [] => none
where
  ofCommand? (command : String) (arguments : List String) : Option Invocation := do
    let sorted ← Arguments.collect (command == "locate") {} arguments
    let request ← Request.of? command sorted
    return ⟨request, sorted.json⟩

end ConfigTree.Command
