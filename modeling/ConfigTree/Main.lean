import ConfigTree.Command.Run

/-!
The program: the commands over the real file system.
-/

namespace ConfigTree.Command

def storageFault : IO.Error → StorageFault
  | .noFileOrDirectory _ _ _ => .missing
  | .inappropriateType _ code _ => if code = 21 then .isDirectory else .throughFile
  | .permissionDenied _ _ _ => .other "Permission denied (os error 13)"
  | error => .other (toString error)

/-- The access to the real file system. A file is what can be opened and read; opening a directory
succeeds and reading it does not. -/
def Access.system (home : Option String) : Access IO where
  isFile path := do
    match ← (IO.FS.Handle.mk path .read >>= fun handle => handle.read 1).toBaseIO with
    | .ok _ => return true
    | .error _ => return false
  contents path := do
    match ← (IO.FS.readBinFile path).toBaseIO with
    | .ok octets => return .ok octets.toList
    | .error error => return .error (storageFault error)
  home := home

end ConfigTree.Command

open ConfigTree.Command in
def main (arguments : List String) : IO UInt32 := do
  let home := (← IO.getEnv "HOME").filter (· ≠ "")
  let output ← run (Access.system home) arguments
  IO.print output.stdout
  IO.eprint (if output.code = 2 then usage else output.stderr)
  return UInt32.ofNat output.code
