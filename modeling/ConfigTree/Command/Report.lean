import ConfigTree.Command.Json
import ConfigTree.Document.Outline

/-!
The reports of the commands, as lines of text and as JSON. They are made from an outline alone, so
they need no declarations.
-/

namespace ConfigTree.Command

def unlines (lines : List String) : String :=
  String.ofList (lines.flatMap fun line => line.toList ++ ['\n'])

def printJson (json : Json) : String :=
  String.ofList (json.pretty 0 ++ ['\n'])

namespace Report

def sectionCounts (outline : Outline) : List (String × Nat) :=
  outline.sections.map fun path => (path, (outline.assignmentsIn path).length)

def passed (file : String) (outline : Outline) : String :=
  unlines <|
    ["path: " ++ file, "status: ok", s!"assignments: {outline.assignments.length}", "sections:"] ++
      (sectionCounts outline).map fun (path, count) => s!"  [{path}]: {count}"

def failed (file : String) (line : Nat) (expected : Expectation) : String :=
  unlines ["path: " ++ file, "status: " ++ (Fault.malformed line expected).message]

def passedJson (file : String) (outline : Outline) : String :=
  printJson <| .object [
    ("path", .string file),
    ("ok", .boolean true),
    ("assignments", .number outline.assignments.length),
    ("sections", .array <| (sectionCounts outline).map fun (path, count) =>
      .object [("path", .string path), ("assignments", .number count)]),
    ("error", .null)]

def failedJson (file : String) (line : Nat) (expected : Expectation) : String :=
  printJson <| .object [
    ("path", .string file),
    ("ok", .boolean false),
    ("assignments", .number 0),
    ("sections", .array []),
    ("error", .object [("line", .number line), ("expected", .string expected.text)])]

def assignmentLines (outline : Outline) (sectionPath : String) : List String :=
  (outline.assignmentsIn sectionPath).map fun assignment =>
    assignment.key ++ " = " ++ assignment.value

/-- All assignments grouped by section, as a document. -/
def listing (outline : Outline) : String :=
  unlines <|
    assignmentLines outline "" ++ outline.sections.flatMap fun path =>
      "" :: ("[" ++ path ++ "]") :: assignmentLines outline path

def listingJson (file : String) (outline : Outline) : String :=
  printJson <| .object [
    ("path", .string file),
    ("headers", .array <| outline.headers.map fun header =>
      .object [("path", .string header.path), ("line", .number header.line)]),
    ("assignments", .array <| outline.assignments.map fun assignment =>
      .object [
        ("section", .string assignment.sectionPath),
        ("key", .string assignment.key),
        ("value", .string assignment.value),
        ("line", .number assignment.line)])]

def value (text : String) : String :=
  unlines [text]

def valueJson (file path text : String) : String :=
  printJson <| .object [("path", .string file), ("key", .string path), ("value", .string text)]

def found (path : String) : String :=
  unlines [path]

def foundJson (path : String) : String :=
  printJson <| .object [("path", .string path)]

end Report

end ConfigTree.Command
