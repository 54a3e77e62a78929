import FlowCanvas.Canvas.Store
import FlowCanvas.Files
import FlowCanvas.Settings.File

namespace FlowCanvas.Command

/-- What a command is run on and works with, whatever it is. -/
structure Host where
  yaml : Settings.Reader
  /-- How many levels of lists and objects the copy of a value can go into. -/
  copyDepth : Nat

inductive Failure where
  | file (error : Files.ReadError)
  | settings (file : String) (error : Settings.FileError)
  | canvas (file : String) (error : Store.LoadError)
  /-- The canvas cannot be written back. -/
  | save (error : FileError)
  /-- The canvas has more levels than can be copied. -/
  | tooDeep
  /-- The name of the diagram file is given without a value. -/
  | nameless

def Failure.message : Failure → String
  | file error => error.message
  | settings name error => error.message name
  | canvas name error => error.message name
  | save error => error.message
  | tooDeep => "maximum recursion depth exceeded while calling a Python object"
  | nameless => "the diagram file has no name"

/-- Whether a failure is reported. A settings option that is not named by a text, a reader of
settings that breaks down, a number past the doubles, a canvas with too many levels, a diagram file
without a name and all that keeps the canvas from being written back break the command off. -/
def Failure.isReported : Failure → Bool
  | settings _ (.invalid (.unnamedOption _)) | settings _ (.notYaml (.crashed _ _)) => false
  | canvas _ (.invalid .tooLarge) => false
  | canvas _ (.notJson error) => !error.reason.isDepth
  | file _ | settings _ _ | canvas _ _ => true
  | save _ | tooDeep | nameless => false

inductive Ending where
  | exit (code : Nat) (stdout stderr : String) (files : Files)
  | broken (failure : Failure)

namespace Ending

def lines (ls : List String) : String :=
  String.join (ls.map (· ++ "\n"))

def error (message : String) (files : Files) : Ending :=
  .exit 1 "" (lines ["Error: " ++ message]) files

def failed (failure : Failure) (files : Files) : Ending :=
  if failure.isReported then error failure.message files else .broken failure

def usage (text : String) (files : Files) : Ending :=
  .exit 2 "" (lines [text]) files

def helped (text : String) (files : Files) : Ending :=
  .exit 0 (lines [text]) "" files

end Ending

/-- A fault in an unfinished character at the end of a text is placed from the start of that
character, since a settings file is decoded as it is read. -/
def settingsFault : Files.ReadError → Files.ReadError
  | .undecodable e =>
    .undecodable (if e.fault = .unexpectedEnd then { e with position := 0 } else e)
  | e => e

def loadSettings (yaml : Settings.Reader) (files : Files) (name : String) :
    Except Failure Settings := do
  let text ← (files.readText name).mapError fun e => .file (settingsFault e)
  (Settings.ofText yaml text).mapError (.settings name)

def loadCanvas (files : Files) (file : String) : Except Failure Store := do
  let text ← (files.readText (Path.tidy file)).mapError .file
  (Store.load text).mapError (.canvas file)

end FlowCanvas.Command
