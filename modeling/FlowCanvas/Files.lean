import FlowCanvas.Text.Lines
import FlowCanvas.Value.Literal

namespace FlowCanvas

/-- Where something is: the names from the working directory to it. Only the first ones may be two
dots, and a place outside the working directory may start with a slash instead. -/
abbrev Place := List String

namespace Place

/-- The place around a place. -/
def up (place : Place) : Place :=
  if place.all (· = "..") then place ++ [".."]
  else if place = ["/"] then place
  else place.dropLast

def enter (place : Place) (name : String) : Place :=
  if name = "" ∨ name = "." then place else if name = ".." then place.up else place ++ [name]

def start (name : List Char) : Place :=
  if name.head? = some '/' then ["/"] else []

def namesOf (path : String) : List String :=
  (Text.pieces (· = '/') path.toList).map String.ofList

/-- The place that a written path leads to if all folders on the way are there. -/
def ofText (path : String) : Place :=
  (namesOf path).foldl enter (start path.toList)

def isInside (place : Place) : Bool :=
  place.head?.all fun name => name ≠ "/" && name ≠ ".."

end Place

/-- The names in a written path; an absolute path starts with a slash, or with two. -/
abbrev Path := List String

namespace Path

def roots : List String := ["/", "//"]

/-- The slash that a path starts with, if it is absolute. Just two slashes are kept. -/
def root (name : List Char) : Path :=
  match (name.takeWhile (· = '/')).length with
  | 0 => []
  | 2 => ["//"]
  | _ => ["/"]

def ofText (name : String) : Path :=
  root name.toList ++ (Place.namesOf name).filter fun n => n ≠ "" ∧ n ≠ "."

def text : Path → String
  | [] => "."
  | name :: names =>
    if roots.contains name then name ++ "/".intercalate names else "/".intercalate (name :: names)

def tidy (name : String) : String :=
  (ofText name).text

def parent (path : Path) : Path :=
  if path.length = 1 ∧ path.all roots.contains then path else path.dropLast

/-- A name without and with its extension: what follows the last dot, if that is neither the first
character nor the last. -/
def splitName (name : String) : String × String :=
  match Text.cutAtLast? (· = '.') name.toList with
  | some (stem, extension) =>
    if stem.isEmpty || extension.isEmpty then (name, "")
    else (String.ofList stem, String.ofList ('.' :: extension))
  | none => (name, "")

def stem (path : Path) : String :=
  (splitName (path.getLastD "")).1

def withExtension (extension : String) (path : Path) : Path :=
  path.dropLast ++ [path.stem ++ extension]

end Path

inductive FileFault where
  | notFound
  | notFolder
  | isFolder
  | alreadyThere
  | nameTooLong
  /-- The name holds the character that ends names. -/
  | zeroByte
  deriving DecidableEq, Repr

def FileFault.reason : FileFault → String
  | notFound => "[Errno 2] No such file or directory"
  | notFolder => "[Errno 20] Not a directory"
  | isFolder => "[Errno 21] Is a directory"
  | alreadyThere => "[Errno 17] File exists"
  | nameTooLong => "[Errno 36] File name too long"
  | zeroByte => "embedded null byte"

structure FileError where
  fault : FileFault
  name : String
  deriving DecidableEq, Repr

def FileError.message (e : FileError) : String :=
  if e.fault = .zeroByte then e.fault.reason else e.fault.reason ++ ": " ++ Text.quoted e.name

abbrev Bytes := List UInt8

structure Files where
  contents : List (Place × Bytes)
  /-- The folders that have been made. -/
  made : List Place := []

namespace Files

def isFile (fs : Files) (place : Place) : Bool :=
  fs.contents.any (·.1 = place)

def isFolder (fs : Files) (place : Place) : Bool :=
  place.all (· = "..") || place = ["/"] || fs.made.any (place <+: ·) ||
    fs.contents.any fun f => place <+: f.1 ∧ place ≠ f.1

/-- The longest name and the longest path, in bytes. -/
def longestName : Nat := 255

def longestPath : Nat := 4095

/-- One step on a path. An empty name, as after a slash at the end, stays in the folder. -/
def step (fs : Files) (folder : Place) (name : String) : Except FileFault Place :=
  if fs.isFolder folder then
    if longestName < name.utf8ByteSize then .error .nameTooLong else .ok (folder.enter name)
  else .error (if fs.isFile folder then .notFolder else .notFound)

def follow (fs : Files) (path : String) (names : List String) : Except FileFault Place := do
  if path.toList.contains (Char.ofNat 0) then throw .zeroByte
  if longestPath < path.utf8ByteSize then throw .nameTooLong
  if path.isEmpty then throw .notFound
  names.foldlM fs.step (Place.start path.toList)

def locate (fs : Files) (path : String) : Except FileFault Place :=
  fs.follow path (Place.namesOf path)

inductive Standing where
  | file
  | folder
  | nothing
  deriving DecidableEq, Repr

def standing (fs : Files) (place : Place) : Standing :=
  if fs.isFolder place then .folder else if fs.isFile place then .file else .nothing

/-- What a written path leads to; it may be nothing, but its names must not be too long. -/
def look (fs : Files) (path : String) : Except FileError Standing :=
  match fs.locate path with
  | .ok place => .ok (fs.standing place)
  | .error .nameTooLong => .error ⟨.nameTooLong, path⟩
  | .error _ => .ok .nothing

def read (fs : Files) (path : String) : Except FileError Bytes := do
  let place ← (fs.locate path).mapError (⟨·, path⟩)
  if fs.isFolder place then throw ⟨.isFolder, path⟩
  match fs.contents.lookup place with
  | some bytes => return bytes
  | none => throw ⟨.notFound, path⟩

def set (place : Place) (bytes : Bytes) (fs : Files) : Files :=
  { fs with
    contents :=
      if fs.isFile place then fs.contents.map fun f => if f.1 = place then (place, bytes) else f
      else fs.contents ++ [(place, bytes)] }

/-- The place of a file that may be made. A slash at the end makes it a folder, whether it is there
or not. -/
def placeFor (fs : Files) (path : String) : Except FileFault Place := do
  let names := Place.namesOf path
  if names.getLast? = some "" then
    let folder := (names.reverse.dropWhile (· = "")).tail.reverse
    let _ ← fs.follow path (folder ++ [""])
    throw .isFolder
  let place ← fs.follow path names
  if fs.isFolder place then throw .isFolder
  return place

def write (fs : Files) (path : String) (text : String) : Except FileError Files := do
  let place ← (fs.placeFor path).mapError (⟨·, path⟩)
  return fs.set place (Text.Utf8.encode text.toList)

def makeOne (fs : Files) (path : Path) : Except FileFault Files := do
  let place ← fs.locate path.text
  if fs.standing place ≠ .nothing then throw .alreadyThere
  return { fs with made := fs.made ++ [place] }

def makeIfMissing (fs : Files) (path : Path) : Except FileError Files :=
  match fs.makeOne path with
  | .ok fs => .ok fs
  | .error fault => do
    if (← fs.look path.text) = .folder then return fs else throw ⟨fault, path.text⟩

/-- Makes a folder unless it is there, and those on the way to it as far as they are missing. -/
def makeFolder (fs : Files) (path : Path) : Except FileError Files :=
  if fs.makeOne path matches .error .notFound ∧ path.parent.length < path.length then do
    (← fs.makeFolder path.parent).makeIfMissing path
  else fs.makeIfMissing path
termination_by path.length

def names (fs : Files) (folder : Place) : List String :=
  let inside (place : Place) : Option String :=
    if folder <+: place then (place.drop folder.length).head? else none
  ((fs.contents.map (·.1) ++ fs.made).filterMap inside).eraseDups

def changes (before after : Files) : List (Place × Bytes) :=
  after.contents.filter fun f => before.contents.lookup f.1 ≠ some f.2

inductive ReadError where
  | unreachable (error : FileError)
  | undecodable (error : Text.Utf8.DecodeError)
  deriving DecidableEq, Repr

def ReadError.message : ReadError → String
  | unreachable e => e.message
  | undecodable e => e.message

def readText (fs : Files) (path : String) : Except ReadError String := do
  let bytes ← (fs.read path).mapError .unreachable
  let cs ← (Text.Utf8.decode bytes).mapError .undecodable
  return String.ofList (Text.unifyLines cs)

end Files
end FlowCanvas
