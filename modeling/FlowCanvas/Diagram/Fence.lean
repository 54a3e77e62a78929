import FlowCanvas.Text.Lines

namespace FlowCanvas.Diagram
open Text

def fenceMark : List Char := List.replicate 3 (Char.ofNat 0x60)

def isTagChar (c : Char) : Bool :=
  c.isAlphanum || c = '_' || c = '+' || c = '-'

/-- Whether a line is a fence: three backquotes, a tag that may be empty, and nothing else. -/
def isFence (line : List Char) : Bool :=
  let r := trimStart line
  fenceMark.isPrefixOf r &&
    (trimStart ((trimStart (r.drop fenceMark.length)).dropWhile isTagChar)).isEmpty

/-- The lines inside the first fenced block. A single fence is left out; without one all lines
stay. -/
def bodyLines (ls : List (List Char)) : List (List Char) :=
  let before := ls.takeWhile (!isFence ·)
  match ls.dropWhile (!isFence ·) with
  | [] => ls
  | _ :: rest =>
    if rest.any isFence then rest.takeWhile (!isFence ·)
    else before ++ rest

def unwrap (text : String) : String :=
  String.ofList (trim (List.intercalate ['\n'] (bodyLines (tidyLines text.toList))))

end FlowCanvas.Diagram
