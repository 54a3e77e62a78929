import FlowCanvas.Text.Pieces

namespace FlowCanvas

structure Message where
  role : String
  text : String
  deriving DecidableEq, Repr

namespace Prompt

def userRole : String := "user"

def modelRole : String := "model"

def imageSuffix : String := " [Image Attached]"

def systemInstruction : String :=
"
# FlowMind DSL Conversion Prompt

You are an assistant that converts plain human language into **FlowMind DSL**.

Your job:
- Read any messy, casual, incomplete, or informal description of a flow.
- If a history of conversation is provided, use it to understand the context and refinements requested by the user.
- If an image is provided, convert the flowchart, diagram, or sketch it shows into FlowMind DSL.
- Infer missing steps when they are obvious.
- Keep node labels short, clear, and human-readable.
- If unsure about a node type, default to `[process]`.
- Always output **only FlowMind DSL**, nothing else.

## Rules

1. Always start with a document header:
   - `flow`
   - `direction TB` (use `LR` when the user implies a horizontal flow)

2. Supported node types: `[start]`, `[end]`, `[process]`, `[decision]`, `[system]`,
   `[note]`, `[section]`, `[browser]`, `[mobile]`, `[button]`, `[input]`, `[icon]`, `[image]`.

3. Connections:
   - Use `->` for connections
   - Use `->|label|` for decision paths
   - Optional style block: `A -> B \x7b style: dashed \x7d` (straight, curved or dashed)

4. Strict structure:
   - Define all nodes first, then all edges. Never mix them.
   - `[start] A -> [end] B` is INVALID. Write `[start] A`, `[end] B`, then `A -> B`.

5. Use `#` comments only when they add clarity. Do not explain the output.

6. Node ids:
   - Simple labels can be their own id: `[process] Login`.
   - Long labels need an id: `[process] login_step: User enters credentials`.
"

def request (text current : String) : String :=
  let graph :=
    if current.isEmpty then ""
    else "\n\nCURRENT CONTENT (The user wants to update this):\n" ++ current
  "User Request: " ++ text ++ graph ++
    "\n\nGenerate or update the FlowMind DSL based on this request."

def chatRole (role : String) : String :=
  if role = modelRole then "assistant" else "user"

def defaultImageType : String := "image/png"

/-- The type and the encoded data of an image, which comes as a data address or bare. -/
def imageParts (image : String) : String × String :=
  let scheme := "data:image/".toList
  let marker := ";base64,".toList
  let cs := image.toList
  let rest := cs.drop scheme.length
  let kind := rest.takeWhile (· ≠ ';')
  let tail := rest.dropWhile (· ≠ ';')
  if scheme.isPrefixOf cs && !kind.isEmpty && marker.isPrefixOf tail then
    ("image/" ++ String.ofList kind, String.ofList (tail.drop marker.length))
  else (defaultImageType, image)

end Prompt
end FlowCanvas
