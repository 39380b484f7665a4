/-
# The page

A form to paste a text into, with the languages and diagrams to choose from.  It asks for the
drawing and shows it below.
-/
import CodeDiagram.Diagram.Kind

namespace CodeDiagram.Service.Page

/-! ## 1. Choices -/

/-- A character inside HTML text. -/
def escapeChar : Char → List Char
  | '&' => "&amp;".toList
  | '<' => "&lt;".toList
  | '>' => "&gt;".toList
  | '"' => "&quot;".toList
  | '\'' => "&#39;".toList
  | c => [c]

/-- A text inside HTML. -/
def escape (s : String) : String := String.ofList (s.toList.flatMap escapeChar)

/-- One choice: what is sent, and what is shown. -/
def choice (value label : String) : String :=
  "<option value=\"" ++ escape value ++ "\">" ++ escape label ++ "</option>"

/-- The choices of languages. -/
def languages : String :=
  String.join (choice "auto" "Auto-detect" :: Language.all.map fun l => choice l.name l.displayName)

/-- The choices of diagrams. -/
def diagrams : String := String.join (DiagramKind.all.map fun k => choice k.name k.title)

/-! ## 2. The document -/

/-- The lines in front of the choices. -/
def opening : List String :=
  ["<!DOCTYPE html>",
    "<html lang=\"en\">",
    "<head>",
    "<meta charset=\"utf-8\">",
    "<title>codeviz</title>",
    "<style>",
    "body \x7b font-family: sans-serif; margin: 2rem; \x7d",
    "textarea \x7b width: 100%; height: 16rem; font-family: monospace; \x7d",
    "#out \x7b margin-top: 1rem; \x7d",
    "#err \x7b color: #b00020; \x7d",
    "</style>",
    "</head>",
    "<body>",
    "<h1>codeviz</h1>",
    "<form id=\"form\">",
    "<textarea name=\"code\" placeholder=\"Paste Python or Java code\"></textarea>",
    "<p>"]

/-- The lines of the choices. -/
def choices : List String :=
  ["<select name=\"language\">" ++ languages ++ "</select>",
    "<select name=\"diagram_type\">" ++ diagrams ++ "</select>"]

/-- The lines after the choices. -/
def closing : List String :=
  ["<button type=\"submit\">Visualize</button>",
    "</p>",
    "</form>",
    "<div id=\"err\"></div>",
    "<div id=\"out\"></div>",
    "<script>",
    "document.getElementById(\"form\").addEventListener(\"submit\", async (ev) => \x7b",
    "  ev.preventDefault();",
    "  const data = Object.fromEntries(new FormData(ev.target));",
    "  const res = await fetch(\"/api/render\", \x7b",
    "    method: \"POST\",",
    "    headers: \x7b \"Content-Type\": \"application/json\" \x7d,",
    "    body: JSON.stringify(data),",
    "  \x7d);",
    "  const err = document.getElementById(\"err\");",
    "  const out = document.getElementById(\"out\");",
    "  if (res.ok) \x7b",
    "    err.textContent = \"\";",
    "    out.innerHTML = await res.text();",
    "  \x7d else \x7b",
    "    out.innerHTML = \"\";",
    "    err.textContent = (await res.json()).error;",
    "  \x7d",
    "\x7d);",
    "</script>",
    "</body>",
    "</html>"]

/-- The page. -/
def html : String := String.join ((opening ++ choices ++ closing).map (· ++ "\n"))

end CodeDiagram.Service.Page
