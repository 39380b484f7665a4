/-
# Routes

What the web service answers to a request: a page with a form, the style table, and diagrams as
data or as a drawing.  Requests that it cannot make sense of are refused by status alone; a request
that makes sense but cannot be served is told why.
-/
import CodeDiagram.Drawing.Svg
import CodeDiagram.Report.Encoding
import CodeDiagram.Service.Body
import CodeDiagram.Service.MediaType
import CodeDiagram.Service.Page

namespace CodeDiagram.Service

/-! ## 1. Requests and responses -/

/-- A request. -/
structure Request where
  method : String
  /-- The path, perhaps with a query. -/
  target : String
  contentType : Option String := some "application/json"
  body : String := ""

/-- What a response carries. -/
inductive Content where
  | json (v : Json)
  | html (text : String)
  | svg (text : String)
  /-- The reason for a refusal. -/
  | plain
  | nothing

/-- A response. -/
structure Response where
  status : Nat
  content : Content

/-- The media type of what a response carries. -/
def Content.mediaType? : Content → Option String
  | .json _ => some "application/json"
  | .html _ => some "text/html; charset=utf-8"
  | .svg _ => some "image/svg+xml"
  | .plain => some "text/plain; charset=utf-8"
  | .nothing => none

/-- A response that things are well. -/
def ok (content : Content) : Response := ⟨200, content⟩

/-! ## 2. Diagrams -/

/-- Why a body that could be read is not served. -/
inductive BodyFault where
  /-- There is nothing but blanks. -/
  | noCode
  /-- There are more bytes than the settings allow. -/
  | tooLong (limit : Nat)
  | request (e : RequestError)
deriving DecidableEq, Repr

/-- The wording of a fault. -/
def BodyFault.message : BodyFault → String
  | .noCode => "No code provided"
  | .tooLong limit => "Code exceeds the " ++ toString limit ++ " byte limit"
  | .request e => e.message

/-- A fault as a response. -/
def BodyFault.response (f : BodyFault) : Response := ⟨400, .json (.obj [("error", .str f.message)])⟩

/-- The request for a diagram that a body stands for. -/
def validate (server : ServerSettings) (b : Body) : Except BodyFault DiagramRequest := do
  if Text.isBlankText b.code.toList then throw .noCode
  if b.code.utf8ByteSize > server.maxSourceBytes then throw (.tooLong server.maxSourceBytes)
  let language ← (Language.resolve b.code (b.language.getD "auto")).mapError .request
  let diagram ←
    match b.diagram with
    | some name => (DiagramKind.ofName name).mapError .request
    | none => pure .outline
  return { source := b.code, language, diagram, maxDepth := b.maxDepth }

/-- The diagram and the statistics that a body asks for. -/
def execute (p : Pipeline) (b : Body) : Except BodyFault (Visualization × CodeStats) := do
  let request ← validate p.settings.server b
  let v ← (p.run request).mapError .request
  let stats ← (p.codeStats request.source request.language).mapError .request
  return (v, stats)

/-- A diagram as data. -/
def dataContent (v : Visualization) (stats : CodeStats) : Content :=
  .json (.obj [("visualization", v.toJson), ("code_stats", stats.toJson),
    ("language_used", .str v.language.name)])

/-- A diagram as a drawing. -/
def drawingContent (v : Visualization) (_ : CodeStats) : Content := .svg v.drawing.svg

/-- The most bytes of a body. -/
def bodyLimit : Nat := 2097152

/-- Reads a body and answers it. -/
def post (p : Pipeline) (content : Visualization → CodeStats → Content) (r : Request) : Response :=
  if !r.contentType.any MediaType.isJson then ⟨415, .plain⟩
  else if r.body.utf8ByteSize > bodyLimit then ⟨413, .plain⟩
  else
    match Body.parse r.body with
    | .error .malformed => ⟨400, .plain⟩
    | .error .mismatch => ⟨422, .plain⟩
    | .ok b =>
      match execute p b with
      | .error e => e.response
      | .ok (v, stats) => ok (content v stats)

/-! ## 3. Routes -/

/-- Whether a character begins what follows the path of a target. -/
def endsPath (c : Char) : Bool := c == '?' || c == '#'

/-- A target without the scheme in front of its server: none if it names no scheme. -/
def afterScheme? : List Char → Option (List Char)
  | ':' :: '/' :: '/' :: rest => some rest
  | c :: rest => if c == '/' then none else afterScheme? rest
  | [] => none

/-- The path of a target.  A target may name a scheme and a server in front of its path, and the
path of a server is its root if no other is given. -/
def Request.path (r : Request) : String :=
  let cs := r.target.toList
  match afterScheme? cs with
  | none => String.ofList (cs.takeWhile fun c => !endsPath c)
  | some rest =>
    let path := (rest.dropWhile fun c => c != '/' && !endsPath c).takeWhile fun c => !endsPath c
    if path.isEmpty then "/" else String.ofList path

/-- What can be found at a path. -/
inductive Resource where
  | page
  | styles
  | diagram (content : Visualization → CodeStats → Content)

/-- What is at a path. -/
def resource? : String → Option Resource
  | "/" => some .page
  | "/api/styles" => some .styles
  | "/api/visualize" => some (.diagram dataContent)
  | "/api/render" => some (.diagram drawingContent)
  | _ => none

/-- Answers a request.  Asking for options is allowed anywhere. -/
def answer (p : Pipeline) (r : Request) : Response :=
  if r.method = "OPTIONS" then ok .nothing
  else
    let reads := r.method = "GET" || r.method = "HEAD"
    match resource? r.path with
    | none => ⟨404, .nothing⟩
    | some .page => if reads then ok (.html Page.html) else ⟨405, .nothing⟩
    | some .styles =>
      if reads then ok (.json (StyleTable.toJson fullStyleTable)) else ⟨405, .nothing⟩
    | some (.diagram content) =>
      if r.method = "POST" then post p content r else ⟨405, .nothing⟩

end CodeDiagram.Service
