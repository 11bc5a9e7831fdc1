import Mathlib.Tactic

/-! What the service answers: the helpers that build responses, the endpoint handlers, and the router
that finds one. Texts are strings of bytes, and the files are given. -/

namespace DagScheduler.Service

inductive Verb where
  | get | head | other
  deriving DecidableEq

structure Request where
  method : Verb
  target : String
  version : ℕ
  keepAlive : Bool
  deriving DecidableEq

inductive Status where
  | ok | badRequest | notFound | internalServerError
  deriving DecidableEq

inductive Field where
  | server | contentType | contentScriptType
  deriving DecidableEq

structure Response where
  status : Status
  version : ℕ
  fields : List (Field × String)
  keepAlive : Option Bool
  contentLength : Option ℕ
  /-- `none` for an `empty_body`. -/
  body : Option String
  deriving DecidableEq

namespace Response

def new (status : Status) (version : ℕ) : Response := ⟨status, version, [], none, none, some ""⟩

def set (r : Response) (field : Field) (value : String) : Response :=
  { r with fields := r.fields ++ [(field, value)] }

/-- `keep_alive()`: without a `Connection` field the version decides. -/
def persistent (r : Response) : Bool := r.keepAlive.getD (decide (11 ≤ r.version))

def preparePayload (r : Response) : Response := { r with contentLength := r.body.map String.length }

/-- None of the statuses here stands for a message without a body, and no response is chunked. -/
def needEof (r : Response) : Bool := if r.contentLength.isSome then !r.persistent else true

end Response

/-- `BOOST_BEAST_VERSION_STRING`, without the number of the version. -/
def beastVersionString : String := "Boost.Beast"

namespace Detail

def extension (path : String) : String :=
  if '.' ∈ path.toList then String.ofList ('.' :: (path.toList.reverse.takeWhile (· != '.')).reverse) else ""

def iequals (lhs rhs : String) : Bool := lhs.toLower == rhs.toLower

def mimeTypes : List (String × String) :=
  [(".htm", "text/html"), (".html", "text/html"), (".php", "text/html"), (".css", "text/css"),
    (".txt", "text/plain"), (".js", "application/javascript"), (".json", "application/json"),
    (".xml", "application/xml"), (".swf", "application/x-shockwave-flash"), (".flv", "video/x-flv"),
    (".png", "image/png"), (".jpe", "image/jpeg"), (".jpeg", "image/jpeg"), (".jpg", "image/jpeg"),
    (".gif", "image/gif"), (".bmp", "image/bmp"), (".ico", "image/vnd.microsoft.icon"),
    (".tiff", "image/tiff"), (".tif", "image/tiff"), (".svg", "image/svg+xml"), (".sggz", "image/svg+xml")]

def mimeType (path : String) : String :=
  ((mimeTypes.find? fun e => iequals (extension path) e.1).map Prod.snd).getD "application/text"

def pathCat (base path : String) : String :=
  if base.isEmpty then path
  else if base.toList.getLast? = some '/' then String.ofList base.toList.dropLast ++ path
  else base ++ path

def badRequestHandler (why : String) (req : Request) : Response :=
  { (((Response.new .badRequest req.version).set .server beastVersionString).set .contentScriptType "text/html") with
    keepAlive := some req.keepAlive, body := some why }.preparePayload

def notFoundHandler (target : String) (req : Request) : Response :=
  { (((Response.new .notFound req.version).set .server beastVersionString).set .contentType "text/html") with
    keepAlive := some req.keepAlive
    body := some ("The resource '" ++ target ++ "' was not found.\n") }.preparePayload

def serverErrorHandler (what : String) (req : Request) : Response :=
  { (((Response.new .internalServerError req.version).set .server beastVersionString).set .contentType
    "text/html") with
    keepAlive := some req.keepAlive, body := some ("An error occurred: '" ++ what ++ "'\n") }

end Detail

inductive OpenError where
  | noSuchFileOrDirectory
  | other (message : String)

structure File where
  size : ℕ
  /-- What is read of it; `none` where that fails. -/
  content : Option (List Char)

structure FileSystem where
  openFile : String → Except OpenError File

structure Handled where
  sent : List Response
  status : Bool
  opened : List String

namespace DocRootEndpoint

/-- The bytes that were not read stay as `resize` left them. -/
def bodyStr (size : ℕ) (read : List Char) : String :=
  String.ofList (read.take size ++ List.replicate (size - read.length) (Char.ofNat 0))

def headResponse (path : String) (size : ℕ) (req : Request) : Response :=
  { (((Response.new .ok req.version).set .server beastVersionString).set .contentType (Detail.mimeType path)) with
    body := none, contentLength := some size, keepAlive := some req.keepAlive }

/-- When the reading fails, the message is that of `ec`, which reports no error. -/
def getResponse (file : File) (req : Request) : Response :=
  match file.content with
  | some read => { Response.new .ok req.version with body := some (bodyStr file.size read) }
  | none => Detail.serverErrorHandler "Success" req

def handleRequest (docRoot : String) (fs : FileSystem) (req : Request) : Handled :=
  if req.method ≠ .get ∧ req.method ≠ .head then
    ⟨[Detail.badRequestHandler "Unknown HTTP-method\n" req], true, []⟩
  else if req.target.toList.head? ≠ some '/' ∨ ['.', '.'] <:+: req.target.toList then
    ⟨[Detail.badRequestHandler "Illegal request-target\n" req], true, []⟩
  else
    let path := Detail.pathCat docRoot req.target
    match fs.openFile path with
    | .error .noSuchFileOrDirectory => ⟨[Detail.notFoundHandler req.target req], true, [path]⟩
    | .error (.other message) => ⟨[Detail.serverErrorHandler message req], true, [path]⟩
    | .ok file =>
      ⟨[if req.method = .head then headResponse path file.size req else getResponse file req], true, [path]⟩

end DocRootEndpoint

inductive EndpointHandler where
  | endpointHandler
  | docRootEndpoint (docRoot : String)
  | registerDAGEndpoint

def EndpointHandler.call (fs : FileSystem) (req : Request) : EndpointHandler → Handled
  | endpointHandler => ⟨[], false, []⟩
  | docRootEndpoint docRoot => DocRootEndpoint.handleRequest docRoot fs req
  | registerDAGEndpoint => ⟨[], true, []⟩

/-- Handlers by endpoint; a null pointer is `none`. -/
structure Router where
  router : List (String × Option EndpointHandler)

namespace Router

def registerEndpoint (r : Router) (endpoint : String) (handler : Option EndpointHandler) : Bool × Router :=
  if (r.router.lookup endpoint).isSome then (false, r) else (true, ⟨r.router ++ [(endpoint, handler)]⟩)

/-- `operator[]`; an error is the `what()` of the `std::runtime_error`. -/
def find (r : Router) (endpoint : String) : Except String (Option EndpointHandler) :=
  match r.router.lookup endpoint with
  | none => throw ("No handler for " ++ endpoint ++ " was found.")
  | some handler => pure handler

end Router

def workflowRouter (docRoot : String) : Router :=
  ((⟨[]⟩ : Router).registerEndpoint "/index.html" (some (.docRootEndpoint docRoot))).2

end DagScheduler.Service
