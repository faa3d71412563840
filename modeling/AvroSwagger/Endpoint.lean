import AvroSwagger.Endpoint.Address
import AvroSwagger.Endpoint.Pattern
import AvroSwagger.Generation.Document
import AvroSwagger.Json.Printer

/-!
# AvroSwagger.Endpoint

**The document as a web resource.**

An endpoint answers `GET` on the path it is mounted on with the document,
generated afresh for each request, or with the reason why there is none.
-/

namespace AvroSwagger

/-- How an endpoint was registered, which decides its answer to other methods. -/
inductive Mount where
  /-- A resource of its own: other methods are not allowed on it. -/
  | resource
  /-- A route for one method: other methods find nothing. -/
  | route
  deriving DecidableEq

/-- A published document and where it is served. -/
structure Endpoint where
  path : String
  mount : Mount
  template : Json
  routes : RouteMap
  policy : CollisionPolicy

/-- An answer to a request. -/
structure Response where
  status : Nat
  contentType : Option String
  body : String

namespace Endpoint

/-- An answer without content. -/
def bare (status : Nat) : Response := ⟨status, none, ""⟩

/-- The document, or the reason why there is none. -/
def respond (e : Endpoint) : Response :=
  match generateDocument e.template e.routes e.policy with
  | .ok document => ⟨200, some "application/json", document.compact⟩
  | .error cause => ⟨500, some "text/plain; charset=utf-8", cause.message⟩

/-- **The answer to a request.** -/
def answer (e : Endpoint) (method address : String) : Response :=
  if !isMountedOn e.path (pathOf address) then bare 404
  else if method = "GET" then e.respond
  else match e.mount with
    | .resource => bare 405
    | .route => bare 404

end Endpoint

end AvroSwagger
