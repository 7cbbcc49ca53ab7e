import Fleet.Http.Endpoint

/-!
Which pages of other origins may ask: all of them, or those of a list. A question about what is
allowed is answered on every path.
-/

namespace Fleet.Http

def allowedMethods : String := "GET,POST,OPTIONS"

def allowedHeaders : String := "content-type,authorization,accept,x-user-id,x-org-id"

/-- Whether these can be served: the mark for all origins cannot stand in a list. -/
def areOrigins (origins : List String) : Bool := !origins.contains "*"

/-- The origin that an answer names, if any. -/
def originFor (origins : List String) (r : Request) : Option String :=
  if origins.isEmpty then some "*"
  else origins.find? fun o => r.header? "origin" = some (Text.encode o)

def originHeader (origins : List String) (r : Request) : List (String × String) :=
  ((originFor origins r).map ("access-control-allow-origin", ·)).toList

def allowHeader (e : Option Endpoint) : List (String × String) :=
  (e.map fun e => ("allow", e.allowed)).toList

/-- The answer to the question what is allowed. -/
def preflight (e : Option Endpoint) : Response where
  status := 200
  headers := [("access-control-allow-methods", allowedMethods),
    ("access-control-allow-headers", allowedHeaders)] ++ allowHeader e

/-- An answer as it leaves: with the origin that may read it, and without a body if only the head
was asked for. -/
def finish (origins : List String) (r : Request) (a : Response) : Response :=
  { a with
    headers := a.headers ++ originHeader origins r
    body := if r.method = "HEAD" then .empty else a.body }

end Fleet.Http
