import ReleaseKeeper.Api.Objects
/-!
# Scripted servers

A script answers requests by routes. The first route of a request's method and path answers it; a
route can be used up. What no route answers is not found.
-/
namespace ReleaseKeeper.Api

/-- Answers requests of a method and a path. -/
structure Route where
  /-- Method and path. -/
  target : String
  code : Nat := 200
  /-- What is answered with; the body of the request if there is none. -/
  body : Option Json
  /-- How many more requests are answered; all of them if there is no number. -/
  times : Option Nat := none
deriving Repr

def Request.target (r : Request) : String := s!"{r.method.name} {r.path}"

def Response.absent : Response where
  code := 404
  body := .object [
    ("apiVersion", .str "v1"), ("kind", .str "Status"), ("status", .str "Failure"),
    ("message", .str "the server could not find the requested resource"),
    ("reason", .str "NotFound"), ("code", .int 404)]

namespace Route

def answer (route : Route) (r : Request) : Response where
  code := route.code
  body := match route.body with
    | some body => body
    | none => (r.content.map Content.body).getD .null

/-- What is left of a route after it was used. -/
def rest (route : Route) : List Route :=
  match route.times with
  | none => [route]
  | some n => if n ≤ 1 then [] else [{ route with times := some (n - 1) }]

/-- The answer of the first route that fits a request, and the routes that are left. -/
def serve (r : Request) : List Route → Response × List Route
  | [] => (Response.absent, [])
  | route :: routes =>
    if route.target = r.target then (route.answer r, route.rest ++ routes)
    else
      let (answer, left) := serve r routes
      (answer, route :: left)

end Route

/-- A script with the requests that it was asked, and the kinds that its client knows. -/
structure Script where
  routes : List Route := []
  journal : List Request := []
  known : KnownKinds := []
deriving Repr, Inhabited

namespace Script

/-- Notes a request and answers it. -/
def answer (r : Request) : StateM Script Response := fun s =>
  let (x, routes) := Route.serve r s.routes
  (x, { s with routes, journal := s.journal ++ [r] })

def run {α : Type} (c : Client α) : StateM Script (Except Error α) := fun s =>
  let ((r, known), s) := Program.run (fun r => answer r) (c.run s.known) s
  (r, { s with known })

end Script

end ReleaseKeeper.Api
