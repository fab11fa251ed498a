import UniversalAgent.Foundation.CaseMapping

/-!
# Agentd — Routing

The normal forms of a request path and the route matcher (`agentd/routing.py`). The guards of the
application read one normal form, `_normalize_path`; the matcher takes another, `_route_path`, of it.

Starlette's `URL` is a parameter: its path has none of the characters that end or clean a path, and a
path that has none of them and begins with one slash is its own.
-/

namespace UniversalAgent.Agentd

open UniversalAgent.Foundation

abbrev PathText := List Char

/-- The text has no query, no fragment, and nothing that `urlsplit` removes. -/
def Clean (path : PathText) : Prop := ∀ c ∈ path, c ∉ ['?', '#', '\t', '\r', '\n']

def Rooted (path : PathText) : Prop := ∃ rest, path = '/' :: rest ∧ rest.head? ≠ some '/'

inductive UrlError where
  | invalid
deriving DecidableEq

/-- `URL(text).path`. -/
structure UrlParser where
  path : PathText → Except UrlError PathText
  clean : ∀ text p, path text = .ok p → Clean p
  rooted : ∀ p, Clean p → Rooted p → path p = .ok p

/-- `path if path.startswith("/") else "/" + path`. -/
def withSlash (path : PathText) : PathText :=
  if path.head? = some '/' then path else '/' :: path

/-- `path.rstrip("/")`. -/
def stripSlashes (path : PathText) : PathText := (path.reverse.dropWhile (· = '/')).reverse

def segments (path : PathText) : List PathText := (path.splitOn '/').filter fun s => s ≠ []

section Paths

variable (url : UrlParser)

def normalizePath (path : PathText) : Except UrlError PathText := do
  let parsed ← url.path path
  let normalized := stripSlashes (withSlash parsed)
  pure (if normalized = [] then ['/'] else normalized)

/-- The segments that `_route_path` joins. -/
def routePath (path : PathText) : Except UrlError (List PathText) := do
  let parsed ← url.path path
  pure (segments (withSlash parsed))

end Paths

/-! ## The matcher -/

inductive TemplateSegment where
  | literal (text : PathText)
  | parameter (name : PathText)
deriving DecidableEq

def templateSegment (segment : PathText) : TemplateSegment :=
  match segment with
  | '\x7b' :: rest => .parameter (rest.dropLast)
  | _ => .literal segment

/-- `AgentdRouteDefinition`. -/
structure RouteDefinition where
  name : String
  template : String
  methods : List String := ["GET"]
deriving DecidableEq

def RouteDefinition.segments (route : RouteDefinition) : List TemplateSegment :=
  (Agentd.segments route.template.toList).map templateSegment

abbrev PathParams := List (PathText × PathText)

/-- The values of the parameters, where the segments are those of the template. -/
def matchSegments : List TemplateSegment → List PathText → Option PathParams
  | [], [] => some []
  | .literal text :: template, segment :: rest =>
    if segment = text then matchSegments template rest else none
  | .parameter name :: template, segment :: rest =>
    (matchSegments template rest).map fun params => (name, segment) :: params
  | _, _ => none

/-- `AgentdRouteMatch`. -/
structure RouteMatch where
  name : String
  pathParams : PathParams
  allowedMethods : List String
  methodAllowed : Bool
deriving DecidableEq

def matchRoutes (casing : CaseMapping) (routes : List RouteDefinition) (segments : List PathText)
    (method : String) : Option RouteMatch :=
  routes.findSome? fun route =>
    (matchSegments route.segments segments).map fun params =>
      let allowed := route.methods.map casing.upper
      ⟨route.name, params, allowed, decide (casing.upper method ∈ allowed)⟩

def RouteDefinition.match (casing : CaseMapping) (url : UrlParser) (routes : List RouteDefinition)
    (path : PathText) (method : String) : Except UrlError (Option RouteMatch) := do
  pure (matchRoutes casing routes (← routePath url path) method)

end UniversalAgent.Agentd
