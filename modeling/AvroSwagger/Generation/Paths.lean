import AvroSwagger.Generation.Collector

/-!
# AvroSwagger.Generation.Paths

**One `POST` operation for each route.**

The body parameter refers to the definition of the route's record, and the
success response to the record that every operation answers with.
-/

namespace AvroSwagger

open Swagger

/-- The path item of a route to which a record is posted. -/
def pathItem (route : String) (record : Record) : PathItem where
  post := {
    description := "Raise a " ++ record.shortName ++ " event."
    operationId := route
    parameters := [{
      name := record.shortName
      location := "body"
      description := record.doc
      required := true
      schema := .reference record.shortName }]
    responses := [
      ("200", ⟨route ++ " response", some (.reference responseName)⟩),
      ("default", ⟨"Error", none⟩)] }

/-- The path of a route. -/
def routePath (route : String) : String := "/" ++ route

/-- Adds the path items of routes; the first route without record ends it. -/
def pathsFrom (written : Paths) : List (String × Schema) → Except GenerationError Paths
  | [] => .ok written
  | (route, schema) :: rest => do
    let record ← routeRecord route schema
    pathsFrom (written.insert (routePath route) (pathItem route record)) rest

/-- **The paths of all routes.** -/
def generatePaths (routes : RouteMap) : Except GenerationError Paths := pathsFrom [] routes

end AvroSwagger
