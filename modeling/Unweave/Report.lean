import Unweave.Json.Writer
import Unweave.Library

/-!
# Reports

What the command line answers: one JSON object with its status first, and a line end.
-/

namespace Unweave

open Json (field fieldIfSome)

namespace Summary

def toJson (s : Summary) : Json :=
  .obj (field "projects" (.ofNat s.projects) ++ field "packages" (.ofNat s.packages) ++
    field "interwoven_extension_methods" (.ofNat s.interwovenExtensionMethods) ++
    field "interwoven_type_members" (.ofNat s.interwovenTypeMembers) ++
    field "member_containers" (.ofNat s.memberContainers))

def decode : Json.Decoder Summary := fun scope j => do
  let r ← Json.record
    ["projects", "packages", "interwoven_extension_methods", "interwoven_type_members",
      "member_containers"] scope j
  let projects ← r.required "projects" Json.long
  let packages ← r.required "packages" Json.long
  let interwovenExtensionMethods ← r.required "interwoven_extension_methods" Json.long
  let interwovenTypeMembers ← r.required "interwoven_type_members" Json.long
  let memberContainers ← r.required "member_containers" Json.long
  return { projects, packages, interwovenExtensionMethods, interwovenTypeMembers, memberContainers }

end Summary

inductive Report where
  /-- A solution was packed; the stripped one may have been written to a file. -/
  | build (solution snapshotId generatedAt : String) (summary : Summary)
    (packages : List PackageInfo) (stripped : Option String)
  | extensions (solution : String) (packages : List PackageInfo)
  | check (solution snapshotId : String) (projects : List String)
  | failure (code : Nat) (message : String)

namespace Report

/-- The version of the shapes below. -/
def schemaVersion : String := "1"

def ofError (e : Error) : Report := failure e.code e.message

def status : Report → String
  | failure .. => "error"
  | _ => "ok"

def fields : Report → List (String × Json)
  | build solution snapshotId generatedAt summary packages stripped =>
    field "solution" (.str solution) ++ field "snapshot_id" (.str snapshotId) ++
      field "generated_at" (.str generatedAt) ++ field "summary" summary.toJson ++
      field "packages" (.arr (packages.map PackageInfo.toJson)) ++
      fieldIfSome "stripped_solution" (stripped.map .str)
  | extensions solution packages =>
    field "solution" (.str solution) ++ field "packages" (.arr (packages.map PackageInfo.toJson))
  | check solution snapshotId projects =>
    field "solution" (.str solution) ++ field "snapshot_id" (.str snapshotId) ++
      field "projects" (.strings projects)
  | failure code message =>
    field "error" (.obj (field "code" (.ofNat code) ++ field "message" (.str message)))

def toJson (r : Report) : Json :=
  .obj (field "status" (.str r.status) ++ field "schema_version" (.str schemaVersion) ++ r.fields)

def render (r : Report) : String := r.toJson.pretty ++ "\n"

end Report
end Unweave
