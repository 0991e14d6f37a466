import ModuleOutputs.Config.Basic
import ModuleOutputs.Json.Read
import ModuleOutputs.World

/-!
Looking a module up in a registry: its metadata names the repository that the
module was published from.
-/

namespace ModuleOutputs

/-- What the registry says about a module. -/
structure Metadata where
  source : Option String := none
  description : Option String := none
deriving Repr, DecidableEq

namespace Metadata

/-- Metadata as a record. Both fields may be missing or `null`. -/
def shape : Json.Shape Metadata where
  name := "ModuleMetadata"
  blank := {}
  members := [
    ⟨"source", false, fun depth ps =>
      (Json.readOption Json.readText depth ps).map fun (s, rest) =>
        (fun m => { m with source := s }, rest)⟩,
    ⟨"description", false, fun depth ps =>
      (Json.readOption Json.readText depth ps).map fun (s, rest) =>
        (fun m => { m with description := s }, rest)⟩]

def read : Json.Reader Metadata :=
  Json.readRecord shape

end Metadata

namespace Registry

/-- The address of a module's metadata. Without a version it asks for the latest. -/
def metadataUrl (baseUrl : String) (m : ModuleRef) : String :=
  let url := Text.dropEndSlashes baseUrl ++ "/" ++ Text.stripSlashes m.source
  if m.hasVersion then url ++ "/" ++ m.version else url

/-- The metadata in a reply from an address. -/
def readReply (url : String) (status : Nat) (body : Text.Bytes) : Except Failure Metadata :=
  if Http.isSuccess status then
    match Json.decodeBytes Metadata.read body with
    | .ok m => .ok m
    | .error reason =>
      .error (.http
        ("Invalid module metadata from " ++ url ++ ": error decoding response body: " ++ reason)
        (some status))
  else
    .error (.http
      ("Failed to fetch module metadata from " ++ url ++ ": " ++ Http.statusText status)
      (some status))

/-- The failure of a request to an address that comes to no reply. -/
def unanswered (url reason : String) : Failure :=
  .http ("Request to " ++ url ++ " failed: " ++ reason) none

/-- The metadata of a module, from what the request for it comes to. -/
def metadataIn (c : RegistryConfig) (m : ModuleRef) (reply : Http.Reply) :
    Except Failure Metadata :=
  let url := metadataUrl c.baseUrl m
  match reply.fault? with
  | some reason => .error (unanswered url reason)
  | none => readReply url (Http.documentOf reply).1 (Http.documentOf reply).2

/-- Asks the registry for a module's metadata. -/
def metadata (c : RegistryConfig) (m : ModuleRef) : Attempt Metadata := do
  let url := metadataUrl c.baseUrl m
  Run.info "Fetching module metadata" [("url", url)]
  match Http.Url.ofText url with
  | .error fault => throw (unanswered url fault.message)
  | .ok address =>
    let reply ← Run.send (.document "GET" address.target none none "")
    ExceptT.mk (pure (metadataIn c m reply))

end Registry

end ModuleOutputs
