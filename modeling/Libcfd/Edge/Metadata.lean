import Libcfd.Edge.Error
import Libcfd.Origin.Http
import Libcfd.Rpc.Quic

/-!
# Metadata entries

A request comes over QUIC, and a response goes, as a list of keys and texts: the method, the host
and the status under keys of their own, every header under its name with a prefix. An entry that
does not make a header is passed over.
-/

namespace Libcfd.Edge

open Libcfd.Rpc Libcfd.Origin

variable (H : Http)

/-- `HEADER_KEY_PREFIX`. -/
def headerKeyPrefix : String := "HttpHeader:"

/-- The method and the headers so far, and one more entry. -/
def addEntry (parts : H.Method × H.HeaderMap) (entry : String × String) :
    H.Method × H.HeaderMap :=
  if entry.1 = httpMethodKey then
    ((H.methodFromBytes (utf8 entry.2)).getD H.methodGet, parts.2)
  else
    match if entry.1 = httpHostKey then H.valueFromStr entry.2 else none with
    | some value => (parts.1, H.insert parts.2 H.host value)
    | none =>
        match stripPrefix entry.1 headerKeyPrefix with
        | some name =>
            match H.nameFromBytes (utf8 name), H.valueFromStr entry.2 with
            | some name, some value => (parts.1, H.append parts.2 name value)
            | _, _ => parts
        | none => parts

def buildRequest (connect : ConnectRequest) : Except Error (Request H) :=
  let (method, headers) := connect.metadata.foldl (addEntry H) (H.methodGet, H.emptyMap)
  match H.uriTryFrom connect.destination with
  | .ok uri => .ok ⟨method, uri, headers, .empty⟩
  | .error e =>
      .error (.quic ("invalid request destination " ++ reprStr connect.destination ++ ": " ++ e))

def encodeResponseMetadata (response : Response H) : List (String × String) :=
  (httpStatusKey, toString response.status.toNat) ::
    (H.iter response.headers).map fun (name, value) =>
      (headerKeyPrefix ++ H.nameAsStr name, (H.valueToStr value).getD "")

/-- The headers of a reply, as its reader has them. -/
def metadataHeaders (metadata : List (String × String)) : List (String × String) :=
  metadata.filterMap fun (key, value) => (stripPrefix key headerKeyPrefix).map (·, value)

theorem metadataHeaders_encode (response : Response H) :
    metadataHeaders (encodeResponseMetadata H response) =
      (H.iter response.headers).map fun (name, value) =>
        (H.nameAsStr name, (H.valueToStr value).getD "") := by
  have hstatus : stripPrefix httpStatusKey headerKeyPrefix = none := by decide
  rw [metadataHeaders, encodeResponseMetadata, List.filterMap_cons]
  simp only [hstatus, Option.map_none, List.filterMap_map]
  rw [← List.filterMap_eq_map]
  refine List.filterMap_congr fun header _ => ?_
  show (stripPrefix (headerKeyPrefix ++ H.nameAsStr header.1) headerKeyPrefix).map _ = _
  rw [stripPrefix_append]
  rfl

end Libcfd.Edge
