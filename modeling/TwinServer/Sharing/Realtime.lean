-- SUMMARY: How a realtime event is filtered for a reader, and what the reader receives of it.
import TwinServer.Realtime.Hub
import TwinServer.Sharing.Filter

/-!
# Filtered events

`filter`, `filterSample` and the results of `filteredRealtime` and `filteredPublicRealtime` of
`src/sharing/service.ts`.
-/

open Js Js.Json Realtime

namespace Sharing

/-- `filter`: what the policy functions throw becomes an error of the application. -/
@[local grind] def filter (value : Json) (rights : Rights) (scope : Nat) (observedAt : Number) : Except Thrown Json :=
  match filterPayload value rights scope observedAt with
  | .ok payload => .ok payload
  | .error e =>
    let (message, status) : String × Nat := match e with
      | .access message status => (message, status)
      | .type => ("Cannot convert object to primitive value", 409)
    .error (.app { code := "DATASET_SCOPE_FILTER", message, status, category := .AUTHORIZATION })

/-- `filterSample`; `decoded` is the answer of `decodePayload`, when the server has one. -/
def filterSample (decoded : Option (Except Thrown Json)) (payload : Json) (rights : Rights) (scope : Nat)
    (observedAt : Number) : Except Thrown Json :=
  if rights.legacy && [2, 4].contains scope then filter payload rights scope observedAt
  else do
    let payload ← if encryptedFlag payload then decoded.getD (.ok payload) else .ok payload
    filter payload rights scope observedAt

/-- The revisions of two reads are the same. -/
def sameRevision : Option Json → Option Json → Bool
  | none, none => true
  | some r, some r' => r.strictEq r'
  | _, _ => false

/-- What a reader receives of an event. -/
def filteredEvent (id : String) (e : TwinRealtimeEvent) (payload : Json) : Json :=
  .object [("twinId", .string id), ("observedAt", .number e.observedAt),
    ("receivedAt", .number e.receivedAt), ("payload", payload),
    ("encryption", .object [("encrypted", .bool false)])]

end Sharing
