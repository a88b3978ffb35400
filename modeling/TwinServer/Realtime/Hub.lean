-- SUMMARY: Realtime events as the hub publishes them, and which subscriptions hear an event.
import TwinServer.Base.Latest
import TwinServer.Sharing.Service

/-!
# The realtime hub

`src/realtime/hub.ts`: an event is published under the id of its Twin and handed to the subscribers of
that id in the same turn. Subscriptions are keyed by the id as it is spelled.
-/

open Js Js.Json

namespace Realtime

structure RealtimeEncryptionMetadata where
  encrypted : Bool
  algorithm : Option String := none
  keyId : Option String := none
  version : Option Number := none

structure TwinRealtimeEvent where
  twinId : String
  observedAt : Number
  receivedAt : Number
  payload : Json
  encryption : RealtimeEncryptionMetadata

section
variable [Runtime]

/-- `encryptionMetadata`: an envelope is an object with a true `encrypted` and a ciphertext. -/
def encryptionMetadata (value : Json) : RealtimeEncryptionMetadata :=
  if value.isPlainObject && (value.get? "encrypted").any (·.strictEq (.bool true)) &&
      (asString? (value.get? "ciphertext")).isSome then
    { encrypted := true
      algorithm := asString? (value.get? "algorithm")
      keyId := asString? (value.get? "keyId")
      version := (toNumber? (value.get? "version")).filter Number.isFinite }
  else { encrypted := false }

/-- The event that `publish` makes of a message for a Twin. -/
def published (twinId : String) (value : Json) (observedAt receivedAt : Number) : TwinRealtimeEvent where
  twinId := trim twinId
  observedAt := observedAt
  receivedAt := receivedAt
  payload := value
  encryption := encryptionMetadata value

/-- The event is one of the Twin that a stream was opened for. -/
def concerns (id : String) (e : TwinRealtimeEvent) : Bool := toLowerCase e.twinId == toLowerCase id

end

/-- A subscription under the id is handed the event. -/
def hears (id : String) (e : TwinRealtimeEvent) : Bool := e.twinId == id

theorem concerns_of_hears [Runtime] {id : String} {e : TwinRealtimeEvent} (h : hears id e) :
    concerns id e := by
  simp only [hears, beq_iff_eq] at h
  simp only [concerns, h, beq_self_eq_true]

end Realtime
