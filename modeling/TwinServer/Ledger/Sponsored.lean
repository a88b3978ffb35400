-- SUMMARY: Sponsored execution: the requests one operation sends to the gas stations, and how it moves from one station to the next.
import TwinServer.Ledger.Errors

/-!
# Sponsored transactions

`SponsoredTransactionExecutor` of `src/objectid/sponsoredTransactionExecutor.ts`. What
the stations, the transaction builder and the ledger client answer is input, one
exchange for each station; what an execution yields is the requests it has sent, with
their answers, and its result. The parser of response bodies is a parameter.
-/

open Js Js.Json

namespace Ledger

/-! ## Requests and answers -/

structure GasStationConnection where
  url : String
  token : String
  reserveDurationSeconds : Number

/-- What `fetch`, and the reading of the body after it, come to: both fail with an error
of the platform. -/
inductive HttpAnswer where
  | failed (name message : String)
  | response (status : Nat) (text : String)

/-- The answer is a rejection of the request. -/
def HttpAnswer.Rejects : HttpAnswer → Prop
  | .response status _ => 400 ≤ status ∧ status < 500
  | .failed .. => False

instance (answer : HttpAnswer) : Decidable answer.Rejects := by
  cases answer <;> unfold HttpAnswer.Rejects <;> infer_instance

/-- A request that was sent, and its answer. -/
structure Post where
  station : GasStationConnection
  path : String
  body : Json
  answer : HttpAnswer

/-- `station.url.replace(/\/$/, "") + path`. -/
def Post.url (p : Post) : String :=
  let url := p.station.url.toList
  .ofList (if url.getLast? = some '/' then url.dropLast else url) ++ p.path

/-- `String(value)`. -/
def text [Runtime] (value : Json) : Except Raised String :=
  match value.toString? with
  | some s => .ok s
  | none => .error (.native "TypeError" "Cannot convert object to primitive value")

def gasStationErrorMessage [Runtime] (payload : Option Json) (responseText : String)
    (status : Nat) : Except Raised String :=
  let plain :=
    let plainText := trim responseText
    if plainText != "" then sliceTo 1000 plainText
    else "Gas Station returned HTTP " ++ toString status
  let described :=
    match payload.bind (·.get? "message") with
    | some message => if message.truthy then text message else .ok plain
    | none => .ok plain
  match payload.bind (·.get? "error") with
  | some (.string message) => if trim message != "" then .ok message else described
  | some error =>
    match error.get? "message" with
    | some message => if message.truthy then text message else described
    | none => described
  | none => described

/-- What `post` makes of an answer; `none` is `undefined`. -/
def readAnswer [Runtime] (parseJson : String → Option Json) :
    HttpAnswer → Except Raised (Option Json)
  | .failed name message => .error (.native name message)
  | .response status responseText =>
    let payload := if responseText = "" then none else parseJson responseText
    if 200 ≤ status ∧ status < 300 then
      .ok (coalesce (payload.bind (·.get? "result")) payload)
    else do
      let message ← gasStationErrorMessage payload responseText status
      .error (.app { code := "OBJECTID_GAS_STATION_REJECTED", message,
                     status := if status ≥ 500 then 503 else 502, category := .OBJECTID,
                     details := [("stationStatus", .number status)] })

/-! ## One station -/

structure GasReservation where
  sponsor_address : Json
  reservation_id : Number
  gas_coins : List Json

def validateReservation (value : Option Json) : Except Raised GasReservation :=
  let sponsor := value.bind (·.get? "sponsor_address")
  match sponsor, value.bind (·.get? "reservation_id"), value.bind (·.get? "gas_coins") with
  | some sponsor_address, some (.number reservation_id), some (.array gas_coins) =>
    if sponsor_address.truthy && reservation_id.toInt?.isSome && !gas_coins.isEmpty then
      .ok { sponsor_address, reservation_id, gas_coins }
    else .error invalid
  | _, _, _ => .error invalid
where
  invalid : Raised := .app
    { code := "OBJECTID_GAS_RESERVATION_INVALID",
      message := "Gas Station returned an invalid gas reservation", status := 502,
      category := .OBJECTID }

/-- A transaction in base 64 and the signature of the user. -/
structure Signed where
  bytes : String
  signature : String

/-- The part of a transaction response the executor reads: the status of its effects,
with the error of a failed one. -/
structure TransactionResponse where
  digest : String
  effects : Option (String × Option String)

/-- What one attempt at a station meets. -/
structure Exchange where
  /-- `buildTransaction()`. -/
  transaction : Except Raised Unit
  /-- The answer to `/v1/reserve_gas`. -/
  reserve : HttpAnswer
  /-- Filling in the reservation, building and signing. -/
  signed : Except Raised Signed
  /-- The answer to `/v1/execute_tx`. -/
  submit : HttpAnswer
  /-- `client.waitForTransaction`. -/
  confirm : Except Raised TransactionResponse

structure Executor where
  gasBudget : Number
  parseJson : String → Option Json

/-- `Number(error.details.stationStatus ?? 0)` of an error, 0 of one that is not the
application's. -/
def stationStatus [Runtime] : Raised → Number
  | .app error =>
    (toNumber? (coalesce (error.details.get? "stationStatus") (some (.number 0)))).getD .nan
  | _ => 0

/-- The error a failed submission is reported with. -/
def submissionError [Runtime] (operation : String) (error : Raised) : Raised :=
  let status := stationStatus error
  if Number.le 400 status && status.lt 500 then error
  else .app
    { code := "OBJECTID_SPONSORED_SUBMISSION_UNKNOWN",
      message := "Gas Station submission outcome is unknown for operation '" ++ operation ++ "'",
      status := 503, category := .NETWORK,
      details := [("operation", .string operation), ("retryable", .bool false),
        ("submissionUnknown", .bool true), ("cause", safeError error)] }

/-- The digest a station names for a submitted transaction. -/
def transactionDigest [Runtime] : Option Json → Except Raised String
  | none => .error (.native "TypeError" "Cannot read properties of undefined (reading 'effects')")
  | some .null => .error (.native "TypeError" "Cannot read properties of null (reading 'effects')")
  | some execution => do
    let result := execution.get? "result"
    let effects := coalesce (execution.get? "effects")
      (coalesce (result.bind (·.get? "effects")) (coalesce result (some execution)))
    let digest := coalesce (effects.bind (·.get? "transactionDigest"))
      (coalesce (effects.bind (·.get? "transaction_digest"))
        (coalesce (execution.get? "digest") (some (.string ""))))
    let digest ← text (digest.getD .null)
    if digest = "" then
      .error (.app { code := "OBJECTID_GAS_STATION_RESPONSE_INVALID",
                     message := "Gas Station response has no transaction digest", status := 502,
                     category := .OBJECTID })
    else .ok digest

/-- What follows the submission of a transaction with a digest. -/
def confirmation (operation digest : String) :
    Except Raised TransactionResponse → Except Raised TransactionResponse
  | .error error => .error (.app
    { code := "OBJECTID_SPONSORED_CONFIRMATION_UNKNOWN",
      message := "Sponsored operation '" ++ operation ++
        "' was submitted but could not be confirmed",
      status := 503, category := .NETWORK,
      details := [("digest", .string digest), ("operation", .string operation),
        ("retryable", .bool false), ("submissionUnknown", .bool true),
        ("cause", safeError error)] })
  | .ok result =>
    if result.effects.map Prod.fst = some "success" then .ok result
    else .error (.app
      { code := "OBJECTID_SPONSORED_TRANSACTION_FAILED",
        message := (result.effects.bind Prod.snd).getD
          ("Sponsored operation '" ++ operation ++ "' failed"),
        status := 502, category := .OBJECTID,
        details := [("digest", .string digest), ("operation", .string operation)] })

section
variable [Runtime] (executor : Executor) (operation : String)

/-- From the answer to the submission on. -/
def submission (x : Exchange) : Except Raised TransactionResponse :=
  match readAnswer executor.parseJson x.submit with
  | .error error => .error (submissionError operation error)
  | .ok execution => do confirmation operation (← transactionDigest execution) x.confirm

def reservePost (station : GasStationConnection) (x : Exchange) : Post where
  station
  path := "/v1/reserve_gas"
  body := .object [("gas_budget", .number executor.gasBudget),
    ("reserve_duration_secs", .number station.reserveDurationSeconds)]
  answer := x.reserve

def executePost (station : GasStationConnection) (x : Exchange) (reservation : GasReservation)
    (signed : Signed) : Post where
  station
  path := "/v1/execute_tx"
  body := .object [("reservation_id", .number reservation.reservation_id),
    ("tx_bytes", .string signed.bytes), ("user_sig", .string signed.signature)]
  answer := x.submit

/-- What is signed for the station, once it has reserved the gas. -/
def prepare (x : Exchange) : Except Raised (GasReservation × Signed) := do
  let reservation ← validateReservation (← readAnswer executor.parseJson x.reserve)
  return (reservation, ← x.signed)

def executeAtStation (station : GasStationConnection) (x : Exchange) :
    List Post × Except Raised TransactionResponse :=
  match prepare executor x with
  | .error error => ([reservePost executor station x], .error error)
  | .ok (reservation, signed) =>
    ([reservePost executor station x, executePost station x reservation signed],
      submission executor operation x)

/-! ## The stations in turn -/

def isDefinitiveOrAmbiguousSubmission : Raised → Bool
  | .app error =>
    ["OBJECTID_SPONSORED_TRANSACTION_FAILED", "OBJECTID_SPONSORED_SUBMISSION_UNKNOWN",
      "OBJECTID_SPONSORED_CONFIRMATION_UNKNOWN"].contains error.code
  | _ => false

/-- One turn of the loop over the stations. -/
def attempt (station : GasStationConnection) (x : Exchange) :
    List Post × Except Raised TransactionResponse :=
  match x.transaction with
  | .error error => ([], .error error)
  | .ok () => executeAtStation executor operation station x

/-- The loop over the stations; `lastError` is the error of the last one tried. -/
def execute (lastError : Option Raised) :
    List (GasStationConnection × Exchange) → List Post × Except Raised TransactionResponse
  | [] => ([], .error (.app
    { code := "OBJECTID_GAS_STATION_UNAVAILABLE",
      message := "All configured ObjectID Gas Stations rejected or failed operation '" ++
        operation ++ "'",
      status := 503, category := .OBJECTID,
      details := [("cause", safeError (lastError.getD (.value "undefined")))] }))
  | (station, x) :: rest =>
    match attempt executor operation station x with
    | (posts, .ok result) => (posts, .ok result)
    | (posts, .error error) =>
      if isDefinitiveOrAmbiguousSubmission error then (posts, .error error)
      else
        let (posts', result) := execute (some error) rest
        (posts ++ posts', result)

end

end Ledger
