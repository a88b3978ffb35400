-- SUMMARY: Values that are thrown, and the classification of ledger errors by the text of their message.
import TwinServer.Base.Errors

/-!
# Ledger errors

`mapObjectIdError` of `src/common/errors.ts`. The expressions it tests a message with
carry the flag `i` and are built of ASCII words, so they are functions on the
characters of the message in lower case: a character outside ASCII never matches one
inside.
-/

open Js Js.Json

namespace Ledger

/-! ## Thrown values -/

/-- What a promise rejects with: an error of the application, another error with its
name and message, or a value that is no error, by its text. -/
inductive Raised where
  | app (error : AppError)
  | native (name message : String)
  | value (text : String)

/-- `error instanceof Error ? error.message : String(error)`. -/
def Raised.message : Raised → String
  | .app error => error.message
  | .native _ message => message
  | .value text => text

def safeError : Raised → Json
  | .app error => .object [("name", .string "AppError"), ("message", .string error.message)]
  | .native name message => .object [("name", .string name), ("message", .string message)]
  | .value text => .object [("message", .string text)]

/-! ## Searching a text -/

/-- The text after the first occurrence of a word. -/
def afterWord (word : List Char) : List Char → Option (List Char)
  | [] => if word.isEmpty then some [] else none
  | c :: text =>
    if word.isPrefixOf (c :: text) then some ((c :: text).drop word.length)
    else afterWord word text

/-- The expression `/word/`. -/
def contains (word : String) (text : List Char) : Bool := (afterWord word.toList text).isSome

/-- The characters that `.` does not match. -/
def isLineTerminator (c : Char) : Bool :=
  c == '\n' || c == '\r' || c.toNat == 0x2028 || c.toNat == 0x2029

/-- The expression `/first.*second/`. -/
def containsInLine (first second : String) (text : List Char) : Bool :=
  text.tails.any fun rest =>
    first.toList.isPrefixOf rest &&
      contains second ((rest.drop first.length).takeWhile fun c => !isLineTerminator c)

/-- The expression `/^\s*(\d+)\s*\)/` and the number it captures. -/
def closingNumber (text : List Char) : Option Nat :=
  let text := text.dropWhile isWhiteSpace
  let digits := text.takeWhile Char.isDigit
  match digits, (text.dropWhile Char.isDigit).dropWhile isWhiteSpace with
  | _ :: _, ')' :: _ => some (digitsToNat (.ofList digits))
  | _, _ => none

/-- The number after the first comma that `/,\s*(\d+)\s*\)/` matches. -/
def firstArgument : List Char → Option Nat
  | [] => none
  | ',' :: text => (closingNumber text).or (firstArgument text)
  | _ :: text => firstArgument text

/-- The number a Move abort of the Twin module carries. The gaps of the expression are
lazy and span lines, so each word is found at its first occurrence. -/
def moveAbortCode (text : List Char) : Option Nat := do
  let text ← afterWord "moveabort(".toList text
  let text ← afterWord "oid_twin".toList text
  firstArgument text

/-! ## The classification -/

section
variable (text : List Char)

def insufficientGas : Bool := contains "insufficient gas" text

def subscriptionInactive : Bool :=
  containsInLine "subscription" "inactive" text || containsInLine "subscription" "expired" text ||
    containsInLine "subscription" "not started" text ||
    contains "e_subscription_inactive" text || contains "e_subscription_expired" text ||
    contains "e_subscription_not_started" text

def creditExhausted : Bool :=
  containsInLine "subscription" "credit" text || containsInLine "credit" "exhausted" text ||
    contains "e_subscription_credit_exhausted" text || containsInLine "insufficient" "credit" text

def twinLimit : Bool := containsInLine "twin" "limit" text || contains "e_twin_limit_reached" text

def notAuthorized : Bool :=
  contains "authoris" text || contains "authoriz" text || contains "controllercap" text ||
    contains "not allowed" text

/-- The messages after which a mutation is tried again. -/
def temporary : Bool :=
  contains "timeout" text || contains "timed out" text || contains "econnrefused" text ||
    contains "enotfound" text || contains "econnreset" text || contains "502" text ||
    contains "503" text || contains "temporar" text

/-- The messages after which a mutation is looked up before it is tried again. -/
def uncertain : Bool := contains "econnreset" text || contains "502" text || contains "503" text

end

def mapObjectIdError (error : Raised) : AppError :=
  let message := error.message
  let text := (asciiLower message).toList
  let abortCode := moveAbortCode text
  if insufficientGas text then
    { code := "IOTA_INSUFFICIENT_GAS", message, status := 503, category := .OBJECTID,
      details := [("retryable", .bool false)] }
  else if [some 19, some 20, some 21].contains abortCode || subscriptionInactive text then
    { code := "OBJECTID_SUBSCRIPTION_INACTIVE", message, status := 403, category := .CREDIT }
  else if abortCode == some 22 || creditExhausted text then
    { code := "OBJECTID_SUBSCRIPTION_CREDIT_EXHAUSTED", message, status := 402,
      category := .CREDIT }
  else if abortCode == some 23 || twinLimit text then
    { code := "OBJECTID_SUBSCRIPTION_TWIN_LIMIT", message, status := 409, category := .CREDIT }
  else if notAuthorized text then
    { code := "OBJECTID_NOT_AUTHORIZED", message, status := 403, category := .AUTHORIZATION }
  else if temporary text then
    { code := "OBJECTID_TEMPORARY_FAILURE", message, status := 503, category := .NETWORK,
      details := [("retryable", .bool true), ("submissionUnknown", .bool (uncertain text))] }
  else { code := "OBJECTID_OPERATION_FAILED", message, status := 502, category := .OBJECTID }

end Ledger
