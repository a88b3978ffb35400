-- SUMMARY: When the classification of a Move abort is final, and when the text around the abort makes it another error.
import Mathlib.Data.List.Infix
import TwinServer.Ledger.Errors

/-!
# Aborts of the Twin module

An abort with one of the codes 19 to 23 is an error of the subscription, and no abort is worth another attempt. But the
classification looks at the whole message: the words of a class that is tested earlier take the abort away from its
own, and the marks of a temporary failure are looked for in object ids and numbers as well.
-/

open Js Js.Json

namespace Ledger

/-! ## The two promises -/

/-- The text that the expressions are tested on. -/
def Raised.lowered (error : Raised) : List Char := (asciiLower error.message).toList

/-- The error of the subscription that an abort code stands for. -/
def creditCode (abortCode : Nat) : Option String :=
  if abortCode ∈ [19, 20, 21] then some "OBJECTID_SUBSCRIPTION_INACTIVE"
  else if abortCode = 22 then some "OBJECTID_SUBSCRIPTION_CREDIT_EXHAUSTED"
  else if abortCode = 23 then some "OBJECTID_SUBSCRIPTION_TWIN_LIMIT"
  else none

/-- `error.details.retryable === true`. -/
def AppError.retryable (error : AppError) : Bool :=
  match Record.get? error.details "retryable" with
  | some (.bool b) => b
  | _ => false

/-- The abort is not tried again, and one of a subscription is reported as that of the subscription. -/
structure Definite (error : Raised) (abortCode : Nat) : Prop where
  final : AppError.retryable (mapObjectIdError error) = false
  credit : ∀ code, creditCode abortCode = some code →
    (mapObjectIdError error).code = code ∧ (mapObjectIdError error).category = .CREDIT

/-! ## The text around an abort -/

/-- The text has the words of a class before the one that is temporary. -/
def hasWords (text : List Char) : Bool :=
  insufficientGas text || subscriptionInactive text || creditExhausted text || twinLimit text || notAuthorized text

/-- No class that is tested before that of the abort finds its words. -/
def Undisturbed (text : List Char) (abortCode : Nat) : Prop :=
  if abortCode ∈ [19, 20, 21] then insufficientGas text = false
  else if abortCode = 22 then insufficientGas text = false ∧ subscriptionInactive text = false
  else if abortCode = 23 then
    insufficientGas text = false ∧ subscriptionInactive text = false ∧ creditExhausted text = false
  else temporary text = true → hasWords text = true

/-! ## The classes of an abort -/

section
variable {error : Raised} {abortCode : Nat}

theorem mapObjectIdError_inactive (h : moveAbortCode error.lowered = some abortCode) (hcode : abortCode ∈ [19, 20, 21])
    (hgas : insufficientGas error.lowered = false) :
    mapObjectIdError error = { code := "OBJECTID_SUBSCRIPTION_INACTIVE", message := error.message, status := 403,
                               category := .CREDIT } := by
  have hmem : [some 19, some 20, some 21].contains (moveAbortCode error.lowered) = true := by
    rw [h]
    simpa using hcode
  unfold Raised.lowered at hgas hmem
  simp only [mapObjectIdError, hgas, hmem, Bool.true_or, Bool.false_eq_true, if_false, if_true]

theorem mapObjectIdError_exhausted (h : moveAbortCode error.lowered = some 22)
    (hgas : insufficientGas error.lowered = false) (hinactive : subscriptionInactive error.lowered = false) :
    mapObjectIdError error = { code := "OBJECTID_SUBSCRIPTION_CREDIT_EXHAUSTED", message := error.message, status := 402,
                               category := .CREDIT } := by
  unfold Raised.lowered at h hgas hinactive
  simp [mapObjectIdError, h, hgas, hinactive]

theorem mapObjectIdError_limit (h : moveAbortCode error.lowered = some 23)
    (hgas : insufficientGas error.lowered = false) (hinactive : subscriptionInactive error.lowered = false)
    (hcredit : creditExhausted error.lowered = false) :
    mapObjectIdError error = { code := "OBJECTID_SUBSCRIPTION_TWIN_LIMIT", message := error.message, status := 409,
                               category := .CREDIT } := by
  unfold Raised.lowered at h hgas hinactive hcredit
  simp [mapObjectIdError, h, hgas, hinactive, hcredit]

/-- A message of another class than that of the gas does not speak of it. -/
theorem insufficientGas_eq_false (h : (mapObjectIdError error).code ≠ "IOTA_INSUFFICIENT_GAS") :
    insufficientGas error.lowered = false := by
  refine Bool.eq_false_iff.mpr fun hgas => h ?_
  unfold Raised.lowered at hgas
  simp [mapObjectIdError, hgas]

theorem subscriptionInactive_eq_false (hgas : insufficientGas error.lowered = false)
    (h : (mapObjectIdError error).code ≠ "OBJECTID_SUBSCRIPTION_INACTIVE") :
    subscriptionInactive error.lowered = false := by
  refine Bool.eq_false_iff.mpr fun hinactive => h ?_
  unfold Raised.lowered at hgas hinactive
  simp [mapObjectIdError, hgas, hinactive]

theorem creditExhausted_eq_false (hcode : moveAbortCode error.lowered = some 23)
    (hgas : insufficientGas error.lowered = false) (hinactive : subscriptionInactive error.lowered = false)
    (h : (mapObjectIdError error).code ≠ "OBJECTID_SUBSCRIPTION_CREDIT_EXHAUSTED") :
    creditExhausted error.lowered = false := by
  refine Bool.eq_false_iff.mpr fun hcredit => h ?_
  unfold Raised.lowered at hcode hgas hinactive hcredit
  simp [mapObjectIdError, hcode, hgas, hinactive, hcredit]

/-- Any other abort is tried again exactly when only the marks of a temporary failure are found. -/
theorem retryable_iff (h : moveAbortCode error.lowered = some abortCode) (hcode : creditCode abortCode = none) :
    AppError.retryable (mapObjectIdError error) = true ↔
      temporary error.lowered = true ∧ hasWords error.lowered = false := by
  have hother : [some 19, some 20, some 21].contains (moveAbortCode error.lowered) = false ∧
      (moveAbortCode error.lowered == some 22) = false ∧ (moveAbortCode error.lowered == some 23) = false := by
    rw [h]
    unfold creditCode at hcode
    split at hcode
    · cases hcode
    · split at hcode
      · cases hcode
      · split at hcode
        · cases hcode
        · simp_all
  unfold Raised.lowered at hother ⊢
  obtain ⟨hinactive, hexhausted, hlimit⟩ := hother
  simp only [mapObjectIdError, hasWords, hinactive, hexhausted, hlimit, Bool.false_or, Bool.or_eq_false_iff]
  -- the first class whose words are found decides
  cases insufficientGas _ with
  | true => simp [AppError.retryable, Record.get?_cons]
  | false =>
    cases subscriptionInactive _ with
    | true => simp [AppError.retryable]
    | false =>
      cases creditExhausted _ with
      | true => simp [AppError.retryable]
      | false =>
        cases twinLimit _ with
        | true => simp [AppError.retryable]
        | false =>
          cases notAuthorized _ with
          | true => simp [AppError.retryable]
          | false =>
            cases temporary _ with
            | true => simp [AppError.retryable, Record.get?_cons]
            | false => simp [AppError.retryable]

end

/-- **Definite aborts.** An abort is final, and reported as the error of the subscription that it is, exactly when the
text around it has neither the words of a class that is tested earlier nor, for an abort of no subscription, only
the marks of a temporary failure. -/
theorem definite_iff {error : Raised} {abortCode : Nat} (h : moveAbortCode error.lowered = some abortCode) :
    Definite error abortCode ↔ Undisturbed error.lowered abortCode := by
  unfold Undisturbed
  split
  case isTrue hcode =>
    have hcredit : creditCode abortCode = some "OBJECTID_SUBSCRIPTION_INACTIVE" := if_pos hcode
    constructor
    · rintro ⟨-, hcode'⟩
      exact insufficientGas_eq_false (by rw [(hcode' _ hcredit).1]; simp)
    · intro hgas
      have hclass := mapObjectIdError_inactive h hcode hgas
      refine ⟨by rw [hclass]; rfl, fun code hsome => ?_⟩
      obtain rfl := Option.some.inj (hcredit.symm.trans hsome)
      exact ⟨by rw [hclass], by rw [hclass]⟩
  case isFalse hinactive =>
    split
    case isTrue hcode =>
      subst hcode
      constructor
      · rintro ⟨-, hcode'⟩
        have hclass := (hcode' _ rfl).1
        have hgas := insufficientGas_eq_false (by rw [hclass]; simp)
        exact ⟨hgas, subscriptionInactive_eq_false hgas (by rw [hclass]; simp)⟩
      · rintro ⟨hgas, hinactive⟩
        have hclass := mapObjectIdError_exhausted h hgas hinactive
        refine ⟨by rw [hclass]; rfl, fun code hsome => ?_⟩
        obtain rfl := Option.some.inj hsome
        exact ⟨by rw [hclass], by rw [hclass]⟩
    case isFalse hexhausted =>
      split
      case isTrue hcode =>
        subst hcode
        constructor
        · rintro ⟨-, hcode'⟩
          have hclass := (hcode' _ rfl).1
          have hgas := insufficientGas_eq_false (by rw [hclass]; simp)
          have hinactive := subscriptionInactive_eq_false hgas (by rw [hclass]; simp)
          exact ⟨hgas, hinactive, creditExhausted_eq_false h hgas hinactive (by rw [hclass]; simp)⟩
        · rintro ⟨hgas, hinactive, hcredit⟩
          have hclass := mapObjectIdError_limit h hgas hinactive hcredit
          refine ⟨by rw [hclass]; rfl, fun code hsome => ?_⟩
          obtain rfl := Option.some.inj hsome
          exact ⟨by rw [hclass], by rw [hclass]⟩
      case isFalse hlimit =>
        have hcode : creditCode abortCode = none := by simp [creditCode, hinactive, hexhausted, hlimit]
        have hretryable := retryable_iff h hcode
        constructor
        · rintro ⟨hfinal, -⟩ htemporary
          cases hwords : hasWords error.lowered with
          | true => rfl
          | false =>
            rw [hretryable.mpr ⟨htemporary, hwords⟩] at hfinal
            cases hfinal
        · intro hwords
          refine ⟨Bool.eq_false_iff.mpr fun hretry => ?_, fun code hsome => ?_⟩
          · obtain ⟨htemporary, hnone⟩ := hretryable.mp hretry
            rw [hwords htemporary] at hnone
            cases hnone
          · rw [hcode] at hsome
            cases hsome

/-! ## Reports of the chain -/

/-- The report of an abort in the Twin module, by the id of its package. -/
def abortReport (package : String) (abortCode : Nat) : Raised :=
  .native "Error" ("MoveAbort(MoveLocation \x7b module: ModuleId \x7b address: " ++ package ++
    ", name: Identifier(\"oid_twin\") \x7d, function: 3, instruction: 17 \x7d, " ++ abortCode.repr ++ ") in command 0")

theorem lowered_abortReport (package : String) (abortCode : Nat) : (abortReport package abortCode).lowered =
    ("MoveAbort(MoveLocation \x7b module: ModuleId \x7b address: ".toList ++ package.toList ++
      ", name: Identifier(\"oid_twin\") \x7d, function: 3, instruction: 17 \x7d, ".toList ++ abortCode.repr.toList ++
        ") in command 0".toList).map Char.toLower := by
  rw [Raised.lowered, asciiLower, String.toList_ofList, abortReport, Raised.message]
  simp only [String.toList_append]

theorem definite_iff_exhausted : Definite (abortReport "0x2a" 22) 22 ↔ Undisturbed (abortReport "0x2a" 22).lowered 22 :=
  definite_iff (by rw [lowered_abortReport]; decide +kernel)

/-- An abort is tried again because the id of the package has the digits 502 in it. -/
theorem package_id_is_retried : ¬ ∀ error abortCode, moveAbortCode error.lowered = some abortCode →
    Definite error abortCode := by
  intro h
  have hcode : moveAbortCode (abortReport "0x7502e1" 7).lowered = some 7 := by
    rw [lowered_abortReport]
    decide +kernel
  have hretryable : AppError.retryable (mapObjectIdError (abortReport "0x7502e1" 7)) = true := by
    refine (retryable_iff hcode rfl).mpr ⟨?_, ?_⟩
    · rw [lowered_abortReport]
      decide +kernel
    · rw [lowered_abortReport]
      decide +kernel
  rw [(h _ _ hcode).final] at hretryable
  cases hretryable

end Ledger
