-- SUMMARY: The incremental verifier and the batch verifier of a Digital Thread, and that they agree however the events are paged.
import TwinServer.Thread.Events

/-!
# Verifiers

`src/thread/verifier.ts` has two loops over the events of a thread: `appendPage` of the
incremental verifier, which keeps its state from page to page, and `verifyEvents`. What both
note of an event is one state here; the loops differ in the predecessor they expect of the
first event, in how transactions are checked, and in how they conclude.
-/

open Js

namespace Thread

/-! ## What a verification finds -/

inductive VerificationStatus where
  | VERIFIED | PARTIAL | FAILED | NOT_VERIFIED
  deriving DecidableEq

inductive Scope where
  | FULL_THREAD
  | REVISION_RANGE (fromRevision toRevision : Option Int)
  deriving DecidableEq

structure InvalidEvent where
  eventId : String
  errors : List String
  deriving DecidableEq

structure EventError where
  eventId : String
  error : String
  deriving DecidableEq

structure TransactionError where
  eventId : String
  digest : String
  error : String
  deriving DecidableEq

structure Gap where
  expectedRevision : Int
  foundRevision : Int
  deriving DecidableEq

/-- The fields of a result that a loop fills. -/
structure Findings where
  pagesVerified : Nat := 0
  firstRevision : Int := 0
  lastRevision : Int := 0
  eventCount : Nat := 0
  missingRevisions : List Int := []
  duplicateRevisions : List Int := []
  invalidEvents : List InvalidEvent := []
  hashErrors : List EventError := []
  transactionErrors : List TransactionError := []
  verified : Nat := 0
  failed : Nat := 0
  notVerified : Nat := 0
  gaps : List Gap := []
  deriving DecidableEq

structure ThreadVerification where
  valid : Option Bool
  complete : Bool
  reason : Option String
  scope : Scope
  twinId : String
  fromRevision : Int
  toRevision : Int
  findings : Findings
  transactionStatus : VerificationStatus
  eventEvidenceDigest : String
  errors : List String
  deriving DecidableEq

/-- `Array.from({ length: end - start }, (_, index) => start + index)`, empty unless `start < end`. -/
def range (start stop : Int) : List Int := (List.range (stop - start).toNat).map fun (i : Nat) => start + i

theorem mem_range {start stop r : Int} : r ∈ range start stop ↔ start ≤ r ∧ r < stop := by
  unfold range
  rw [List.mem_map]
  constructor
  · rintro ⟨i, hi, rfl⟩
    have := List.mem_range.mp hi
    omega
  · rintro ⟨hstart, hstop⟩
    exact ⟨(r - start).toNat, List.mem_range.mpr (by omega), by omega⟩

def transactionStatus (f : Findings) : VerificationStatus :=
  if f.failed > 0 then .FAILED
  else if f.notVerified > 0 && f.verified > 0 then .PARTIAL
  else if f.notVerified > 0 then .NOT_VERIFIED
  else .VERIFIED

/-- `transactionExists` of an indexer; the number is that of the events before, so that it may
answer differently each time it is asked. -/
abbrev TransactionCheck := Nat → String → Except Thrown (Option Bool)

/-- What a loop carries from event to event: the findings, the revisions seen, what the digest was
fed, and the event before. -/
structure Progress where
  result : Findings := {}
  seen : List Int := []
  digest : String := ""
  previous : Option TwinEvent := none

section
variable [Services]

/-- Both loops note the same of an event, given the revision expected before it and its errors. -/
def Findings.note (f : Findings) (seen : List Int) (expected : Int) (errors : List String)
    (event : TwinEvent) : Findings :=
  { f with
    duplicateRevisions := f.duplicateRevisions ++
      if seen.contains event.revisionAfter then [event.revisionAfter] else []
    gaps := f.gaps ++
      if event.revisionBefore ≠ expected then [Gap.mk expected event.revisionBefore] else []
    missingRevisions := f.missingRevisions ++
      if event.revisionBefore > expected then range (expected + 1) (event.revisionBefore + 1) else []
    hashErrors := f.hashErrors ++ (eventHashErrors event).map (EventError.mk event.eventId)
    invalidEvents := f.invalidEvents ++
      if errors.isEmpty then [] else [InvalidEvent.mk event.eventId errors] }

omit [Services] in
/-- The counters after an event. -/
def Findings.advance (f : Findings) (event : TwinEvent) : Findings :=
  { f with
    eventCount := f.eventCount + 1
    firstRevision := if f.firstRevision = 0 then event.revisionAfter else f.firstRevision
    lastRevision := event.revisionAfter }

/-! ## The incremental verifier -/

structure IncrementalThreadVerifier where
  twinId : String
  options : PaginationOptions := {}
  progress : Progress := {}

/-- The revision that is expected before the next event. -/
def IncrementalThreadVerifier.expectedBefore (v : IncrementalThreadVerifier) : Int :=
  match v.progress.previous with
  | some previous => previous.revisionAfter
  | none => v.options.fromRevision.elim 0 (· - 1)

/-- `verifyTransaction`. -/
def Findings.verifyTransaction (f : Findings) (event : TwinEvent) (exists? : Option TransactionCheck) :
    Findings :=
  match event.transactionDigest, exists? with
  | some digest, some check =>
    if digest = "" then { f with notVerified := f.notVerified + 1 }
    else match check f.eventCount digest with
      | .ok (some true) => { f with verified := f.verified + 1 }
      | .ok (some false) =>
        { f with
          failed := f.failed + 1
          transactionErrors :=
            f.transactionErrors ++ [⟨event.eventId, digest, "transaction was not found"⟩] }
      | _ => { f with notVerified := f.notVerified + 1 }
  | _, _ => { f with notVerified := f.notVerified + 1 }

/-- The body of the loop in `appendPage`. -/
def IncrementalThreadVerifier.append (exists? : Option TransactionCheck) (v : IncrementalThreadVerifier)
    (event : TwinEvent) : IncrementalThreadVerifier :=
  let p := v.progress
  let errors := eventErrors v.twinId p.previous event
  let result := p.result.note p.seen v.expectedBefore errors event
  { v with progress :=
    { result := (result.verifyTransaction event exists?).advance event
      seen := p.seen ++ [event.revisionAfter]
      digest := p.digest ++ eventEvidenceHash event
      previous := some event } }

def IncrementalThreadVerifier.countPage (v : IncrementalThreadVerifier) : IncrementalThreadVerifier :=
  { v with progress := { v.progress with
    result := { v.progress.result with pagesVerified := v.progress.result.pagesVerified + 1 } } }

def IncrementalThreadVerifier.appendPage (exists? : Option TransactionCheck)
    (v : IncrementalThreadVerifier) (events : List TwinEvent) : IncrementalThreadVerifier :=
  events.foldl (append exists?) v.countPage

/-- The three kinds of errors of a result, under the ids of their events. -/
def Findings.errors (f : Findings) : List String :=
  (f.invalidEvents.flatMap fun item => item.errors.map (item.eventId ++ ": " ++ ·)) ++
    f.hashErrors.map (fun item => item.eventId ++ ": " ++ item.error) ++
    f.transactionErrors.map fun item => item.eventId ++ ": " ++ item.error

/-- The revisions that are missing at the end of a range. -/
def IncrementalThreadVerifier.tail (v : IncrementalThreadVerifier) : List Int :=
  match v.options.toRevision with
  | some toRevision =>
    if v.progress.result.lastRevision < toRevision
    then range (v.progress.result.lastRevision + 1) (toRevision + 1) else []
  | none => []

def IncrementalThreadVerifier.finish (v : IncrementalThreadVerifier) (complete : Bool)
    (reason : Option String := none) : ThreadVerification :=
  let f := v.progress.result
  let missingRevisions := f.missingRevisions ++ if complete then v.tail else []
  let f := { f with
    duplicateRevisions := f.duplicateRevisions.eraseDups
    missingRevisions := missingRevisions.eraseDups }
  let invalid := !f.errors.isEmpty || !f.gaps.isEmpty || !f.duplicateRevisions.isEmpty ||
    !f.missingRevisions.isEmpty
  { findings := f
    scope := if v.options.fromRevision.isSome || v.options.toRevision.isSome
      then .REVISION_RANGE v.options.fromRevision v.options.toRevision else .FULL_THREAD
    twinId := v.twinId
    complete := complete
    reason := if complete then none
      else some (reason.getD "Indexer/provider cannot enumerate the complete requested range")
    valid := if complete then some !invalid else none
    fromRevision := v.options.fromRevision.getD
      (if f.firstRevision = 0 then 0 else f.firstRevision - 1)
    toRevision := v.options.toRevision.getD f.lastRevision
    transactionStatus := transactionStatus f
    eventEvidenceDigest := "sha256:" ++ sha256 v.progress.digest
    errors := f.errors }

omit [Services] in
theorem eraseDups_isEmpty (l : List Int) : l.eraseDups.isEmpty = l.isEmpty := by
  cases l with
  | nil => rfl
  | cons a l => rw [List.eraseDups_cons]; rfl

/-- A complete thread is valid when nothing was found. -/
theorem valid_finish (v : IncrementalThreadVerifier) (reason : Option String) :
    (v.finish true reason).valid = some (v.progress.result.errors.isEmpty &&
      v.progress.result.gaps.isEmpty && v.progress.result.duplicateRevisions.isEmpty &&
      (v.progress.result.missingRevisions ++ v.tail).isEmpty) := by
  have herrors (f : Findings) (duplicates missing : List Int) :
      Findings.errors { f with duplicateRevisions := duplicates, missingRevisions := missing } =
        f.errors := rfl
  simp only [IncrementalThreadVerifier.finish, herrors, if_true, eraseDups_isEmpty, Bool.not_or,
    Bool.not_not]

theorem mem_missingRevisions_finish (v : IncrementalThreadVerifier) (reason : Option String) (r : Int) :
    r ∈ (v.finish true reason).findings.missingRevisions ↔
      r ∈ v.progress.result.missingRevisions ∨ r ∈ v.tail :=
  List.mem_eraseDups.trans List.mem_append

/-! ## The batch verifier -/

/-- The body of the loop in `verifyEvents`. -/
def verifyEvent (twinId : String) (p : Progress) (event : TwinEvent) : Progress :=
  let expected := p.previous.elim 0 TwinEvent.revisionAfter
  let errors := eventErrors twinId p.previous event
  let result := p.result.note p.seen expected errors event
  { result := { result with notVerified := result.notVerified + 1 }.advance event
    seen := p.seen ++ [event.revisionAfter]
    digest := p.digest ++ eventEvidenceHash event
    previous := some event }

/-- What `verifyEvents` returns after its loop. -/
def conclude (twinId : String) (p : Progress) : ThreadVerification :=
  let f := p.result
  let errors := f.invalidEvents.flatMap InvalidEvent.errors ++ f.hashErrors.map EventError.error
  { findings := f
    scope := .FULL_THREAD
    twinId := twinId
    complete := true
    reason := none
    valid := some (errors.isEmpty && f.gaps.isEmpty && f.duplicateRevisions.isEmpty)
    fromRevision := if f.firstRevision = 0 then 0 else f.firstRevision - 1
    toRevision := f.lastRevision
    transactionStatus := .NOT_VERIFIED
    eventEvidenceDigest := "sha256:" ++ sha256 p.digest
    errors := errors }

def verifyEvents (twinId : String) (events : List TwinEvent) : ThreadVerification :=
  conclude twinId (events.foldl (verifyEvent twinId) { result := { pagesVerified := 1 } })

/-! ## Pages -/

/-- The progress with another number of pages. -/
def Progress.withPages (p : Progress) (pages : Nat) : Progress :=
  { p with result := { p.result with pagesVerified := pages } }

def IncrementalThreadVerifier.withPages (v : IncrementalThreadVerifier) (pages : Nat) :
    IncrementalThreadVerifier :=
  { v with progress := v.progress.withPages pages }

omit [Services] in
theorem verifyTransaction_withPages (f : Findings) (event : TwinEvent)
    (exists? : Option TransactionCheck) (pages : Nat) :
    Findings.verifyTransaction { f with pagesVerified := pages } event exists? =
      { f.verifyTransaction event exists? with pagesVerified := pages } := by
  unfold Findings.verifyTransaction
  cases event.transactionDigest with
  | none => rfl
  | some digest =>
    cases exists? with
    | none => rfl
    | some check =>
      dsimp only
      by_cases hempty : digest = ""
      · rw [if_pos hempty, if_pos hempty]
      · rw [if_neg hempty, if_neg hempty]
        rcases check f.eventCount digest with error | _ | _ | _ <;> rfl

theorem append_withPages (exists? : Option TransactionCheck) (v : IncrementalThreadVerifier)
    (pages : Nat) (event : TwinEvent) :
    (v.withPages pages).append exists? event = (v.append exists? event).withPages pages := by
  have htransaction := verifyTransaction_withPages
    (v.progress.result.note v.progress.seen v.expectedBefore
      (eventErrors v.twinId v.progress.previous event) event) event exists? pages
  unfold IncrementalThreadVerifier.append IncrementalThreadVerifier.withPages Progress.withPages
  exact congrArg (fun f : Findings => IncrementalThreadVerifier.mk v.twinId v.options
    ⟨f.advance event, _, _, _⟩) htransaction

theorem foldl_append_withPages (exists? : Option TransactionCheck) (events : List TwinEvent)
    (v : IncrementalThreadVerifier) (pages : Nat) :
    events.foldl (IncrementalThreadVerifier.append exists?) (v.withPages pages) =
      (events.foldl (IncrementalThreadVerifier.append exists?) v).withPages pages := by
  induction events generalizing v with
  | nil => rfl
  | cons event events ih => rw [List.foldl_cons, List.foldl_cons, append_withPages, ih]

/-- Pages leave behind what their events leave behind, but for the number of pages. -/
theorem foldl_appendPage (exists? : Option TransactionCheck) (pages : List (List TwinEvent))
    (v : IncrementalThreadVerifier) :
    ∃ n, pages.foldl (IncrementalThreadVerifier.appendPage exists?) v =
      (pages.flatten.foldl (IncrementalThreadVerifier.append exists?) v).withPages n := by
  induction pages generalizing v with
  | nil => exact ⟨v.progress.result.pagesVerified, rfl⟩
  | cons page pages ih =>
      have hpage : v.appendPage exists? page =
          (page.foldl (IncrementalThreadVerifier.append exists?) v).withPages _ :=
        foldl_append_withPages exists? page v (v.progress.result.pagesVerified + 1)
      obtain ⟨n, hn⟩ := ih (v.appendPage exists? page)
      refine ⟨n, ?_⟩
      rw [List.foldl_cons, hn, hpage, foldl_append_withPages, List.flatten_cons, List.foldl_append]
      rfl

/-! ## The two verifiers agree -/

/-- Without options and without a check of transactions an event is treated alike. -/
theorem append_none (twinId : String) (p : Progress) (event : TwinEvent) :
    IncrementalThreadVerifier.append none ⟨twinId, {}, p⟩ event =
      ⟨twinId, {}, verifyEvent twinId p event⟩ := by
  have hexpected : IncrementalThreadVerifier.expectedBefore ⟨twinId, {}, p⟩ =
      p.previous.elim 0 TwinEvent.revisionAfter := by
    unfold IncrementalThreadVerifier.expectedBefore
    cases p.previous <;> rfl
  have htransaction (f : Findings) :
      f.verifyTransaction event none = { f with notVerified := f.notVerified + 1 } := by
    unfold Findings.verifyTransaction
    cases event.transactionDigest <;> rfl
  unfold IncrementalThreadVerifier.append verifyEvent
  simp only [hexpected, htransaction]

theorem foldl_append_none (twinId : String) (events : List TwinEvent) (p : Progress) :
    events.foldl (IncrementalThreadVerifier.append none) ⟨twinId, {}, p⟩ =
      ⟨twinId, {}, events.foldl (verifyEvent twinId) p⟩ := by
  induction events generalizing p with
  | nil => rfl
  | cons event events ih => rw [List.foldl_cons, List.foldl_cons, append_none, ih]

/-- Without a check no transaction fails, and a missing revision leaves a gap. -/
structure Progress.Unchecked (p : Progress) : Prop where
  transactions : p.result.transactionErrors = []
  missing : p.result.gaps = [] → p.result.missingRevisions = []

theorem Progress.Unchecked.verifyEvent {p : Progress} (h : p.Unchecked) (twinId : String)
    (event : TwinEvent) : (verifyEvent twinId p event).Unchecked := by
  refine ⟨h.transactions, fun hgaps => ?_⟩
  simp only [Thread.verifyEvent, Findings.note, Findings.advance, List.append_eq_nil_iff] at hgaps ⊢
  refine ⟨h.missing hgaps.1, if_neg fun hgt => ?_⟩
  have hne : event.revisionBefore ≠ p.previous.elim 0 TwinEvent.revisionAfter := by omega
  rw [if_pos hne] at hgaps
  cases hgaps.2

theorem Progress.Unchecked.foldl {p : Progress} (h : p.Unchecked) (twinId : String)
    (events : List TwinEvent) : (events.foldl (Thread.verifyEvent twinId) p).Unchecked := by
  induction events generalizing p with
  | nil => exact h
  | cons event events ih => exact ih (h.verifyEvent twinId event)

/-- Two results agree on the verdict and on everything found, revisions that are missing or repeated
being compared as sets. -/
structure Agree (v w : ThreadVerification) : Prop where
  valid : v.valid = w.valid
  gaps : v.findings.gaps = w.findings.gaps
  eventCount : v.findings.eventCount = w.findings.eventCount
  firstRevision : v.findings.firstRevision = w.findings.firstRevision
  lastRevision : v.findings.lastRevision = w.findings.lastRevision
  fromRevision : v.fromRevision = w.fromRevision
  toRevision : v.toRevision = w.toRevision
  invalidEvents : v.findings.invalidEvents = w.findings.invalidEvents
  hashErrors : v.findings.hashErrors = w.findings.hashErrors
  eventEvidenceDigest : v.eventEvidenceDigest = w.eventEvidenceDigest
  duplicateRevisions : ∀ r, r ∈ v.findings.duplicateRevisions ↔ r ∈ w.findings.duplicateRevisions
  missingRevisions : ∀ r, r ∈ v.findings.missingRevisions ↔ r ∈ w.findings.missingRevisions

omit [Services] in
/-- The texts of the errors differ, but not whether there are any. -/
theorem errors_isEmpty (f : Findings) (h : f.transactionErrors = []) :
    f.errors.isEmpty =
      (f.invalidEvents.flatMap InvalidEvent.errors ++ f.hashErrors.map EventError.error).isEmpty := by
  rw [Bool.eq_iff_iff]
  simp only [Findings.errors, h, List.isEmpty_iff, List.append_eq_nil_iff, List.flatMap_eq_nil_iff,
    List.map_eq_nil_iff, List.map_nil, and_true]

theorem finish_agrees_conclude (twinId : String) {p : Progress} (h : p.Unchecked) (pages : Nat) :
    Agree (IncrementalThreadVerifier.finish ⟨twinId, {}, p.withPages pages⟩ true)
      (conclude twinId p) where
  valid := by
    have htail : (IncrementalThreadVerifier.tail ⟨twinId, {}, p.withPages pages⟩) = [] := rfl
    have herrors : (p.withPages pages).result.errors = p.result.errors := rfl
    rw [valid_finish, htail, List.append_nil, herrors, errors_isEmpty _ h.transactions]
    show some (_ && p.result.gaps.isEmpty && p.result.duplicateRevisions.isEmpty &&
      p.result.missingRevisions.isEmpty) = some (_ && _ && _)
    cases hgaps : p.result.gaps with
    | nil => rw [h.missing hgaps, List.isEmpty_nil, List.isEmpty_nil, Bool.and_true]
    | cons gap gaps => simp only [List.isEmpty_cons, Bool.and_false, Bool.false_and]
  gaps := rfl
  eventCount := rfl
  firstRevision := rfl
  lastRevision := rfl
  fromRevision := rfl
  toRevision := rfl
  invalidEvents := rfl
  hashErrors := rfl
  eventEvidenceDigest := rfl
  duplicateRevisions _ := List.mem_eraseDups
  missingRevisions _ := (mem_missingRevisions_finish _ _ _).trans (or_iff_left List.not_mem_nil)

/-- **Paging does not matter**: pages that are appended one after the other give the result that one
pass over all their events gives. -/
theorem finish_agrees_verifyEvents (twinId : String) (pages : List (List TwinEvent)) :
    Agree ((pages.foldl (IncrementalThreadVerifier.appendPage none) ⟨twinId, {}, {}⟩).finish true)
      (verifyEvents twinId pages.flatten) := by
  let start : Progress := { result := { pagesVerified := 1 } }
  obtain ⟨n, hn⟩ := foldl_appendPage none pages ⟨twinId, {}, start.withPages 0⟩
  have hstart := foldl_append_withPages none pages.flatten ⟨twinId, {}, start⟩ 0
  have hpages : pages.foldl (IncrementalThreadVerifier.appendPage none) ⟨twinId, {}, {}⟩ =
      ⟨twinId, {}, (pages.flatten.foldl (verifyEvent twinId) start).withPages n⟩ := by
    refine hn.trans ?_
    refine (congrArg (fun v : IncrementalThreadVerifier => v.withPages n) hstart).trans ?_
    rw [foldl_append_none]
    rfl
  have hunchecked : (pages.flatten.foldl (verifyEvent twinId) start).Unchecked :=
    Progress.Unchecked.foldl ⟨rfl, fun _ => rfl⟩ twinId _
  rw [hpages]
  exact finish_agrees_conclude twinId hunchecked n

end

end Thread
