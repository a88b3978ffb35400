-- SUMMARY: A full thread is valid exactly when its events are one contiguous chain of sound events of the Twin.
import TwinServer.Thread.Service

/-!
# Verdicts

What one event adds to the findings, and from it, by induction, when a whole enumeration has
found nothing. Without bounds that is the case exactly for a chain `0 → 1 → ... → n`.
-/

open Js

namespace Thread

section
variable [Services]

/-! ## One event -/

/-- The checker reports that the transaction of the event, which follows `n` others, is absent. -/
def Absent (exists? : Option TransactionCheck) (n : Nat) (event : TwinEvent) : Prop :=
  ∃ check digest, exists? = some check ∧ event.transactionDigest = some digest ∧ digest ≠ "" ∧
    check n digest = .ok (some false)

omit [Services] in
theorem errors_eq_nil {f : Findings} :
    f.errors = [] ↔ (∀ item ∈ f.invalidEvents, item.errors = []) ∧ f.hashErrors = [] ∧
      f.transactionErrors = [] := by
  simp only [Findings.errors, List.append_eq_nil_iff, List.flatMap_eq_nil_iff, List.map_eq_nil_iff,
    and_assoc]

omit [Services] in
theorem absent_iff {check : TransactionCheck} {n : Nat} {event : TwinEvent} {digest : String}
    (h : event.transactionDigest = some digest) :
    Absent (some check) n event ↔ digest ≠ "" ∧ check n digest = .ok (some false) := by
  constructor
  · rintro ⟨check', digest', hcheck, hdigest, hne, hfalse⟩
    obtain rfl := Option.some.inj hcheck
    obtain rfl := Option.some.inj (h.symm.trans hdigest)
    exact ⟨hne, hfalse⟩
  · exact fun ⟨hne, hfalse⟩ => ⟨check, digest, rfl, h, hne, hfalse⟩

omit [Services] in
/-- The check of a transaction counts, and adds an error when the transaction is absent. -/
theorem verifyTransaction_cases (f : Findings) (event : TwinEvent) (exists? : Option TransactionCheck) :
    ∃ verified failed notVerified errors,
      (errors = [] ↔ ¬ Absent exists? f.eventCount event) ∧
      f.verifyTransaction event exists? = { f with
        verified, failed, notVerified, transactionErrors := f.transactionErrors ++ errors } := by
  unfold Findings.verifyTransaction
  cases hdigest : event.transactionDigest with
  | none =>
    refine ⟨_, _, _, [], iff_of_true rfl ?_, by rw [List.append_nil]⟩
    rintro ⟨check, digest, -, hsome, -⟩
    rw [hdigest] at hsome
    cases hsome
  | some digest =>
    cases exists? with
    | none =>
      refine ⟨_, _, _, [], iff_of_true rfl ?_, by rw [List.append_nil]⟩
      rintro ⟨check, digest, hcheck, -⟩
      cases hcheck
    | some check =>
      simp only [absent_iff hdigest, not_and]
      split
      case isTrue hempty =>
        exact ⟨_, _, _, [], iff_of_true rfl fun hne => absurd hempty hne, by rw [List.append_nil]⟩
      case isFalse hne =>
        split
        · rename_i hanswer
          exact ⟨_, _, _, [], by simp [hanswer], by rw [List.append_nil]⟩
        · rename_i hanswer
          exact ⟨_, _, _, [⟨event.eventId, digest, "transaction was not found"⟩],
            by simp [hanswer, hne], rfl⟩
        · rename_i hfalse
          exact ⟨_, _, _, [], iff_of_true rfl fun _ => hfalse, by rw [List.append_nil]⟩

/-- What is found after one more event. -/
theorem append_result (exists? : Option TransactionCheck) (v : IncrementalThreadVerifier)
    (event : TwinEvent) :
    ∃ verified failed notVerified absent,
      (absent = [] ↔ ¬ Absent exists? v.progress.result.eventCount event) ∧
      (v.append exists? event).progress.result =
        { v.progress.result.note v.progress.seen v.expectedBefore
            (eventErrors v.twinId v.progress.previous event) event with
          verified, failed, notVerified
          transactionErrors := v.progress.result.transactionErrors ++ absent
          eventCount := v.progress.result.eventCount + 1
          firstRevision := if v.progress.result.firstRevision = 0 then event.revisionAfter
            else v.progress.result.firstRevision
          lastRevision := event.revisionAfter } := by
  obtain ⟨verified, failed, notVerified, absent, hpresent, heq⟩ := verifyTransaction_cases
    (v.progress.result.note v.progress.seen v.expectedBefore
      (eventErrors v.twinId v.progress.previous event) event) event exists?
  refine ⟨verified, failed, notVerified, absent, hpresent, ?_⟩
  unfold IncrementalThreadVerifier.append
  dsimp only
  rw [heq]
  rfl

section
variable (exists? : Option TransactionCheck) (v : IncrementalThreadVerifier) (event : TwinEvent)

@[simp] theorem append_twinId : (v.append exists? event).twinId = v.twinId := rfl

@[simp] theorem append_options : (v.append exists? event).options = v.options := rfl

@[simp] theorem append_expectedBefore :
    (v.append exists? event).expectedBefore = event.revisionAfter := rfl

@[simp] theorem append_seen :
    (v.append exists? event).progress.seen = v.progress.seen ++ [event.revisionAfter] := rfl

@[simp] theorem append_lastRevision :
    (v.append exists? event).progress.result.lastRevision = event.revisionAfter := rfl

@[simp] theorem append_eventCount :
    (v.append exists? event).progress.result.eventCount = v.progress.result.eventCount + 1 := by
  obtain ⟨_, _, _, _, -, heq⟩ := append_result exists? v event
  rw [heq]

@[simp] theorem append_duplicateRevisions :
    (v.append exists? event).progress.result.duplicateRevisions =
      v.progress.result.duplicateRevisions ++
        if v.progress.seen.contains event.revisionAfter then [event.revisionAfter] else [] := by
  obtain ⟨_, _, _, _, -, heq⟩ := append_result exists? v event
  rw [heq]
  rfl

@[simp] theorem append_gaps :
    (v.append exists? event).progress.result.gaps = v.progress.result.gaps ++
      if event.revisionBefore ≠ v.expectedBefore
      then [Gap.mk v.expectedBefore event.revisionBefore] else [] := by
  obtain ⟨_, _, _, _, -, heq⟩ := append_result exists? v event
  rw [heq]
  rfl

@[simp] theorem append_missingRevisions :
    (v.append exists? event).progress.result.missingRevisions = v.progress.result.missingRevisions ++
      if event.revisionBefore > v.expectedBefore
      then range (v.expectedBefore + 1) (event.revisionBefore + 1) else [] := by
  obtain ⟨_, _, _, _, -, heq⟩ := append_result exists? v event
  rw [heq]
  rfl

theorem append_errors_eq_nil :
    (v.append exists? event).progress.result.errors = [] ↔
      v.progress.result.errors = [] ∧ eventErrors v.twinId v.progress.previous event = [] ∧
        eventHashErrors event = [] ∧ ¬ Absent exists? v.progress.result.eventCount event := by
  obtain ⟨_, _, _, absent, hpresent, heq⟩ := append_result exists? v event
  generalize eventErrors v.twinId v.progress.previous event = errors at heq ⊢
  have hitem : (∀ item ∈ (if errors.isEmpty then [] else [InvalidEvent.mk event.eventId errors]),
      item.errors = []) ↔ errors = [] := by
    cases errors with
    | nil => simp
    | cons e errors => simp
  rw [heq, ← hpresent]
  simp only [errors_eq_nil, Findings.note, List.forall_mem_append, hitem, List.append_eq_nil_iff,
    List.map_eq_nil_iff]
  tauto

end

/-- The events are the chain `n → n + 1 → ...`, in that order. -/
def Contiguous : Int → List TwinEvent → Prop
  | _, [] => True
  | n, event :: events =>
    event.revisionBefore = n ∧ event.revisionAfter = n + 1 ∧ Contiguous (n + 1) events

/-- Every event is sound and none has a transaction that the checker reports absent, given how many
events came before. -/
def Accepted (exists? : Option TransactionCheck) (twinId : String) (n : Nat) (events : List TwinEvent) :
    Prop :=
  ∀ i event, events[i]? = some event → Sound twinId event ∧ ¬ Absent exists? (n + i) event

theorem accepted_cons {exists? : Option TransactionCheck} {twinId : String} {n : Nat}
    {event : TwinEvent} {events : List TwinEvent} :
    Accepted exists? twinId n (event :: events) ↔
      (Sound twinId event ∧ ¬ Absent exists? n event) ∧ Accepted exists? twinId (n + 1) events := by
  constructor
  · intro h
    refine ⟨h 0 event rfl, fun i e he => ?_⟩
    have hnext := h (i + 1) e he
    rwa [← Nat.add_assoc, Nat.add_right_comm] at hnext
  · rintro ⟨hevent, hrest⟩ i e he
    cases i with
    | zero =>
      obtain rfl := Option.some.inj he
      exact hevent
    | succ i =>
      have hnext := hrest i e he
      rwa [Nat.add_right_comm, Nat.add_assoc] at hnext

/-- No revision was seen beyond the one the next event is expected to start from. -/
def IncrementalThreadVerifier.Ascending (v : IncrementalThreadVerifier) : Prop :=
  ∀ r ∈ v.progress.seen, r ≤ v.expectedBefore

theorem IncrementalThreadVerifier.Ascending.append {v : IncrementalThreadVerifier} (h : v.Ascending)
    (exists? : Option TransactionCheck) {event : TwinEvent} (hlt : v.expectedBefore < event.revisionAfter) :
    (v.append exists? event).Ascending := by
  intro r hr
  rw [append_seen, List.mem_append, List.mem_singleton] at hr
  rw [append_expectedBefore]
  rcases hr with hr | rfl
  · exact Int.le_of_lt (Int.lt_of_le_of_lt (h r hr) hlt)
  · exact Int.le_refl _

/-- A sound event that starts no earlier than expected has no errors. -/
theorem errors_of_sound {v : IncrementalThreadVerifier} {event : TwinEvent}
    (hsound : Sound v.twinId event) (hstep : event.revisionAfter = event.revisionBefore + 1)
    (hbefore : v.expectedBefore ≤ event.revisionBefore) :
    eventErrors v.twinId v.progress.previous event = [] ∧ eventHashErrors event = [] := by
  refine errors_eq_nil_iff.mpr ⟨hsound, hstep, fun p hp => ?_⟩
  have hexpected : v.expectedBefore = p.revisionAfter := by
    unfold IncrementalThreadVerifier.expectedBefore
    rw [hp]
  exact Int.le_of_lt (compareEvents_of_lt (by omega))

theorem foldl_append_options (exists? : Option TransactionCheck) (events : List TwinEvent)
    (v : IncrementalThreadVerifier) :
    (events.foldl (IncrementalThreadVerifier.append exists?) v).options = v.options := by
  induction events generalizing v with
  | nil => rfl
  | cons event events ih => rw [List.foldl_cons, ih, append_options]

/-- What the pages of an enumeration hold. -/
def eventsOf (pages : List IndexedPage) : List TwinEvent := (pages.map IndexedPage.items).flatten

end

theorem sampleEvent_sound (revision : Int) : @Sound Services.plain "0x1" (sampleEvent revision) := by
  have htype : (60 : Int) ∈ VALID_TWIN_EVENT_TYPES := by decide
  have hplain : (60 : Int) ∉ referenceTypes := by decide
  have hactor : "did:a" ≠ "" := by decide
  exact @Sound.mk Services.plain _ _ rfl htype hactor (fun h => absurd rfl h)
    (fun _ state h => by cases h) (fun h => absurd h hplain)

/-- An indexer with one page. -/
def onePage (events : List TwinEvent) : TwinIndexer where
  findTwinEvents _ _ _ := .ok { items := events, hasMore := false }

theorem delivers_onePage (events : List TwinEvent) (twinId : String) (o : PaginationOptions) :
    Delivers (onePage events) twinId o 0 o.cursor [] [{ items := events, hasMore := false }] true :=
  .last rfl (by simp) rfl

end Thread
