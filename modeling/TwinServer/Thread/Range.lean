-- SUMMARY: What a verification with bounds on the revisions reports, and for which bounds its report is exact.
import TwinServer.Thread.Verdict

/-!
# Ranges

The events of a well-formed thread rise in steps of one and may have holes. A verification
with bounds sees those between the bounds, so all it can find is missing revisions: those
between two events, those before the first one, counted from the lower bound, and those
after the last one up to the upper bound.
-/

open Js

namespace Thread

/-! ## Threads with holes -/

/-- Each event raises the revision by one, and starts no earlier than the one before it ends. -/
def Steps : Int → List TwinEvent → Prop
  | _, [] => True
  | x, event :: events =>
    x ≤ event.revisionBefore ∧ event.revisionAfter = event.revisionBefore + 1 ∧
      Steps event.revisionAfter events

/-- The last revision, or the one given when there is no event. -/
def lastAfter : Int → List TwinEvent → Int
  | x, [] => x
  | _, event :: events => lastAfter event.revisionAfter events

def revisions (events : List TwinEvent) : List Int := events.map TwinEvent.revisionAfter

theorem Steps.lt {x : Int} {events : List TwinEvent} (h : Steps x events) :
    ∀ r ∈ revisions events, x < r := by
  induction events generalizing x with
  | nil => exact fun r hr => absurd hr List.not_mem_nil
  | cons event events ih =>
      obtain ⟨hbefore, hafter, hrest⟩ := h
      intro r hr
      rcases List.mem_cons.mp hr with rfl | hr
      · omega
      · have := ih hrest r hr
        omega

theorem Steps.le_lastAfter {x : Int} {events : List TwinEvent} (h : Steps x events) :
    x ≤ lastAfter x events ∧ ∀ r ∈ revisions events, r ≤ lastAfter x events := by
  induction events generalizing x with
  | nil => exact ⟨Int.le_refl x, fun r hr => absurd hr List.not_mem_nil⟩
  | cons event events ih =>
      obtain ⟨hbefore, hafter, hrest⟩ := h
      obtain ⟨hle, hall⟩ := ih hrest
      unfold lastAfter
      refine ⟨by omega, fun r hr => ?_⟩
      rcases List.mem_cons.mp hr with rfl | hr
      · exact hle
      · exact hall r hr

theorem lastAfter_mem {x : Int} {events : List TwinEvent} (h : events ≠ []) :
    lastAfter x events ∈ revisions events := by
  induction events generalizing x with
  | nil => exact absurd rfl h
  | cons event events ih =>
      unfold lastAfter revisions
      cases events with
      | nil => exact List.mem_cons_self
      | cons next events => exact List.mem_cons_of_mem _ (ih (by simp))

theorem lastAfter_eq {events : List TwinEvent} (h : events ≠ []) (x y : Int) :
    lastAfter x events = lastAfter y events := by
  cases events with
  | nil => exact absurd rfl h
  | cons event events => rfl

theorem steps_of_pairwise {x : Int} {events : List TwinEvent}
    (hstep : ∀ event ∈ events, event.revisionAfter = event.revisionBefore + 1)
    (hascending : events.Pairwise fun a b => a.revisionAfter < b.revisionAfter)
    (hx : ∀ event ∈ events, x ≤ event.revisionBefore) : Steps x events := by
  induction events generalizing x with
  | nil => trivial
  | cons event events ih =>
      obtain ⟨hlt, hascending⟩ := List.pairwise_cons.mp hascending
      have hafter := hstep event List.mem_cons_self
      refine ⟨hx event List.mem_cons_self, hafter, ih ?_ hascending ?_⟩
      · exact fun e he => hstep e (List.mem_cons_of_mem _ he)
      · intro e he
        have := hlt e he
        have := hstep e (List.mem_cons_of_mem _ he)
        omega

section
variable [Services]

/-! ## What is found -/

/-- What a loop over sound events that rise has found, compared with what was found before. -/
structure Found (v w : IncrementalThreadVerifier) (events : List TwinEvent) : Prop where
  errors : w.progress.result.errors = [] ↔ v.progress.result.errors = []
  duplicates : w.progress.result.duplicateRevisions = v.progress.result.duplicateRevisions
  gaps : (v.progress.result.gaps = [] ↔ v.progress.result.missingRevisions = []) →
    (w.progress.result.gaps = [] ↔ w.progress.result.missingRevisions = [])
  missing : ∀ r, r ∈ w.progress.result.missingRevisions ↔ r ∈ v.progress.result.missingRevisions ∨
    v.expectedBefore < r ∧ r ≤ lastAfter v.expectedBefore events ∧ r ∉ revisions events
  last : w.progress.result.lastRevision = lastAfter v.progress.result.lastRevision events

theorem found_append {exists? : Option TransactionCheck} {v : IncrementalThreadVerifier}
    {event : TwinEvent} (hascending : v.Ascending) (hbefore : v.expectedBefore ≤ event.revisionBefore)
    (hafter : event.revisionAfter = event.revisionBefore + 1) (hsound : Sound v.twinId event)
    (hpresent : ¬ Absent exists? v.progress.result.eventCount event) :
    Found v (v.append exists? event) [event] where
  errors := (append_errors_eq_nil exists? v event).trans
    ⟨And.left, fun h => ⟨h, (errors_of_sound hsound hafter hbefore).1,
      (errors_of_sound hsound hafter hbefore).2, hpresent⟩⟩
  duplicates := by
    have hnew : v.progress.seen.contains event.revisionAfter = false := by
      refine Bool.eq_false_iff.mpr fun hseen => ?_
      have := hascending _ (List.contains_iff_mem.mp hseen)
      omega
    rw [append_duplicateRevisions, hnew]
    exact List.append_nil _
  gaps h := by
    simp only [append_gaps, append_missingRevisions, List.append_eq_nil_iff, h]
    refine and_congr_right fun _ => ?_
    by_cases hgap : event.revisionBefore = v.expectedBefore
    · rw [if_neg (by simpa using hgap), if_neg (by omega)]
      simp
    · rw [if_pos hgap, if_pos (by omega)]
      refine iff_of_false (by simp) fun hnil => ?_
      have hmem : v.expectedBefore + 1 ∈ range (v.expectedBefore + 1) (event.revisionBefore + 1) :=
        mem_range.mpr (by omega)
      rw [hnil] at hmem
      cases hmem
  missing r := by
    rw [append_missingRevisions, List.mem_append]
    refine or_congr_right ?_
    simp only [lastAfter, revisions, List.map_cons, List.map_nil, List.mem_singleton]
    split
    · rw [mem_range]
      omega
    · refine iff_of_false List.not_mem_nil ?_
      omega
  last := rfl

/-- **What a loop finds** in sound events that rise: the revisions between them. -/
theorem found_foldl {exists? : Option TransactionCheck} {events : List TwinEvent}
    {v : IncrementalThreadVerifier} (hascending : v.Ascending) (hsteps : Steps v.expectedBefore events)
    (haccepted : Accepted exists? v.twinId v.progress.result.eventCount events) :
    Found v (events.foldl (IncrementalThreadVerifier.append exists?) v) events := by
  induction events generalizing v with
  | nil =>
      refine ⟨Iff.rfl, rfl, id, fun r => (or_iff_left ?_).symm, rfl⟩
      unfold lastAfter
      omega
  | cons event events ih =>
      obtain ⟨hbefore, hafter, hrest⟩ := hsteps
      obtain ⟨⟨hsound, hpresent⟩, haccepted⟩ := accepted_cons.mp haccepted
      have hone := found_append hascending hbefore hafter hsound hpresent
      have hnext : (v.append exists? event).Ascending := hascending.append exists? (by omega)
      have hall := ih hnext hrest (by rwa [append_eventCount])
      refine ⟨hall.errors.trans hone.errors, hall.duplicates.trans hone.duplicates,
        fun h => hall.gaps (hone.gaps h), fun r => ?_, hall.last⟩
      have hlt := hrest.lt r
      have hle := hrest.le_lastAfter.1
      rw [List.foldl_cons, hall.missing, hone.missing, append_expectedBefore]
      simp only [lastAfter, revisions, List.map_cons, List.map_nil, List.mem_cons, List.not_mem_nil,
        or_false] at hlt ⊢
      grind

/-! ## The report on a range -/

/-- A stored thread: sound events that rise in steps of one, with holes where some are removed. -/
structure WellFormed (twinId : String) (thread : List TwinEvent) : Prop where
  sound : ∀ event ∈ thread, Sound twinId event
  step : ∀ event ∈ thread, event.revisionAfter = event.revisionBefore + 1
  nonneg : ∀ event ∈ thread, 0 ≤ event.revisionBefore
  ascending : thread.Pairwise fun a b => a.revisionAfter < b.revisionAfter

/-- The options of a request for a range. -/
def rangeOptions (limit : Option Number) (fromRevision toRevision : Option Nat) :
    PaginationOptions where
  limit
  fromRevision := fromRevision.map Int.ofNat
  toRevision := toRevision.map Int.ofNat

/-- The events of a thread between the bounds. -/
def between (thread : List TwinEvent) (fromRevision toRevision : Option Nat) : List TwinEvent :=
  thread.filter (matchesOptions · (rangeOptions none fromRevision toRevision))

/-- A revision of the range that is asked for. -/
def InRange (thread : List TwinEvent) (fromRevision toRevision : Option Nat) (r : Int) : Prop :=
  max ((fromRevision.getD 0 : Nat) : Int) 1 ≤ r ∧
    r ≤ (toRevision.map Int.ofNat).getD (lastAfter 0 thread)

omit [Services] in
theorem matches_rangeOptions {limit : Option Number} {fromRevision toRevision : Option Nat}
    {event : TwinEvent} :
    matchesOptions event (rangeOptions limit fromRevision toRevision) ↔
      (∀ r, fromRevision = some r → r ≤ event.revisionAfter) ∧
        ∀ r, toRevision = some r → event.revisionAfter ≤ r := by
  cases fromRevision <;> cases toRevision <;> simp [matchesOptions, rangeOptions]

theorem WellFormed.steps {twinId : String} {thread : List TwinEvent} (h : WellFormed twinId thread)
    (p : TwinEvent → Bool) {x : Int} (hx : ∀ event ∈ thread, p event → x ≤ event.revisionBefore) :
    Steps x (thread.filter p) := by
  refine steps_of_pairwise (fun event he => ?_) (h.ascending.filter p) fun event he => ?_
  · exact h.step event (List.mem_filter.mp he).1
  · exact hx event (List.mem_filter.mp he).1 (List.mem_filter.mp he).2

omit [Services] in
theorem mem_tail {v : IncrementalThreadVerifier} {r : Int} :
    r ∈ v.tail ↔ ∃ t, v.options.toRevision = some t ∧ v.progress.result.lastRevision < r ∧ r ≤ t := by
  unfold IncrementalThreadVerifier.tail
  cases v.options.toRevision with
  | none => simp
  | some t =>
    simp only [Option.some.injEq, exists_eq_left']
    split
    · rw [mem_range]
      omega
    · refine iff_of_false List.not_mem_nil ?_
      omega

/-- The revisions called missing: the holes between the events seen, and those after the last. -/
def Missing (x : Int) (seen : List TwinEvent) (toRevision : Option Nat) (r : Int) : Prop :=
  (x < r ∧ r ≤ lastAfter x seen ∧ r ∉ revisions seen) ∨
    ∃ t, toRevision = some t ∧ lastAfter 0 seen < r ∧ r ≤ t

section
variable {twinId : String} {thread : List TwinEvent} {fromRevision toRevision : Option Nat}

omit [Services] in
theorem mem_revisions_between {r : Int} :
    r ∈ revisions (between thread fromRevision toRevision) ↔ r ∈ revisions thread ∧
      (∀ f, fromRevision = some f → (f : Int) ≤ r) ∧ ∀ t, toRevision = some t → r ≤ t := by
  simp only [revisions, between, List.mem_map, List.mem_filter, matches_rangeOptions]
  constructor
  · rintro ⟨event, ⟨hmem, hbounds⟩, rfl⟩
    exact ⟨⟨event, hmem, rfl⟩, hbounds⟩
  · rintro ⟨⟨event, hmem, rfl⟩, hbounds⟩
    exact ⟨event, ⟨hmem, hbounds⟩, rfl⟩

/-- The revision that is expected before the first event. -/
def expectedStart (fromRevision : Option Nat) : Int := fromRevision.elim 0 fun f => (f : Int) - 1

theorem WellFormed.steps_between (h : WellFormed twinId thread) :
    Steps (expectedStart fromRevision) (between thread fromRevision toRevision) := by
  refine h.steps _ fun event he hmatch => ?_
  have hstep := h.step event he
  have hnonneg := h.nonneg event he
  cases fromRevision with
  | none => exact hnonneg
  | some f =>
    have hf := (matches_rangeOptions.mp hmatch).1 f rfl
    show (f : Int) - 1 ≤ event.revisionBefore
    omega

omit [Services] in
/-- Without events, everything up to the upper bound is called missing. -/
theorem missing_iff_of_none (x r : Int) : Missing x [] toRevision r ↔ 0 < r ∧ r ≤ toRevision.getD 0 := by
  unfold Missing lastAfter
  constructor
  · rintro (h | ⟨t, rfl, hr⟩)
    · omega
    · exact hr
  · intro hr
    cases toRevision with
    | none =>
      have : (0 : Int) < 0 := Int.lt_of_lt_of_le hr.1 hr.2
      omega
    | some t => exact .inr ⟨t, rfl, hr⟩

/-- The verifier of a range before the first page. -/
def rangeStart (twinId : String) (limit : Option Number) (fromRevision toRevision : Option Nat) :
    IncrementalThreadVerifier := ⟨twinId, rangeOptions limit fromRevision toRevision, {}⟩

omit [Services] in
theorem rangeStart_expectedBefore (limit : Option Number) :
    (rangeStart twinId limit fromRevision toRevision).expectedBefore = expectedStart fromRevision := by
  cases fromRevision <;> rfl

section
variable {limit : Option Number} {w : IncrementalThreadVerifier} {seen : List TwinEvent}

/-- The report calls missing what the loop missed and what follows the last event. -/
theorem Found.missing_finish (hfound : Found (rangeStart twinId limit fromRevision toRevision) w seen)
    (hoptions : w.options = rangeOptions limit fromRevision toRevision) (n : Nat) (reason : Option String)
    (r : Int) :
    r ∈ ((w.withPages n).finish true reason).findings.missingRevisions ↔
      Missing (expectedStart fromRevision) seen toRevision r := by
  have htail : r ∈ (w.withPages n).tail ↔ ∃ t, toRevision = some t ∧ lastAfter 0 seen < r ∧ r ≤ t := by
    refine mem_tail.trans ?_
    show (∃ t, w.options.toRevision = some t ∧ w.progress.result.lastRevision < r ∧ r ≤ t) ↔ _
    rw [hoptions, hfound.last]
    cases toRevision with
    | none => simp [rangeOptions]
    | some t => simp [rangeOptions, rangeStart]
  have hholes := hfound.missing r
  rw [rangeStart_expectedBefore] at hholes
  rw [mem_missingRevisions_finish, htail]
  refine or_congr_left (hholes.trans (or_iff_right ?_))
  exact List.not_mem_nil

/-- The report is valid when it calls nothing missing. -/
theorem Found.valid_finish (hfound : Found (rangeStart twinId limit fromRevision toRevision) w seen)
    (n : Nat) (reason : Option String) :
    ((w.withPages n).finish true reason).valid = some true ↔
      ∀ r, r ∉ ((w.withPages n).finish true reason).findings.missingRevisions := by
  have herrors : (w.withPages n).progress.result.errors = [] := hfound.errors.mpr rfl
  have hduplicates : (w.withPages n).progress.result.duplicateRevisions = [] := hfound.duplicates
  have hgaps : (w.withPages n).progress.result.gaps = [] ↔
      (w.withPages n).progress.result.missingRevisions = [] := hfound.gaps (iff_of_true rfl rfl)
  rw [Thread.valid_finish, herrors, hduplicates, Option.some_inj]
  simp only [Bool.and_eq_true, List.isEmpty_iff, true_and, and_true, hgaps]
  rw [and_iff_right_of_imp fun hnil => (List.append_eq_nil_iff.mp hnil).1,
    List.eq_nil_iff_forall_not_mem]
  simp only [mem_missingRevisions_finish, List.mem_append]

end

/-- What a verification of sound events that rise comes to: the report of a loop that found no more
than the revisions between them. -/
theorem verifyDigitalThread_found {indexer : TwinIndexer} {limit : Option Number}
    {pages : List IndexedPage} {fuel : Nat} {seen : List TwinEvent}
    (hpages : Delivers indexer twinId (rangeOptions limit fromRevision toRevision) 0 none [] pages true)
    (hitems : eventsOf pages = seen) (hsteps : Steps (expectedStart fromRevision) seen)
    (hsound : ∀ event ∈ seen, Sound twinId event)
    (hpresent : ∀ i event, seen[i]? = some event → ¬ Absent indexer.transactionExists i event)
    (hfuel : pages.length ≤ fuel) :
    ∃ w n reason, verifyDigitalThread indexer twinId (rangeOptions limit fromRevision toRevision) fuel =
        some (.ok ((IncrementalThreadVerifier.withPages w n).finish true reason)) ∧
      Found (rangeStart twinId limit fromRevision toRevision) w seen ∧
      w.options = rangeOptions limit fromRevision toRevision := by
  obtain ⟨reason, hreason⟩ :=
    verifyPages_of_delivers hpages hfuel (rangeStart twinId limit fromRevision toRevision)
  obtain ⟨n, hn⟩ := foldl_appendPage indexer.transactionExists (pages.map IndexedPage.items)
    (rangeStart twinId limit fromRevision toRevision)
  have hflatten : (pages.map IndexedPage.items).flatten = seen := hitems
  rw [hn, hflatten] at hreason
  refine ⟨_, n, reason, hreason, found_foldl ?_ ?_ ?_, foldl_append_options _ _ _⟩
  · exact fun r hr => absurd hr List.not_mem_nil
  · rwa [rangeStart_expectedBefore]
  · intro i event hi
    refine ⟨hsound event (List.mem_of_getElem? hi), ?_⟩
    show ¬ Absent indexer.transactionExists (0 + i) event
    rw [Nat.zero_add]
    exact hpresent i event hi

end

end

end Thread
