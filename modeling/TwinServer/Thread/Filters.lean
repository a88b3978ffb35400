-- SUMMARY: When the filters of a verification make an intact thread look broken.
import TwinServer.Thread.Range

/-!
# Filters

A verification asks the indexer for the events that match its bounds and its filters, and the
verifier knows of the bounds only. So the events of an intact thread that a filter leaves out are
missing to the verifier, unless they all come after the last one it sees.
-/

open Js

namespace Thread

/-! ## The filters of a request -/

/-- What `threadOptions` of `src/api/app.ts` reads of a query besides the bounds. -/
structure Filters where
  eventTypes : Option (List Number) := none
  fromTimestamp : Option Number := none
  toTimestamp : Option Number := none

/-- What `matches` of the indexer checks besides the bounds. -/
def Filters.selects (filters : Filters) (event : TwinEvent) : Bool :=
  filters.eventTypes.all (fun types => types.isEmpty || types.contains (.finite event.eventType)) &&
  filters.fromTimestamp.all (fun t => t.le (.finite event.createdAt)) &&
  filters.toTimestamp.all (fun t => (Number.finite event.createdAt).le t)

/-- The events of a thread that match the bounds and the filters. -/
def matching (thread : List TwinEvent) (filters : Filters) (fromRevision toRevision : Option Nat) :
    List TwinEvent := (between thread fromRevision toRevision).filter filters.selects

/-- The filters of options that are integers. -/
def PaginationOptions.filters (o : PaginationOptions) : Filters where
  eventTypes := o.eventTypes.map (·.map fun (n : Int) => .finite n)
  fromTimestamp := o.fromTimestamp.map fun (t : Int) => .finite t
  toTimestamp := o.toTimestamp.map fun (t : Int) => .finite t

theorem finite_mem_map {types : List Int} {n : Int} :
    Number.finite n ∈ types.map (fun (n : Int) => Number.finite n) ↔ n ∈ types := by
  rw [List.mem_map]
  constructor
  · rintro ⟨m, hm, heq⟩
    have hdyadic : (m : Dyadic) = (n : Dyadic) := Number.finite.inj heq
    have hle : m ≤ n := Number.intCast_le_intCast.mp (hdyadic ▸ Dyadic.le_refl _)
    have hge : n ≤ m := Number.intCast_le_intCast.mp (hdyadic ▸ Dyadic.le_refl _)
    rwa [← Int.le_antisymm hle hge]
  · exact fun hn => ⟨n, hn, rfl⟩

/-- The filter of the indexer is the one of the bounds and the one of the filters. -/
theorem matchesOptions_filters (event : TwinEvent) (o : PaginationOptions) :
    matchesOptions event o = (matchesOptions event
      { fromRevision := o.fromRevision, toRevision := o.toRevision } && o.filters.selects event) := by
  obtain ⟨_, _, _, _, eventTypes, fromTimestamp, toTimestamp⟩ := o
  cases eventTypes <;> cases fromTimestamp <;> cases toTimestamp <;>
    simp [matchesOptions, Filters.selects, PaginationOptions.filters, finite_mem_map,
      Number.finite_le_finite, Bool.and_assoc]

/-! ## Chains -/

theorem Contiguous.lt {m : Int} {events : List TwinEvent} (h : Contiguous m events) :
    ∀ r ∈ revisions events, m < r := by
  induction events generalizing m with
  | nil => exact fun r hr => absurd hr List.not_mem_nil
  | cons event events ih =>
    obtain ⟨-, hafter, hrest⟩ := h
    intro r hr
    rcases List.mem_cons.mp hr with rfl | hr
    · omega
    · have := ih hrest r hr
      omega

/-- The events of a chain up to a bound are a chain. -/
theorem Contiguous.filter_le {m : Int} {events : List TwinEvent} (h : Contiguous m events) (t : Int) :
    Contiguous m (events.filter fun event => event.revisionAfter ≤ t) := by
  induction events generalizing m with
  | nil => trivial
  | cons event events ih =>
    obtain ⟨hbefore, hafter, hrest⟩ := h
    rw [List.filter_cons]
    split
    case isTrue => exact ⟨hbefore, hafter, ih hrest⟩
    case isFalse hle =>
      -- the events after the bound end the chain
      have hnone : events.filter (fun event => decide (event.revisionAfter ≤ t)) = [] := by
        refine List.filter_eq_nil_iff.mpr fun e he => ?_
        have := hrest.lt e.revisionAfter (List.mem_map_of_mem he)
        simp only [decide_eq_true_eq] at hle ⊢
        omega
      rw [hnone]
      trivial

/-- The events of a chain from a bound on are a chain. -/
theorem Contiguous.filter_ge {m f : Int} {events : List TwinEvent} (h : Contiguous m events) (hm : m < f) :
    Contiguous (f - 1) (events.filter fun event => f ≤ event.revisionAfter) := by
  induction events generalizing m with
  | nil => trivial
  | cons event events ih =>
    obtain ⟨hbefore, hafter, hrest⟩ := h
    rw [List.filter_cons]
    split
    case isFalse hlt => exact ih hrest (by simpa [hafter] using hlt)
    case isTrue hle =>
      -- the chain starts at the bound, and everything after it is kept
      have heq : m = f - 1 := by
        simp only [decide_eq_true_eq] at hle
        omega
      have hall : events.filter (fun event => decide (f ≤ event.revisionAfter)) = events := by
        refine List.filter_eq_self.mpr fun e he => ?_
        have := hrest.lt e.revisionAfter (List.mem_map_of_mem he)
        simp only [decide_eq_true_eq]
        omega
      rw [hall, ← heq]
      exact ⟨hbefore, hafter, hrest⟩

/-- A part of a chain is its beginning exactly when no revision before its last one is left out. -/
theorem Contiguous.filter_isPrefix_iff {m : Int} {events : List TwinEvent} (h : Contiguous m events)
    (p : TwinEvent → Bool) :
    events.filter p <+: events ↔
      ∀ r, m < r → r ≤ lastAfter m (events.filter p) → r ∈ revisions (events.filter p) := by
  induction events generalizing m with
  | nil =>
    refine iff_of_true List.prefix_rfl fun r hlt hle => ?_
    have hle : r ≤ m := hle
    omega
  | cons event events ih =>
    obtain ⟨hbefore, hafter, hrest⟩ := h
    rw [List.filter_cons]
    split
    case isTrue =>
      rw [List.prefix_cons_inj, ih hrest]
      simp only [lastAfter, revisions, List.map_cons, List.mem_cons, hafter]
      constructor
      · intro hall r hlt hle
        by_cases heq : r = m + 1
        · exact .inl heq
        · exact .inr (hall r (by omega) hle)
      · intro hall r hlt hle
        rcases hall r (by omega) hle with heq | hmem
        · omega
        · exact hmem
    case isFalse hp =>
      cases hfilter : events.filter p with
      | nil =>
        refine iff_of_true (List.nil_prefix) fun r hlt hle => ?_
        have hle : r ≤ m := hle
        omega
      | cons first others =>
        -- the first event is left out and a later one is not
        have hlater : ∀ r ∈ revisions (first :: others), m + 1 < r := by
          intro r hr
          refine hrest.lt r ?_
          rw [← hfilter] at hr
          obtain ⟨e, he, rfl⟩ := List.mem_map.mp hr
          exact List.mem_map_of_mem (List.mem_filter.mp he).1
        have hlast := hlater _ (lastAfter_mem (x := m) (List.cons_ne_nil first others))
        refine iff_of_false (fun hpre => ?_) fun hall => ?_
        · obtain rfl := (List.cons_prefix_cons.mp hpre).1
          have hmem : first ∈ events.filter p := hfilter ▸ List.mem_cons_self
          exact hp (List.mem_filter.mp hmem).2
        · have := hlater (m + 1) (hall (m + 1) (by omega) (by omega))
          omega

section
variable [Services]

/-! ## The verdict under filters -/

/-- The filters leave out no event that the verifier would miss: the events that match are the first
ones between the bounds, and with an upper bound the last one is among them. If none matches there is
no upper bound, or it is zero. -/
def Undisturbed (thread : List TwinEvent) (filters : Filters) (fromRevision toRevision : Option Nat) :
    Prop :=
  (matching thread filters fromRevision toRevision ≠ [] ∧ fromRevision ≠ some 0 ∧
    matching thread filters fromRevision toRevision <+: between thread fromRevision toRevision ∧
    ∀ t, toRevision = some t → (t : Int) ∈ revisions (matching thread filters fromRevision toRevision)) ∨
  (matching thread filters fromRevision toRevision = [] ∧ toRevision.getD 0 = 0)

variable {twinId : String} {thread : List TwinEvent} {filters : Filters}
  {fromRevision toRevision : Option Nat}

omit [Services] in
theorem between_eq_filter (thread : List TwinEvent) (fromRevision toRevision : Option Nat) :
    between thread fromRevision toRevision =
      (thread.filter fun event => fromRevision.all fun f => (f : Int) ≤ event.revisionAfter).filter
        fun event => toRevision.all fun t => event.revisionAfter ≤ (t : Int) := by
  rw [between, List.filter_filter]
  refine List.filter_congr fun event _ => ?_
  rw [Bool.eq_iff_iff, matches_rangeOptions]
  cases fromRevision <;> cases toRevision <;> simp [and_comm]

variable (toRevision) in
omit [Services] in
/-- The events of an intact thread between bounds are a chain from the lower bound on. -/
theorem contiguous_between (h : Contiguous 0 thread) (hfrom : fromRevision ≠ some 0) :
    Contiguous (expectedStart fromRevision) (between thread fromRevision toRevision) := by
  have hlower : Contiguous (expectedStart fromRevision)
      (thread.filter fun event => fromRevision.all fun f => (f : Int) ≤ event.revisionAfter) := by
    cases fromRevision with
    | none => simpa [expectedStart] using h
    | some f =>
      have hpos : (0 : Int) < f := by
        have : f ≠ 0 := fun hf => hfrom (hf ▸ rfl)
        omega
      exact h.filter_ge hpos
  rw [between_eq_filter]
  cases toRevision with
  | none => simpa using hlower
  | some t => exact hlower.filter_le t

omit [Services] in
theorem Contiguous.ascending {m : Int} {events : List TwinEvent} (h : Contiguous m events) :
    events.Pairwise fun a b => a.revisionAfter < b.revisionAfter := by
  induction events generalizing m with
  | nil => exact .nil
  | cons event events ih =>
    obtain ⟨-, hafter, hrest⟩ := h
    refine .cons (fun e he => ?_) (ih hrest)
    rw [hafter]
    exact hrest.lt _ (List.mem_map_of_mem he)

omit [Services] in
theorem Contiguous.step {m : Int} {events : List TwinEvent} (h : Contiguous m events) :
    ∀ event ∈ events, m ≤ event.revisionBefore ∧ event.revisionAfter = event.revisionBefore + 1 := by
  induction events generalizing m with
  | nil => exact fun e he => absurd he List.not_mem_nil
  | cons event events ih =>
    obtain ⟨hbefore, hafter, hrest⟩ := h
    intro e he
    rcases List.mem_cons.mp he with rfl | he
    · omega
    · have := ih hrest e he
      omega

/-- An intact thread is a stored thread without holes. -/
theorem Contiguous.wellFormed (h : Contiguous 0 thread) (hsound : ∀ event ∈ thread, Sound twinId event) :
    WellFormed twinId thread where
  sound := hsound
  step event he := (h.step event he).2
  nonneg event he := (h.step event he).1
  ascending := h.ascending

theorem WellFormed.steps_matching (h : WellFormed twinId thread) :
    Steps (expectedStart fromRevision) (matching thread filters fromRevision toRevision) := by
  have hbetween : Steps (expectedStart fromRevision) (between thread fromRevision toRevision) :=
    h.steps_between
  refine steps_of_pairwise (fun event he => ?_) ?_ fun event he => ?_
  · exact h.step event (List.mem_filter.mp (List.mem_filter.mp he).1).1
  · exact (h.ascending.filter _).filter _
  · have := hbetween.lt _ (List.mem_map_of_mem (List.mem_filter.mp he).1)
    have := h.step event (List.mem_filter.mp (List.mem_filter.mp he).1).1
    omega

/-- Nothing is missing to the verifier exactly when the filters leave out no event that it would miss. -/
theorem missing_iff_undisturbed (hthread : WellFormed twinId thread) (h : Contiguous 0 thread) :
    (∀ r, ¬ Missing (expectedStart fromRevision) (matching thread filters fromRevision toRevision)
      toRevision r) ↔ Undisturbed thread filters fromRevision toRevision := by
  unfold Undisturbed
  have hmem : ∀ r ∈ revisions (matching thread filters fromRevision toRevision),
      r ∈ revisions (between thread fromRevision toRevision) := by
    intro r hr
    obtain ⟨e, he, rfl⟩ := List.mem_map.mp hr
    exact List.mem_map_of_mem (List.mem_filter.mp he).1
  by_cases hnone : matching thread filters fromRevision toRevision = []
  · simp only [hnone, missing_iff_of_none, ne_eq, not_true_eq_false, false_and, false_or, true_and]
    generalize toRevision.getD 0 = t
    constructor
    · intro hall
      have := hall t
      omega
    · intro hzero r
      omega
  · simp only [hnone, ne_eq, not_false_eq_true, true_and, false_and, or_false]
    have hlast := lastAfter_mem (x := expectedStart fromRevision) hnone
    have hbounds := mem_revisions_between.mp (hmem _ hlast)
    by_cases hfrom : fromRevision = some 0
    · -- revision zero is called missing
      subst hfrom
      refine iff_of_false (fun hall => hall 0 (.inl ⟨by decide, ?_, fun hzero => ?_⟩)) (fun h => h.1 rfl)
      · exact (h.lt _ hbounds.1).le
      · exact absurd (h.lt _ (mem_revisions_between.mp (hmem _ hzero)).1) (by decide)
    · have hchain := contiguous_between toRevision h hfrom
      have hprefix := hchain.filter_isPrefix_iff filters.selects
      simp only [Missing, not_or, not_and, not_not, not_exists, forall_and, hfrom, not_false_eq_true, true_and]
      refine and_congr hprefix.symm ?_
      rw [lastAfter_eq hnone 0 (expectedStart fromRevision)]
      constructor
      · rintro hall t rfl
        have hle := hbounds.2.2 t rfl
        by_contra habsent
        have hne : lastAfter (expectedStart fromRevision) (matching thread filters fromRevision (some t)) ≠ t :=
          fun heq => habsent (heq ▸ hlast)
        have := hall t t rfl
        omega
      · rintro hall r t rfl hlt
        have := hthread.steps_matching.le_lastAfter.2 t (hall t rfl)
        omega

/-- **The verdict on an intact thread** under filters: it is not called invalid exactly when the filters
leave out no event that the verifier would miss. -/
theorem verifyDigitalThread_filtered (indexer : Filters → TwinIndexer) (limit : Option Number)
    (pages : List IndexedPage) (fuel : Nat) (hthread : Contiguous 0 thread)
    (hsound : ∀ event ∈ thread, Sound twinId event)
    (hpages : Delivers (indexer filters) twinId (rangeOptions limit fromRevision toRevision) 0 none []
      pages true)
    (hitems : eventsOf pages = matching thread filters fromRevision toRevision)
    (hpresent : ∀ i event, (eventsOf pages)[i]? = some event →
      ¬ Absent (indexer filters).transactionExists i event)
    (hfuel : pages.length ≤ fuel) :
    ∃ v, verifyDigitalThread (indexer filters) twinId (rangeOptions limit fromRevision toRevision) fuel =
        some (.ok v) ∧
      (v.valid ≠ some false ↔ Undisturbed thread filters fromRevision toRevision) := by
  have hwell : WellFormed twinId thread := hthread.wellFormed hsound
  obtain ⟨w, n, reason, hrun, hfound, hoptions⟩ := verifyDigitalThread_found hpages hitems
    hwell.steps_matching
    (fun event he => hsound event (List.mem_filter.mp (List.mem_filter.mp he).1).1)
    (hitems ▸ hpresent) hfuel
  refine ⟨_, hrun, ?_⟩
  have hvalid := hfound.valid_finish n reason
  simp only [hfound.missing_finish hoptions n reason, missing_iff_undisturbed hwell hthread] at hvalid
  rw [← hvalid, valid_finish]
  simp [and_assoc]

end

/-! ## A thread with events of two types -/

/-- The creation of a Twin and an event of another type. -/
def createdThread : List TwinEvent := [{ sampleEvent 1 with eventType := 1 }, sampleEvent 2]

theorem createdThread_sound : ∀ event ∈ createdThread, @Sound Services.plain "0x1" event := by
  intro event he
  rcases List.mem_pair.mp he with rfl | rfl
  · exact @Sound.mk Services.plain _ _ rfl (by decide) (by decide) (fun h => absurd rfl h)
      (fun _ state h => by cases h) (fun h => absurd h (by decide))
  · exact sampleEvent_sound 2

/-- Asked for the events of the second type only, an intact thread is called invalid. -/
theorem filtered_thread_invalid :
    Contiguous 0 createdThread ∧ (∀ event ∈ createdThread, @Sound Services.plain "0x1" event) ∧
    Delivers (onePage [sampleEvent 2]) "0x1" (rangeOptions none none none) 0 none []
      [{ items := [sampleEvent 2], hasMore := false }] true ∧
    eventsOf [{ items := [sampleEvent 2], hasMore := false }] =
      matching createdThread { eventTypes := some [60] } none none ∧
    (onePage [sampleEvent 2]).transactionExists = none ∧
    ∃ v, @verifyDigitalThread Services.plain (onePage [sampleEvent 2]) "0x1" (rangeOptions none none none)
        1 = some (.ok v) ∧ v.valid = some false ∧ v.findings.missingRevisions = [1] :=
  ⟨⟨rfl, rfl, rfl, rfl, trivial⟩, createdThread_sound, delivers_onePage _ _ _, by decide, rfl, _, rfl,
    rfl, rfl⟩

theorem verifyDigitalThread_filtered_created :
    ∃ v, @verifyDigitalThread Services.plain (onePage [{ sampleEvent 1 with eventType := 1 }]) "0x1"
        (rangeOptions none none none) 1 = some (.ok v) ∧ v.valid ≠ some false := by
  obtain ⟨v, hv, hvalid⟩ := @verifyDigitalThread_filtered Services.plain "0x1" createdThread
    { eventTypes := some [1] } none none (fun _ => onePage [{ sampleEvent 1 with eventType := 1 }]) none _ 1
    ⟨rfl, rfl, rfl, rfl, trivial⟩ createdThread_sound (delivers_onePage _ _ _) (by decide)
    (fun i event _ ⟨check, digest, hcheck, _⟩ => by cases hcheck) (Nat.le_refl 1)
  refine ⟨v, hv, hvalid.mpr (.inl ⟨by decide, by decide, by decide, ?_⟩)⟩
  intro t ht
  cases ht

end Thread
