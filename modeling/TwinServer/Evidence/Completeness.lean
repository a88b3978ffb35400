-- SUMMARY: When the snapshots of a Twin's windows are complete: its windows' periods hold all their samples.
import TwinServer.Evidence.Snapshots
import TwinServer.Twin.Conservation

/-!
# Complete snapshots

The aggregator records of a window the times of its first and its last sample, and a snapshot takes these for
the period of the window. With observations out of order a sample lies outside of that period, and a selection
around it misses the window.
-/

open Js Js.Json Thread Storage Async Twin

namespace Evidence

/-! ## What is collected -/

theorem collect_eq_ok {n : Nat} {candidates : List (Option (Nat × SnapshotWindow))} {windows : List SnapshotWindow}
    (h : collect n candidates = .ok windows) : windows = (candidates.filterMap id).map Prod.snd := by
  induction candidates generalizing n windows with
  | nil => exact (Except.ok.inj h).symm
  | cons c candidates ih =>
    cases c with
    | none => exact ih h
    | some p =>
      obtain ⟨-, h⟩ := Except.check_bind_eq_ok.mp h
      obtain ⟨rest, hrest, h⟩ := Except.bind_eq_ok.mp h
      obtain rfl := Except.pure_eq_ok.mp h
      simp [ih hrest]

/-- Candidates that fit together are all collected. -/
theorem collect_of_fits {n : Nat} (candidates : List (Option (Nat × SnapshotWindow)))
    (h : n + ((candidates.filterMap id).map Prod.fst).sum ≤ MAX_DATASET_BYTES) :
    ∃ windows, collect n candidates = .ok windows := by
  induction candidates generalizing n with
  | nil => exact ⟨[], rfl⟩
  | cons c candidates ih =>
    cases c with
    | none => exact ih h
    | some p =>
      rw [List.filterMap_cons_some (f := id) rfl, List.map_cons, List.sum_cons] at h
      obtain ⟨rest, hrest⟩ := ih (n := n + p.1) (by omega)
      have hfits : throwIf (n + p.1 > MAX_DATASET_BYTES) sourceTooLarge = .ok () :=
        throwIf_eq_ok.mpr (decide_eq_false (by omega))
      exact ⟨p.2 :: rest, by rw [collect, hfits, ok_bind, hrest]; rfl⟩

/-- Only the size of what is collected is refused. -/
theorem collect_eq_error {n : Nat} {candidates : List (Option (Nat × SnapshotWindow))} {e : Thrown}
    (h : collect n candidates = .error e) : e = .app sourceTooLarge := by
  induction candidates generalizing n with
  | nil => cases h
  | cons c candidates ih =>
    cases c with
    | none => exact ih h
    | some p =>
      rcases Except.bind_eq_error.mp h with h | ⟨-, -, h⟩
      · unfold throwIf at h
        split at h
        · exact (Except.error.inj h).symm
        · cases h
      · rcases Except.bind_eq_error.mp h with h | ⟨rest, -, h⟩
        · exact ih h
        · cases h

theorem foldl_min_le (ws : List SnapshotWindow) (t : Nat) :
    ws.foldl (fun t w => min t w.periodFrom) t ≤ t ∧
      ∀ w ∈ ws, ws.foldl (fun t w => min t w.periodFrom) t ≤ w.periodFrom := by
  induction ws generalizing t with
  | nil => exact ⟨Nat.le_refl _, fun _ hw => nomatch hw⟩
  | cons w ws ih =>
    obtain ⟨hstart, hall⟩ := ih (min t w.periodFrom)
    refine ⟨hstart.trans (Nat.min_le_left _ _), fun w' hw' => ?_⟩
    rcases List.mem_cons.mp hw' with rfl | hw'
    · exact hstart.trans (Nat.min_le_right _ _)
    · exact hall w' hw'

theorem le_foldl_max (ws : List SnapshotWindow) (t : Nat) :
    t ≤ ws.foldl (fun t w => max t w.periodTo) t ∧
      ∀ w ∈ ws, w.periodTo ≤ ws.foldl (fun t w => max t w.periodTo) t := by
  induction ws generalizing t with
  | nil => exact ⟨Nat.le_refl _, fun _ hw => nomatch hw⟩
  | cons w ws ih =>
    obtain ⟨hstart, hall⟩ := ih (max t w.periodTo)
    refine ⟨(Nat.le_max_left _ _).trans hstart, fun w' hw' => ?_⟩
    rcases List.mem_cons.mp hw' with rfl | hw'
    · exact (Nat.le_max_right _ _).trans hstart
    · exact hall w' hw'

section
variable [Services] {parseDate : String → Number} {text : Bytes → String} {parse : String → Option Json}
variable {s : Sources} {r : Registry} {twinId createdAt : String} {selection : Selection}
variable {item : ManagedStoredObject} {d : ExportDataset} {a : Snapshot}

/-- What is read of an object is where the window comes from. -/
theorem readSource_eq_ok {p : Nat × SnapshotWindow} (h : readSource parseDate text parse s item = .ok p) :
    p.2.sourceUri = item.uri ∧ p.2.retainedAt = item.createdAt := by
  obtain ⟨bytes, -, h⟩ := Except.bind_eq_ok.mp h
  split at h
  · cases h
  · obtain ⟨periodFrom, -, h⟩ := Except.bind_eq_ok.mp h
    obtain ⟨periodTo, -, h⟩ := Except.bind_eq_ok.mp h
    obtain rfl := Except.pure_eq_ok.mp h
    exact ⟨rfl, rfl⟩

/-- Two listings of one object are read alike. -/
theorem readSource_congr (s : Sources) {item' : ManagedStoredObject} (huri : item.uri = item'.uri)
    (hcreated : item.createdAt = item'.createdAt) :
    readSource parseDate text parse s item = readSource parseDate text parse s item' := by
  simp only [readSource, fallbackOf, huri, hcreated]

/-- An object that is read badly is not an interval without telemetry. -/
theorem readSource_ne_empty : readSource parseDate text parse s item ≠ .error (.app sourceEmpty) := by
  intro h
  have htimestamp {v : Option Json} {n : Nat} : safeTimestamp v n ≠ .error (.app sourceEmpty) := by
    cases hv : toNumber? v <;> simp [safeTimestamp, conversion, hv, bind, Except.bind, pure, Except.pure]
  rcases Except.bind_eq_error.mp h with h | ⟨bytes, -, h⟩
  · cases hread : s.read item.uri <;> simp [awaited, hread] at h
  · split at h
    · simp [sourceInvalid, sourceEmpty] at h
    · rcases Except.bind_eq_error.mp h with h | ⟨periodFrom, -, h⟩
      · exact htimestamp h
      · rcases Except.bind_eq_error.mp h with h | ⟨periodTo, -, h⟩
        · exact htimestamp h
        · cases h

theorem candidate_eq_some {p : Nat × SnapshotWindow} :
    candidate parseDate text parse s selection item = .ok (some p) ↔
      readSource parseDate text parse s item = .ok p ∧ overlaps p.2.periodFrom p.2.periodTo selection := by
  simp only [candidate, Except.bind_eq_ok, Except.pure_eq_ok, ite_eq_iff, Option.some.injEq, reduceCtorEq,
    and_false, or_false]
  constructor
  · rintro ⟨q, hq, hover, rfl⟩
    exact ⟨hq, hover⟩
  · rintro ⟨hp, hover⟩
    exact ⟨p, hp, hover, rfl⟩

theorem candidate_ne_empty : candidate parseDate text parse s selection item ≠ .error (.app sourceEmpty) := by
  intro h
  rcases Except.bind_eq_error.mp h with h | ⟨p, -, h⟩
  · exact readSource_ne_empty h
  · cases h

/-- What the traversal and the collection leave: the sources whose period overlaps the selection. -/
theorem mem_collected {candidates : List (Option (Nat × SnapshotWindow))} {windows : List SnapshotWindow}
    (hcandidates : (s.managed.filter (isSource twinId)).mapM (candidate parseDate text parse s selection) =
      .ok candidates) (hwindows : collect 0 candidates = .ok windows) (w : SnapshotWindow) :
    w ∈ windows ↔ ∃ item ∈ s.managed, isSource twinId item ∧
      ∃ n, readSource parseDate text parse s item = .ok (n, w) ∧ overlaps w.periodFrom w.periodTo selection := by
  rw [collect_eq_ok hwindows]
  simp only [List.mem_map, List.mem_filterMap, id_eq, exists_eq_right, Prod.exists,
    Except.mem_of_mapM_eq_ok hcandidates, candidate_eq_some, List.mem_filter, and_assoc]
  constructor
  · rintro ⟨n, item, hmem, hsource, hread, hover⟩
    exact ⟨item, hmem, hsource, n, hread, hover⟩
  · rintro ⟨item, hmem, hsource, n, hread, hover⟩
    exact ⟨n, item, hmem, hsource, hread, hover⟩

/-- The windows of a dataset are the sources whose period overlaps the selection, and its period holds theirs. -/
theorem exportDataset_eq_ok (h : exportDataset parseDate text parse s twinId createdAt selection = .ok d) :
    (∀ w, w ∈ d.windows ↔ ∃ item ∈ s.managed, isSource twinId item ∧
      ∃ n, readSource parseDate text parse s item = .ok (n, w) ∧ overlaps w.periodFrom w.periodTo selection) ∧
    ∀ w ∈ d.windows, d.periodFrom ≤ w.periodFrom ∧ w.periodTo ≤ d.periodTo := by
  obtain ⟨candidates, hcandidates, h⟩ := Except.bind_eq_ok.mp h
  obtain ⟨windows, hwindows, h⟩ := Except.bind_eq_ok.mp h
  split at h
  case h_1 => cases h
  case h_2 w ws hsorted =>
    obtain rfl := Except.ok.inj h
    constructor
    · intro w'
      rw [← mem_collected hcandidates hwindows w']
      exact hsorted ▸ List.mem_mergeSort
    · obtain ⟨hfrom, hfroms⟩ := foldl_min_le ws w.periodFrom
      obtain ⟨hto, htos⟩ := le_foldl_max ws w.periodTo
      intro w' hw'
      rcases List.mem_cons.mp hw' with rfl | hw'
      · exact ⟨hfrom, hto⟩
      · exact ⟨hfroms w' hw', htos w' hw'⟩

/-- An interval without telemetry: no source overlaps the selection. -/
theorem exportDataset_eq_empty
    (h : exportDataset parseDate text parse s twinId createdAt selection = .error (.app sourceEmpty)) :
    ∀ item ∈ s.managed, isSource twinId item → ∀ n w, readSource parseDate text parse s item = .ok (n, w) →
      overlaps w.periodFrom w.periodTo selection = false := by
  rcases Except.bind_eq_error.mp h with h | ⟨candidates, hcandidates, h⟩
  · obtain ⟨item, -, h⟩ := Except.exists_of_mapM_eq_error h
    exact absurd h candidate_ne_empty
  · rcases Except.bind_eq_error.mp h with h | ⟨windows, hwindows, h⟩
    · have htoo := collect_eq_error h
      simp [sourceEmpty, sourceTooLarge] at htoo
    · intro item hmem hsource n w hread
      split at h
      case h_1 hsorted =>
        have hnone : w ∉ windows := by
          intro hw
          have hw' : w ∈ windows.mergeSort SnapshotWindow.before := List.mem_mergeSort.mpr hw
          rw [hsorted] at hw'
          cases hw'
        rw [mem_collected hcandidates hwindows] at hnone
        exact Bool.eq_false_iff.mpr fun hover => hnone ⟨item, hmem, hsource, n, hread, hover⟩
      case h_2 => cases h

/-- Every source of the Twin is read, and all of them fit in one dataset. -/
structure Readable (parseDate : String → Number) (text : Bytes → String) (parse : String → Option Json)
    (s : Sources) (twinId : String) (length : ManagedStoredObject → Nat) : Prop where
  read : ∀ item ∈ s.managed, isSource twinId item →
    ∃ w, readSource parseDate text parse s item = .ok (length item, w)
  fits : ((s.managed.filter (isSource twinId)).map length).sum ≤ MAX_DATASET_BYTES

variable {length : ManagedStoredObject → Nat}

/-- What is selected is no longer than all that was read. -/
theorem sum_candidates_le {items : List ManagedStoredObject} {candidates : List (Option (Nat × SnapshotWindow))}
    (hread : ∀ item ∈ items, ∃ w, readSource parseDate text parse s item = .ok (length item, w))
    (h : items.mapM (candidate parseDate text parse s selection) = .ok candidates) :
    ((candidates.filterMap id).map Prod.fst).sum ≤ (items.map length).sum := by
  induction items generalizing candidates with
  | nil =>
    obtain rfl := Except.pure_eq_ok.mp h
    exact Nat.le_refl _
  | cons item items ih =>
    rw [List.mapM_cons] at h
    obtain ⟨c, hc, h⟩ := Except.bind_eq_ok.mp h
    obtain ⟨cs, hcs, h⟩ := Except.bind_eq_ok.mp h
    obtain rfl := Except.pure_eq_ok.mp h
    have hrest := ih (fun item' hitem' => hread item' (List.mem_cons_of_mem _ hitem')) hcs
    rw [List.map_cons, List.sum_cons]
    cases c with
    | none =>
      rw [List.filterMap_cons_none rfl]
      exact hrest.trans (Nat.le_add_left _ _)
    | some p =>
      obtain ⟨w, hw⟩ := hread item List.mem_cons_self
      obtain rfl := Except.ok.inj (hw.symm.trans (candidate_eq_some.mp hc).1)
      rw [List.filterMap_cons_some (f := id) rfl, List.map_cons, List.sum_cons]
      exact Nat.add_le_add_left hrest _

/-- Readable sources give a dataset, or there is none in the interval. -/
theorem exportDataset_of_readable (createdAt : String) (selection : Selection) (h : Readable parseDate text parse s twinId length) :
    (∃ d, exportDataset parseDate text parse s twinId createdAt selection = .ok d) ∨
      exportDataset parseDate text parse s twinId createdAt selection = .error (.app sourceEmpty) := by
  have hread : ∀ item ∈ s.managed.filter (isSource twinId),
      ∃ w, readSource parseDate text parse s item = .ok (length item, w) := by
    intro item hitem
    obtain ⟨hmem, hsource⟩ := List.mem_filter.mp hitem
    exact h.read item hmem hsource
  obtain ⟨candidates, hcandidates⟩ := Except.exists_mapM_eq_ok
    (f := candidate parseDate text parse s selection) fun item hitem => by
      obtain ⟨w, hw⟩ := hread item hitem
      exact ⟨_, by rw [candidate, hw]; rfl⟩
  obtain ⟨windows, hwindows⟩ := collect_of_fits (n := 0) candidates
    (by simpa using (sum_candidates_le hread hcandidates).trans h.fits)
  unfold exportDataset
  rw [hcandidates, ok_bind, hwindows, ok_bind]
  split
  · exact .inr rfl
  · exact .inl ⟨_, rfl⟩

/-! ## The windows of the aggregator -/

/-- The time is inside the selection. -/
def inside (selection : Selection) (t : Number) : Bool := overlaps t t selection

omit [Services] in
/-- A period with a time inside the selection overlaps it. -/
theorem overlaps_of_inside {periodFrom periodTo t : Number} (hfrom : periodFrom.le t) (hto : t.le periodTo)
    (h : inside selection t) : overlaps periodFrom periodTo selection := by
  obtain ⟨from?, to?⟩ := selection
  simp only [inside, overlaps, Bool.and_eq_true] at h ⊢
  constructor
  · cases from? with
    | none => rfl
    | some a => exact Number.le_trans h.1 hto
  · cases to? with
    | none => rfl
    | some b => exact Number.le_trans hfrom h.2

/-- A timestamp as it is read again: what is not finite is written as `null`, which is zero. -/
def rereadTime (t : Number) (fallback : Nat) : Nat := if t.isFinite then t.safeNat?.getD fallback else 0

/-- The period that is read of a stored window; one without a Twin or a source has no times. -/
def recordedPeriod (w : Window) (fallback : Nat) : Nat × Nat :=
  if w.legacy then (fallback, fallback)
  else (rereadTime w.fromTimestamp fallback, rereadTime w.toTimestamp (rereadTime w.fromTimestamp fallback))

/-- All samples were observed between the recorded times. -/
def Covers (w : Window) (fallback : Nat) : Prop :=
  ∀ x ∈ w.samples, ((recordedPeriod w fallback).1 : Number).le x.observedAt ∧
    x.observedAt.le (recordedPeriod w fallback).2

instance (w : Window) (fallback : Nat) : Decidable (Covers w fallback) :=
  inferInstanceAs (Decidable (∀ x ∈ w.samples, _))

/-- The window belongs to the Twin. -/
def OfTwin (twinId : String) (f : Flush) : Prop :=
  ∃ t, f.window.metadata.twinId = some t ∧ toLowerCase t = toLowerCase twinId

/-- The window was stored, and its object is still listed and read. -/
structure Retained (s : Sources) (twinId : String) (f : Flush) (item : ManagedStoredObject) : Prop where
  stored : f.isStored
  listed : item ∈ s.managed
  source : isSource twinId item
  content : s.read item.uri = some (utf8 f.window.serialized)

/-- The window of the object is one of the dataset. -/
def Included (d : ExportDataset) (f : Flush) (item : ManagedStoredObject) : Prop :=
  ∃ w ∈ d.windows, w.sourceUri = item.uri ∧ w.retainedAt = item.createdAt ∧ w.payload = written f.window.content

theorem safeTimestamp_number (t : Number) (fallback : Nat) :
    safeTimestamp (some (written (.number t))) fallback = .ok (rereadTime t fallback) := by
  unfold written rereadTime
  split
  · rfl
  · rfl

/-- What is read of a retained window. -/
theorem readSource_retained (parseDate : String → Number) {f : Flush} (htext : ∀ t, text (utf8 t) = t) (hreads : Reads parse)
    (h : Retained s twinId f item) : readSource parseDate text parse s item =
      .ok ((utf8 f.window.serialized).length, ⟨item.uri, item.createdAt,
        (recordedPeriod f.window (fallbackOf parseDate s item)).1,
        (recordedPeriod f.window (fallbackOf parseDate s item)).2, written f.window.content⟩) := by
  have hparse : parse (text (utf8 f.window.serialized)) = some (written f.window.content) := by
    rw [htext]
    exact hreads _
  unfold readSource
  rw [h.content]
  dsimp only [awaited]
  rw [ok_bind, hparse]
  dsimp only
  cases hlegacy : f.window.legacy with
  | true =>
    have hfield (k : String) : field (some (written f.window.content)) k = none := by
      rw [Window.content, hlegacy]
      rfl
    rw [hfield, hfield, recordedPeriod, hlegacy]
    rfl
  | false =>
    have hfields : field (some (written f.window.content)) "fromTimestamp" =
          some (written (.number f.window.fromTimestamp)) ∧
        field (some (written f.window.content)) "toTimestamp" = some (written (.number f.window.toTimestamp)) := by
      rw [Window.content, hlegacy]
      simp only [Bool.false_eq_true, if_false, field, Option.bind_some, get?_written]
      cases f.window.metadata.twinId <;> cases f.window.metadata.source <;> exact ⟨rfl, rfl⟩
    rw [hfields.1, hfields.2, safeTimestamp_number, ok_bind, safeTimestamp_number, ok_bind, recordedPeriod, hlegacy]
    rfl

/-! ## Completeness -/

/-- The answer reports the period of the dataset. -/
theorem registerDataset_eq_ok (h : registerDataset r d = .ok a) :
    a.periodFrom = d.periodFrom ∧ a.periodTo = d.periodTo ∧ a.sourceWindowCount = d.windows.length := by
  obtain ⟨-, h⟩ := Except.check_bind_eq_ok.mp h
  obtain ⟨stored, -, h⟩ := Except.bind_eq_ok.mp h
  obtain ⟨mutation, -, h⟩ := Except.bind_eq_ok.mp h
  obtain ⟨datasetId, -, h⟩ := Except.bind_eq_ok.mp h
  split at h
  · cases h
  · obtain ⟨digest, -, h⟩ := Except.bind_eq_ok.mp h
    obtain rfl := Except.pure_eq_ok.mp h
    exact ⟨rfl, rfl, rfl⟩

theorem createSnapshot_eq_ok (h : createSnapshot parseDate text parse s r twinId createdAt selection = .ok (d, a)) :
    exportDataset parseDate text parse s twinId createdAt selection = .ok d ∧ registerDataset r d = .ok a := by
  obtain ⟨d', hd, h⟩ := Except.bind_eq_ok.mp h
  obtain ⟨a', ha, h⟩ := Except.bind_eq_ok.mp h
  obtain ⟨rfl, rfl⟩ := Prod.mk.inj (Except.pure_eq_ok.mp h)
  exact ⟨hd, ha⟩

/-- The snapshot of a selection includes every window with a sample inside, its period bounds the samples of what it
includes, and the interval is without telemetry only when no sample is inside. -/
structure Complete (parseDate : String → Number) (text : Bytes → String) (parse : String → Option Json)
    (s : Sources) (r : Registry) (twinId createdAt : String) (selection : Selection) (flushes : List Flush)
    (object : Flush → ManagedStoredObject) : Prop where
  includes : ∀ d a, createSnapshot parseDate text parse s r twinId createdAt selection = .ok (d, a) →
    ∀ f ∈ flushes, OfTwin twinId f → (∃ x ∈ f.window.samples, inside selection x.observedAt) →
      Included d f (object f)
  bounds : ∀ d a, createSnapshot parseDate text parse s r twinId createdAt selection = .ok (d, a) →
    ∀ f ∈ flushes, OfTwin twinId f → Included d f (object f) → ∀ x ∈ f.window.samples,
      (a.periodFrom : Number).le x.observedAt ∧ x.observedAt.le a.periodTo
  nonempty : exportDataset parseDate text parse s twinId createdAt selection = .error (.app sourceEmpty) →
    ∀ f ∈ flushes, OfTwin twinId f → ∀ x ∈ f.window.samples, inside selection x.observedAt = false

variable {flushes : List Flush} {object : Flush → ManagedStoredObject}

/-- The recorded period of an included window overlaps the selection and lies in the period of the dataset. -/
theorem period_of_included {f : Flush} (htext : ∀ t, text (utf8 t) = t) (hreads : Reads parse)
    (hretained : Retained s twinId f item)
    (hexport : exportDataset parseDate text parse s twinId createdAt selection = .ok d) (h : Included d f item) :
    overlaps (recordedPeriod f.window (fallbackOf parseDate s item)).1
        (recordedPeriod f.window (fallbackOf parseDate s item)).2 selection ∧
      d.periodFrom ≤ (recordedPeriod f.window (fallbackOf parseDate s item)).1 ∧
      (recordedPeriod f.window (fallbackOf parseDate s item)).2 ≤ d.periodTo := by
  obtain ⟨w, hw, huri, hcreated, -⟩ := h
  obtain ⟨hmem, hperiod⟩ := exportDataset_eq_ok hexport
  obtain ⟨item', -, -, n, hread, hover⟩ := (hmem w).mp hw
  -- the object that the window was read of is listed with the same name and time
  obtain ⟨huri', hcreated'⟩ := readSource_eq_ok hread
  have hsame := readSource_retained parseDate htext hreads hretained
  rw [readSource_congr s (huri.symm.trans huri') (hcreated.symm.trans hcreated'), hread] at hsame
  obtain ⟨rfl, rfl⟩ := Prod.mk.inj (Except.ok.inj hsame)
  exact ⟨hover, hperiod _ hw⟩

theorem complete_of_covers (htext : ∀ t, text (utf8 t) = t) (hreads : Reads parse)
    (hretained : ∀ f ∈ flushes, OfTwin twinId f → Retained s twinId f (object f))
    (hcovers : ∀ f ∈ flushes, OfTwin twinId f → Covers f.window (fallbackOf parseDate s (object f))) :
    Complete parseDate text parse s r twinId createdAt selection flushes object where
  includes d a hsnapshot f hf hof := by
    rintro ⟨x, hx, hinside⟩
    obtain ⟨hfrom, hto⟩ := hcovers f hf hof x hx
    have hr := hretained f hf hof
    obtain ⟨hmem, -⟩ := exportDataset_eq_ok (createSnapshot_eq_ok hsnapshot).1
    exact ⟨_, (hmem _).mpr ⟨object f, hr.listed, hr.source, _, readSource_retained parseDate htext hreads hr,
      overlaps_of_inside hfrom hto hinside⟩, rfl, rfl, rfl⟩
  bounds d a hsnapshot f hf hof hincluded x hx := by
    obtain ⟨hexport, hregister⟩ := createSnapshot_eq_ok hsnapshot
    obtain ⟨hfrom, hto, -⟩ := registerDataset_eq_ok hregister
    obtain ⟨-, hle, hge⟩ := period_of_included htext hreads (hretained f hf hof) hexport hincluded
    obtain ⟨hcoverFrom, hcoverTo⟩ := hcovers f hf hof x hx
    have hnat {m n : Nat} (h : m ≤ n) : (m : Number).le n := by simpa [Number.ofNat_le] using h
    rw [hfrom, hto]
    exact ⟨Number.le_trans (hnat hle) hcoverFrom, Number.le_trans hcoverTo (hnat hge)⟩
  nonempty hempty f hf hof x hx := by
    obtain ⟨hfrom, hto⟩ := hcovers f hf hof x hx
    have hr := hretained f hf hof
    have hout := exportDataset_eq_empty hempty (object f) hr.listed hr.source _ _
      (readSource_retained parseDate htext hreads hr)
    refine Bool.eq_false_iff.mpr fun hinside => ?_
    rw [overlaps_of_inside hfrom hto hinside] at hout
    cases hout

/-- The selection of one time finds out whether the period of a window reaches it. -/
theorem covers_of_complete {length : ManagedStoredObject → Nat} (htext : ∀ t, text (utf8 t) = t)
    (hreads : Reads parse) (hretained : ∀ f ∈ flushes, OfTwin twinId f → Retained s twinId f (object f))
    (hreadable : Readable parseDate text parse s twinId length)
    (hregisters : ∀ selection d, exportDataset parseDate text parse s twinId createdAt selection = .ok d →
      ∃ a, registerDataset r d = .ok a)
    (hcomplete : ∀ selection, Complete parseDate text parse s r twinId createdAt selection flushes object) :
    ∀ f ∈ flushes, OfTwin twinId f → Covers f.window (fallbackOf parseDate s (object f)) := by
  intro f hf hof x hx
  -- a selection with the time inside has a dataset with the window
  have hincluded (selection : Selection) (hinside : inside selection x.observedAt) :
      ∃ d a, createSnapshot parseDate text parse s r twinId createdAt selection = .ok (d, a) ∧
        exportDataset parseDate text parse s twinId createdAt selection = .ok d ∧ Included d f (object f) := by
    rcases exportDataset_of_readable createdAt selection hreadable with ⟨d, hd⟩ | hempty
    · obtain ⟨a, ha⟩ := hregisters selection d hd
      have hsnapshot : createSnapshot parseDate text parse s r twinId createdAt selection = .ok (d, a) := by
        rw [createSnapshot, hd, ok_bind, ha]
        rfl
      exact ⟨d, a, hsnapshot, hd, (hcomplete selection).includes d a hsnapshot f hf hof ⟨x, hx, hinside⟩⟩
    · rw [(hcomplete selection).nonempty hempty f hf hof x hx] at hinside
      cases hinside
  by_cases hnan : x.observedAt = .nan
  · -- no period bounds a time that is not a number
    obtain ⟨d, a, hsnapshot, -, hin⟩ := hincluded {} rfl
    obtain ⟨hfrom, -⟩ := (hcomplete {}).bounds d a hsnapshot f hf hof hin x hx
    rw [hnan] at hfrom
    cases hfrom
  · have hself : inside ⟨some x.observedAt, some x.observedAt⟩ x.observedAt := by
      simp [inside, overlaps, Number.le_refl hnan]
    obtain ⟨d, a, -, hexport, hin⟩ := hincluded _ hself
    obtain ⟨hover, -⟩ := period_of_included htext hreads (hretained f hf hof) hexport hin
    simpa [overlaps, and_comm] using hover

variable {c : Config Aggregator Task} {es : List (Event Call (Nat × Answer) Empty)}

/-- Once no window is active, every sample that arrived is in a window that was taken. -/
theorem exists_taken (hrun : aggregator.run ⟨.empty, []⟩ es = some c) (hflushed : c.shared.windows.entries = [])
    {e : String × DatasetSample} (he : e ∈ c.shared.ingested) :
    ∃ f ∈ c.tasks.flatten, f.key = e.1 ∧ e.2 ∈ f.window.samples := by
  have hplaced := (run_spec placed_empty hrun).1
  have hmem := hplaced.perm.subset he
  rw [active, hflushed, List.flatMap_nil, List.nil_append] at hmem
  obtain ⟨f, hf, hsample⟩ := List.mem_flatMap.mp hmem
  obtain ⟨x, hx, rfl⟩ := List.mem_map.mp hsample
  exact ⟨f, hf, rfl, hx⟩

/-- The snapshots of a Twin whose windows are all stored are complete for every selection exactly when all samples
were observed between the recorded times of their windows. -/
theorem complete_iff_covers (htext : ∀ t, text (utf8 t) = t) (hreads : Reads parse)
    (hrun : aggregator.run ⟨.empty, []⟩ es = some c) (hflushed : c.shared.windows.entries = [])
    (hretained : ∀ f ∈ c.tasks.flatten, OfTwin twinId f → Retained s twinId f (object f)) :
    (∀ e ∈ c.shared.ingested, ∃ f ∈ c.tasks.flatten, f.key = e.1 ∧ e.2 ∈ f.window.samples) ∧
      ((∀ f ∈ c.tasks.flatten, OfTwin twinId f → Covers f.window (fallbackOf parseDate s (object f))) →
        ∀ r createdAt selection,
          Complete parseDate text parse s r twinId createdAt selection c.tasks.flatten object) ∧
      ∀ r createdAt length, Readable parseDate text parse s twinId length →
        (∀ selection d, exportDataset parseDate text parse s twinId createdAt selection = .ok d →
          ∃ a, registerDataset r d = .ok a) →
        (∀ selection, Complete parseDate text parse s r twinId createdAt selection c.tasks.flatten object) →
        ∀ f ∈ c.tasks.flatten, OfTwin twinId f → Covers f.window (fallbackOf parseDate s (object f)) := by
  refine ⟨fun e he => exists_taken hrun hflushed he, fun hcovers r createdAt selection => ?_, ?_⟩
  · exact complete_of_covers htext hreads hretained hcovers
  · intro r createdAt length hreadable hregisters hcomplete
    exact covers_of_complete htext hreads hretained hreadable hregisters hcomplete

end

/-! ## Two samples -/

@[reducible] def exactServices : Services := { Services.plain with toRuntime := .exact }

def decodeUtf8 (bytes : Bytes) : String := (String.fromUTF8? ⟨bytes.toArray⟩).getD ""

theorem decodeUtf8_utf8 (t : String) : decodeUtf8 (utf8 t) = t := by
  have hvalid : String.fromUTF8? t.toUTF8 = some t := by
    rw [String.fromUTF8?, dif_pos (show t.toUTF8.IsValidUTF8 from t.isValidUTF8)]
    rfl
  have hbytes : (⟨(utf8 t).toArray⟩ : ByteArray) = t.toUTF8 := by
    rw [utf8, Array.toArray_toList]
  rw [decodeUtf8, hbytes, hvalid]
  rfl

def sampleMetadata : DatasetMetadata := { twinId := some "0x1", source := some "mqtt://t" }

/-- Two samples, their flush, and the answer of its store. -/
def sampleRun (first last : Number) : List (Event Call (Nat × Answer) Empty) :=
  [.call (.ingest "0x1:t" .null sampleMetadata first), .call (.ingest "0x1:t" .null sampleMetadata last),
    .call (.flush "0x1:t"), .resume 2 (0, .stored ⟨"file:a", "0a", none, none⟩)]

def sampleWindow (first last : Number) : Window :=
  (Window.opened ⟨first, .null⟩ sampleMetadata).push ⟨last, .null⟩

def sampleObject : ManagedStoredObject := ⟨"file:a", "0x1", "dataset", "t"⟩

def sampleSources (first last : Number) : Sources :=
  let _ := exactServices
  { managed := [sampleObject], read := fun _ => some (utf8 (sampleWindow first last).serialized), now := fun _ => 7 }

/-- Observed in order, the samples are in every snapshot. -/
theorem complete_iff_covers_sample : let _ := exactServices
    ∃ c, aggregator.run ⟨.empty, []⟩ (sampleRun 3 5) = some c ∧ ∀ r createdAt selection,
      Complete (fun _ => .nan) decodeUtf8 readBack (sampleSources 3 5) r "0x1" createdAt selection c.tasks.flatten
        fun _ => sampleObject := by
  intro _
  have hnumbers : NumberText := numberText_exact
  refine ⟨_, rfl, (@complete_iff_covers _ (fun _ => .nan) _ _ _ _ _ _ (sampleRun 3 5) decodeUtf8_utf8 reads_readBack
    rfl rfl ?_).2.1 ?_⟩
  · rintro f hf -
    obtain rfl := List.mem_singleton.mp hf
    exact ⟨rfl, List.mem_singleton.mpr rfl, by decide, rfl⟩
  · rintro f hf -
    obtain rfl := List.mem_singleton.mp hf
    decide

/-- The second sample was observed before the first: the selection around the first finds no telemetry. -/
theorem telemetry_missed : let _ := exactServices
    ¬ ∀ (es : List (Event Call (Nat × Answer) Empty)) (c : Config Aggregator Task) (parseDate : String → Number)
      (text : Bytes → String) (parse : String → Option Json) (s : Sources) (r : Registry)
      (twinId createdAt : String) (selection : Selection) (object : Flush → ManagedStoredObject),
      (∀ t, text (utf8 t) = t) → Reads parse → aggregator.run ⟨.empty, []⟩ es = some c →
      c.shared.windows.entries = [] →
      (∀ f ∈ c.tasks.flatten, OfTwin twinId f → Retained s twinId f (object f)) →
      Complete parseDate text parse s r twinId createdAt selection c.tasks.flatten object := by
  intro _ h
  have hnumbers : NumberText := numberText_exact
  have hretained : Retained (sampleSources 5 3) "0x1" ⟨"0x1:t", sampleWindow 5 3, .registering
      ⟨"file:a", "0a", none, none⟩ ((sampleWindow 5 3).dataset ⟨"file:a", "0a", none, none⟩)⟩ sampleObject :=
    ⟨rfl, List.mem_singleton.mpr rfl, by decide, rfl⟩
  have hcomplete := h (sampleRun 5 3) _ (fun _ => .nan) decodeUtf8 readBack (sampleSources 5 3) ⟨fun _ => none,
    fun _ => none, []⟩ "0x1" "" ⟨some 4, some 5⟩ (fun _ => sampleObject) decodeUtf8_utf8 reads_readBack rfl rfl
    fun f hf _ => by obtain rfl := List.mem_singleton.mp hf; exact hretained
  have hread := readSource_retained (fun _ => .nan) decodeUtf8_utf8 reads_readBack hretained
  have hempty : exportDataset (fun _ => .nan) decodeUtf8 readBack (sampleSources 5 3) "0x1" "" ⟨some 4, some 5⟩ =
      .error (.app sourceEmpty) := by
    have hsources : (sampleSources 5 3).managed.filter (isSource "0x1") = [sampleObject] :=
      List.filter_cons_of_pos (by decide)
    have hcandidate : candidate (fun _ => .nan) decodeUtf8 readBack (sampleSources 5 3) ⟨some 4, some 5⟩
        sampleObject = .ok none := by
      rw [candidate, hread, ok_bind, if_neg (by decide)]
      rfl
    have hcandidates : [sampleObject].mapM (candidate (fun _ => .nan) decodeUtf8 readBack (sampleSources 5 3)
        ⟨some 4, some 5⟩) = .ok [none] := by
      rw [List.mapM_cons, hcandidate]
      rfl
    rw [exportDataset, hsources, hcandidates, ok_bind, collect, collect, ok_bind, List.mergeSort_nil]
  have hout := hcomplete.nonempty hempty _ (List.mem_singleton.mpr rfl) ⟨"0x1", rfl, rfl⟩ ⟨5, .null⟩
    List.mem_cons_self
  exact absurd hout (by decide)

end Evidence
