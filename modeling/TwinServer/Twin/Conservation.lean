-- SUMMARY: Where the samples of an aggregator are, and that none is lost exactly while no store has failed.
import TwinServer.Twin.Aggregator

/-!
# The samples of an aggregator

Every sample that arrived is in an active window, in a window that is being stored, in a stored one, or in
one whose store has failed. The last kind is gone: nothing puts its samples back.
-/

open Js Js.Json Async

namespace Twin

/-! ## Where a sample is -/

/-- The samples of a window, with their key. -/
def keyed (key : String) (w : Window) : List (String × DatasetSample) := w.samples.map (key, ·)

def Flush.samples (f : Flush) : List (String × DatasetSample) := keyed f.key f.window

def Flush.isStoring (f : Flush) : Bool := f.stage matches .storing

def Flush.isFailed (f : Flush) : Bool := f.stage matches .failed _

/-- The window of the flush is stored. -/
def Flush.isStored (f : Flush) : Bool := !f.isFailed && !f.isStoring

/-- The samples of the active windows. -/
def active (windows : Map Window) : List (String × DatasetSample) :=
  windows.entries.flatMap fun e => keyed e.1 e.2

/-- The samples of the flushes of a kind. -/
def taken (p : Flush → Bool) (flushes : List Flush) : List (String × DatasetSample) :=
  (flushes.filter p).flatMap Flush.samples

/-- Each sample that arrived is in exactly one of: an active window, a store in progress, a stored
window. -/
def Conserved (c : Config Aggregator Task) : Prop :=
  c.shared.ingested.Perm (active c.shared.windows ++
    (taken Flush.isStoring c.tasks.flatten ++ taken Flush.isStored c.tasks.flatten))

/-- The samples of a key in the order of their arrival. -/
def Aggregator.arrived (s : Aggregator) (key : String) : List DatasetSample :=
  (s.ingested.filter (·.1 = key)).map Prod.snd

/-- The windows keep the order of the samples of their key; an active one ends with the last of them. -/
structure InOrder (s : Aggregator) (flushes : List Flush) : Prop where
  active : ∀ e ∈ s.windows.entries, e.2.samples <:+ s.arrived e.1
  taken : ∀ f ∈ flushes, f.window.samples <:+: s.arrived f.key

theorem perm_middle {α : Type} (xs ys zs : List α) : (xs ++ (ys ++ zs)).Perm (ys ++ (xs ++ zs)) := by
  rw [← List.append_assoc, ← List.append_assoc]
  exact List.perm_append_comm.append_right _

/-- The samples of the flushes, by what became of them. -/
theorem perm_taken (flushes : List Flush) : (flushes.flatMap Flush.samples).Perm
    ((taken Flush.isStoring flushes ++ taken Flush.isStored flushes) ++ taken Flush.isFailed flushes) := by
  induction flushes with
  | nil => exact .refl _
  | cons f flushes ih =>
      rw [List.flatMap_cons]
      refine (ih.append_left _).trans ?_
      have hkinds : f.isStoring = true ∧ f.isStored = false ∧ f.isFailed = false ∨
          f.isStoring = false ∧ f.isStored = true ∧ f.isFailed = false ∨
          f.isStoring = false ∧ f.isStored = false ∧ f.isFailed = true := by
        cases hstage : f.stage <;> simp [Flush.isStoring, Flush.isStored, Flush.isFailed, hstage]
      rcases hkinds with ⟨h₁, h₂, h₃⟩ | ⟨h₁, h₂, h₃⟩ | ⟨h₁, h₂, h₃⟩
      · simp only [taken, List.filter_cons, h₁, h₂, h₃, if_true, List.flatMap_cons, List.append_assoc]
        exact .refl _
      · simp only [taken, List.filter_cons, h₁, h₂, h₃, if_true, List.flatMap_cons, List.append_assoc]
        exact perm_middle _ _ _
      · simp only [taken, List.filter_cons, h₁, h₂, h₃, if_true, List.flatMap_cons]
        exact perm_middle _ _ _

/-! ## What a call does -/

variable {windows : Map Window} {s s' : Aggregator} {key : String} {flushes : List Flush}

theorem keyed_push (key : String) (w : Window) (sample : DatasetSample) :
    keyed key (w.push sample) = keyed key w ++ [(key, sample)] := by
  simp only [keyed, Window.push, List.map_append, List.map_cons, List.map_nil]

/-- A sample that arrives joins the active ones. -/
theorem perm_ingest (windows : Map Window) (key : String) (sample : DatasetSample)
    (metadata : DatasetMetadata) :
    (active (ingest windows key sample metadata)).Perm (active windows ++ [(key, sample)]) := by
  unfold ingest
  split
  case h_1 current hcurrent =>
    have hafter := (windows.perm_set key (current.push sample)).flatMap_right fun e => keyed e.1 e.2
    have hbefore := (Map.perm_delete hcurrent).flatMap_right fun e => keyed e.1 e.2
    rw [List.flatMap_cons, keyed_push, List.append_assoc] at hafter
    rw [List.flatMap_cons] at hbefore
    calc active (windows.set key (current.push sample))
      _ |>.Perm (keyed key current ++ ([(key, sample)] ++ active (windows.delete key))) := hafter
      _ |>.Perm (keyed key current ++ (active (windows.delete key) ++ [(key, sample)])) :=
        List.perm_append_comm.append_left _
      _ |>.Perm (active windows ++ [(key, sample)]) := by
        rw [← List.append_assoc]
        exact hbefore.symm.append_right _
  case h_2 hnone =>
    have hafter := (windows.perm_set key (.opened sample metadata)).flatMap_right fun e => keyed e.1 e.2
    rw [List.flatMap_cons, Map.delete_of_get? hnone] at hafter
    exact hafter.trans List.perm_append_comm

/-- A flush takes the samples of its window. -/
theorem perm_flush (windows : Map Window) (key : String) :
    (active windows).Perm (active (flush windows key).1 ++ (flush windows key).2.flatMap Flush.samples) := by
  unfold flush
  split
  case h_1 current hcurrent =>
    have hperm := (Map.perm_delete hcurrent).flatMap_right fun e => keyed e.1 e.2
    rw [List.flatMap_cons] at hperm
    rw [List.flatMap_singleton]
    exact hperm.trans List.perm_append_comm
  case h_2 => simp

theorem perm_flushAll (windows : Map Window) (keys : List String) :
    (active windows).Perm
      (active (flushAll windows keys).1 ++ (flushAll windows keys).2.flatMap Flush.samples) := by
  induction keys generalizing windows with
  | nil => simp [flushAll]
  | cons key keys ih =>
    simp only [flushAll, List.flatMap_append]
    refine (perm_flush windows key).trans (((ih _).append_right _).trans ?_)
    rw [List.append_assoc]
    exact List.perm_append_comm.append_left _

/-- What a call takes from the map is about to be stored. -/
theorem storing_flush {f : Flush} (h : f ∈ (flush windows key).2) :
    f.stage = .storing ∧ (f.key, f.window) ∈ windows.entries := by
  unfold flush at h
  split at h
  case h_1 current hcurrent =>
    obtain rfl := List.mem_singleton.mp h
    exact ⟨rfl, (Map.perm_delete hcurrent).symm.subset List.mem_cons_self⟩
  case h_2 => cases h

theorem entries_flush {e : String × Window} (h : e ∈ (flush windows key).1.entries) :
    e ∈ windows.entries := by
  unfold flush at h
  split at h
  case h_1 => exact (List.mem_filter.mp h).1
  case h_2 => exact h

theorem entries_flushAll {keys : List String} {e : String × Window}
    (h : e ∈ (flushAll windows keys).1.entries) : e ∈ windows.entries := by
  induction keys generalizing windows with
  | nil => exact h
  | cons key keys ih => exact entries_flush (ih h)

theorem storing_flushAll {keys : List String} {f : Flush} (h : f ∈ (flushAll windows keys).2) :
    f.stage = .storing ∧ (f.key, f.window) ∈ windows.entries := by
  induction keys generalizing windows with
  | nil => cases h
  | cons key keys ih =>
    rcases List.mem_append.mp h with h | h
    · exact storing_flush h
    · exact (ih h).imp_right entries_flush

theorem arrived_append (s : Aggregator) (key key' : String) (sample : DatasetSample)
    (windows : Map Window) : (⟨windows, s.ingested ++ [(key, sample)]⟩ : Aggregator).arrived key' =
      s.arrived key' ++ if key' = key then [sample] else [] := by
  simp only [Aggregator.arrived, List.filter_append, List.map_append]
  by_cases hkey : key' = key
  · subst hkey
    simp
  · simp [hkey, Ne.symm hkey]

/-- The samples keep their order when one more arrives. -/
theorem InOrder.ingest (h : InOrder s flushes) (key : String) (sample : DatasetSample)
    (metadata : DatasetMetadata) :
    InOrder ⟨Twin.ingest s.windows key sample metadata, s.ingested ++ [(key, sample)]⟩ flushes := by
  constructor
  · intro e he
    rw [arrived_append]
    -- the entry of the key, or one of those beside it
    have hset : ∀ w : Window, e ∈ (s.windows.set key w).entries →
        e = (key, w) ∨ e ∈ s.windows.entries ∧ e.1 ≠ key := by
      intro w he
      rcases List.mem_cons.mp ((s.windows.perm_set key w).subset he) with he | he
      · exact .inl he
      · obtain ⟨hmem, hne⟩ := List.mem_filter.mp he
        exact .inr ⟨hmem, by simpa using hne⟩
    have hother (hmem : e ∈ s.windows.entries) (hne : e.1 ≠ key) :
        e.2.samples <:+ s.arrived e.1 ++ if e.1 = key then [sample] else [] := by
      rw [if_neg hne, List.append_nil]
      exact h.active e hmem
    unfold Twin.ingest at he
    split at he
    case h_1 current hcurrent =>
      rcases hset _ he with rfl | ⟨hmem, hne⟩
      · rw [if_pos rfl]
        obtain ⟨before, hbefore⟩ :=
          h.active (key, current) ((Map.perm_delete hcurrent).symm.subset List.mem_cons_self)
        exact ⟨before, by rw [← hbefore]; exact (List.append_assoc _ _ _).symm⟩
      · exact hother hmem hne
    case h_2 =>
      rcases hset _ he with rfl | ⟨hmem, hne⟩
      · rw [if_pos rfl]
        exact List.suffix_append _ _
      · exact hother hmem hne
  · intro f hf
    rw [arrived_append]
    exact (h.taken f hf).trans (List.prefix_append _ _).isInfix

/-- What is taken from the map keeps its order. -/
theorem InOrder.take {windows : Map Window} {more : List Flush} (h : InOrder s flushes)
    (hwindows : ∀ e ∈ windows.entries, e ∈ s.windows.entries)
    (hmore : ∀ f ∈ more, (f.key, f.window) ∈ s.windows.entries) :
    InOrder { s with windows := windows } (flushes ++ more) := by
  refine ⟨fun e he => h.active e (hwindows e he), fun f hf => ?_⟩
  rcases List.mem_append.mp hf with hf | hf
  · exact h.taken f hf
  · exact (h.active _ (hmore f hf)).isInfix

/-! ## What an answer does -/

section
variable [Runtime]

/-- An answer leaves the key and the window of a flush; it fails when the store has failed. -/
theorem Flush.resume_spec {f f' : Flush} {i : Answer} (h : f.resume i = some f') :
    f'.key = f.key ∧ f'.window = f.window ∧ f.isFailed = false ∧
      (f'.isFailed = true ↔ ∃ e, i = .failed e) := by
  unfold Flush.resume at h
  split at h
  case h_1 o =>
    split at h
    case h_1 hstage =>
      obtain rfl := Option.some.inj h
      simp [isFailed, hstage]
    case h_2 => cases h
  case h_2 e =>
    split at h
    case h_1 hstage =>
      obtain rfl := Option.some.inj h
      simp [isFailed, hstage]
    case h_2 => cases h
  case h_3 a =>
    split at h
    case h_1 hstage =>
      obtain rfl := Option.some.inj h
      simp [isFailed, hstage]
    case h_2 => cases h

/-- The flush that an answer is for, and the others. -/
theorem resume_flatten {tasks : List Task} {n : Nat} {t t' : Task} {i : Nat × Answer}
    (ht : tasks[n]? = some t) (h : resume s t i = some (s', t')) :
    s' = s ∧ ∃ f f' others, tasks.flatten.Perm (f :: others) ∧
      (tasks.set n t').flatten.Perm (f' :: others) ∧ f.resume i.2 = some f' := by
  obtain ⟨f, hf, h⟩ := Option.bind_eq_some_iff.mp h
  obtain ⟨f', hresume, h⟩ := Option.map_eq_some_iff.mp h
  obtain ⟨rfl, rfl⟩ := Prod.mk.inj h
  refine ⟨rfl, f, f', t.eraseIdx i.1 ++ (tasks.eraseIdx n).flatten, ?_, ?_, hresume⟩
  · have houter := (perm_eraseIdx ht).flatten
    rw [List.flatten_cons] at houter
    exact houter.trans ((perm_eraseIdx hf).append_right _)
  · have houter := (perm_set ht (t.set i.1 f')).flatten
    rw [List.flatten_cons] at houter
    exact houter.trans ((perm_set hf f').append_right _)

/-- The samples are where they can be, in the order of their arrival. -/
structure Placed (c : Config Aggregator Task) : Prop where
  perm : c.shared.ingested.Perm
    (active c.shared.windows ++ c.tasks.flatten.flatMap Flush.samples)
  order : InOrder c.shared c.tasks.flatten

omit [Runtime] in
theorem Placed.call {c : Config Aggregator Task} (h : Placed c) {k : Call} {t : Task}
    (hcall : call c.shared k = some (s', t)) : Placed ⟨s', c.tasks ++ [t]⟩ ∧ ∀ f ∈ t, f.stage = .storing := by
  have hflatten (t : Task) : (c.tasks ++ [t]).flatten = c.tasks.flatten ++ t := by simp
  cases k with
  | ingest key value metadata observedAt =>
    obtain ⟨rfl, rfl⟩ := Prod.mk.inj (Option.some.inj hcall)
    refine ⟨⟨?_, ?_⟩, fun f hf => (nomatch hf)⟩
    · dsimp only
      rw [hflatten, List.append_nil]
      have hbefore := h.perm.append_right [(key, (⟨observedAt, value⟩ : DatasetSample))]
      refine hbefore.trans ?_
      refine .trans ?_ ((perm_ingest c.shared.windows key ⟨observedAt, value⟩ metadata).symm.append_right _)
      rw [List.append_assoc, List.append_assoc]
      exact List.perm_append_comm.append_left _
    · rw [hflatten, List.append_nil]
      exact h.order.ingest key ⟨observedAt, value⟩ metadata
  | flush key =>
    obtain ⟨rfl, rfl⟩ := Prod.mk.inj (Option.some.inj hcall)
    refine ⟨⟨?_, ?_⟩, fun f hf => (storing_flush hf).1⟩
    · dsimp only
      rw [hflatten, List.flatMap_append]
      refine h.perm.trans (((perm_flush c.shared.windows key).append_right _).trans ?_)
      rw [List.append_assoc]
      exact List.perm_append_comm.append_left _
    · rw [hflatten]
      exact h.order.take (fun e he => entries_flush he) fun f hf => (storing_flush hf).2
  | close =>
    obtain ⟨rfl, rfl⟩ := Prod.mk.inj (Option.some.inj hcall)
    refine ⟨⟨?_, ?_⟩, fun f hf => (storing_flushAll hf).1⟩
    · dsimp only
      rw [hflatten, List.flatMap_append]
      refine h.perm.trans (((perm_flushAll c.shared.windows c.shared.windows.keys).append_right _).trans ?_)
      rw [List.append_assoc]
      exact List.perm_append_comm.append_left _
    · rw [hflatten]
      exact h.order.take (fun e he => entries_flushAll he) fun f hf => (storing_flushAll hf).2

theorem Placed.resume {c : Config Aggregator Task} (h : Placed c) {n : Nat} {t t' : Task}
    {i : Nat × Answer} (ht : c.tasks[n]? = some t) (hresume : resume c.shared t i = some (s', t')) :
    Placed ⟨s', c.tasks.set n t'⟩ := by
  obtain ⟨rfl, f, f', others, hbefore, hafter, hf⟩ := resume_flatten ht hresume
  obtain ⟨hkey, hwindow, -, -⟩ := Flush.resume_spec hf
  constructor
  · refine h.perm.trans (List.Perm.append_left _ ?_)
    refine (hbefore.flatMap_right _).trans (.trans ?_ (hafter.symm.flatMap_right _))
    have hsamples : f'.samples = f.samples := by rw [Flush.samples, hkey, hwindow, Flush.samples]
    rw [List.flatMap_cons, List.flatMap_cons, hsamples]
  · refine ⟨h.order.active, fun g hg => ?_⟩
    rcases List.mem_cons.mp (hafter.subset hg) with rfl | hg
    · rw [hkey, hwindow]
      exact h.order.taken f (hbefore.symm.subset List.mem_cons_self)
    · exact h.order.taken g (hbefore.symm.subset (List.mem_cons_of_mem _ hg))

variable {c c' : Config Aggregator Task} {es : List (Event Call (Nat × Answer) Empty)}

/-- A store has failed. -/
def HasFailed (c : Config Aggregator Task) : Prop := ∃ f ∈ c.tasks.flatten, f.isFailed

/-- The event is the failure of a store. -/
def Fails : Event Call (Nat × Answer) Empty → Prop
  | .resume _ (_, .failed _) => True
  | _ => False

theorem step_spec {e : Event Call (Nat × Answer) Empty} (h : Placed c)
    (hstep : aggregator.step c e = some c') : Placed c' ∧ (HasFailed c' ↔ HasFailed c ∨ Fails e) := by
  cases e with
  | call k =>
    obtain ⟨s, t, hcall, rfl⟩ := aggregator.step_call hstep
    obtain ⟨hplaced, hstoring⟩ := h.call hcall
    refine ⟨hplaced, ?_⟩
    have hflatten : (c.tasks ++ [t]).flatten = c.tasks.flatten ++ t := by simp
    simp only [HasFailed, hflatten, List.mem_append, Fails, or_false]
    constructor
    · rintro ⟨f, hf | hf, hfailed⟩
      · exact ⟨f, hf, hfailed⟩
      · simp [Flush.isFailed, hstoring f hf] at hfailed
    · rintro ⟨f, hf, hfailed⟩
      exact ⟨f, .inl hf, hfailed⟩
  | resume n i =>
    obtain ⟨t, s, t', ht, hresume, rfl⟩ := aggregator.step_resume hstep
    refine ⟨h.resume ht hresume, ?_⟩
    obtain ⟨-, f, f', others, hbefore, hafter, hf⟩ := resume_flatten ht hresume
    obtain ⟨-, -, hrest, hfails⟩ := Flush.resume_spec hf
    have hfails' : f'.isFailed = true ↔ Fails (.resume n i) := by
      rw [hfails]
      obtain ⟨j, a⟩ := i
      cases a <;> simp [Fails]
    simp only [HasFailed, hbefore.mem_iff, hafter.mem_iff, List.mem_cons, exists_eq_or_imp, hrest,
      hfails', Bool.false_eq_true, false_or]
    exact or_comm
  | env e => cases e

theorem run_spec (h : Placed c) (hrun : aggregator.run c es = some c') :
    Placed c' ∧ (HasFailed c' ↔ HasFailed c ∨ ∃ e ∈ es, Fails e) := by
  induction es generalizing c with
  | nil =>
      obtain rfl := Option.some.inj hrun
      exact ⟨h, by simp⟩
  | cons e es ih =>
      obtain ⟨d, hstep, hrun⟩ := Option.bind_eq_some_iff.mp hrun
      obtain ⟨hplaced, hone⟩ := step_spec h hstep
      obtain ⟨hplaced', hrest⟩ := ih hplaced hrun
      refine ⟨hplaced', hrest.trans ?_⟩
      rw [hone, or_assoc]
      simp only [List.mem_cons, exists_eq_or_imp]

/-! ## Whole runs -/

omit [Runtime] in
theorem placed_empty : Placed ⟨.empty, []⟩ where
  perm := .refl _
  order := { active := fun _ he => (nomatch he), taken := fun _ hf => (nomatch hf) }

omit [Runtime] in
/-- Samples that are placed are conserved unless a store has failed. -/
theorem Placed.conserved_iff (h : Placed c) : Conserved c ↔ ¬ HasFailed c := by
  have hperm := h.perm.trans ((perm_taken c.tasks.flatten).append_left _)
  rw [← List.append_assoc] at hperm
  have hlost : taken Flush.isFailed c.tasks.flatten = [] ↔ ¬ HasFailed c := by
    simp only [taken, HasFailed, List.flatMap_eq_nil_iff, List.mem_filter, not_exists, not_and, and_imp]
    refine forall_congr' fun f => forall_congr' fun _ => ?_
    have hsome : f.samples ≠ [] := fun hnil => f.window.nonempty (List.map_eq_nil_iff.mp hnil)
    simp [hsome]
  rw [← hlost]
  constructor
  · intro hkept
    have hlength := (hkept.symm.trans hperm).length_eq
    simp only [List.length_append] at hlength
    exact List.length_eq_zero_iff.mp (by omega)
  · intro hnil
    rwa [hnil, List.append_nil] at hperm

/-- In every run the samples are conserved, in the order of their arrival, exactly while no store has
failed. -/
theorem conserved_unless_failed (hrun : aggregator.run ⟨.empty, []⟩ es = some c) :
    Conserved c ∧ InOrder c.shared c.tasks.flatten ↔ ∀ e ∈ es, ¬ Fails e := by
  obtain ⟨hplaced, hfailed⟩ := run_spec placed_empty hrun
  have hnone : ¬ HasFailed (⟨.empty, []⟩ : Config Aggregator Task) := fun ⟨_, hf, _⟩ => nomatch hf
  rw [and_iff_left hplaced.order, hplaced.conserved_iff, hfailed]
  simp only [hnone, false_or, not_exists, not_and]

end

/-! ## A run with a store -/

/-- Two samples of a key, a flush of their window and the answer of its store. -/
def storeRun (a : Answer) : List (Event Call (Nat × Answer) Empty) :=
  [.call (.ingest "t" .null {} 1), .call (.ingest "t" (.bool true) {} 2), .call (.flush "t"),
    .resume 2 (0, a)]

theorem conserved_unless_failed_sample : ∃ c : Config Aggregator Task,
    Conserved c ∧ InOrder c.shared c.tasks.flatten := by
  let _ : Runtime := .ascii
  refine ⟨_, (@conserved_unless_failed _ _ (storeRun (.stored ⟨"file:a", "0a", none, none⟩)) rfl).mpr ?_⟩
  simp [storeRun, Fails]

/-- The store fails: both samples are gone. -/
theorem samples_lost : ¬ ∀ (_ : Runtime) (es : List (Event Call (Nat × Answer) Empty))
    (c : Config Aggregator Task), aggregator.run ⟨.empty, []⟩ es = some c →
    Conserved c ∧ InOrder c.shared c.tasks.flatten := by
  intro h
  have hkept := (h .ascii (storeRun (.failed .rejection)) _ rfl).1
  exact absurd hkept.length_eq (by decide)

end Twin
