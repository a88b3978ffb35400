-- SUMMARY: The command store: its map, its file and the chain of writes between them, and when a failed write leaves no trace.
import Mathlib.Data.List.Induction
import TwinServer.Commands.Service

/-!
# The command store

`CommandStore` of `src/commands/store.ts`. A put changes the map at once and joins the
chain of writes; the write of the put at the head of the chain is one step, in which the
map is serialised and the file replaced. A put that is called while a write is under way
joins the chain behind it, so it is as if it came after.

The store is loaded: `CommandService.start` reads the file before it serves a request.
-/

open Js

namespace Commands

/-! ## The map -/

/-- `records.set(record.commandId, record)`. -/
def store (records : Record CommandRecord) (r : CommandRecord) : Record CommandRecord :=
  records.set r.commandId r

/-- The map after a sequence of puts. -/
def replay (records : Record CommandRecord) (puts : List CommandRecord) : Record CommandRecord :=
  puts.foldl store records

/-- `[...records.values()]`. -/
def values (records : Record CommandRecord) : List CommandRecord := records.map Prod.snd

def get (records : Record CommandRecord) (twinId commandId : String) : Option CommandRecord :=
  (records.get? commandId).filter fun value => value.twinId == twinId

def has (records : Record CommandRecord) (commandId : String) : Bool := records.hasOwn commandId

/-- The latest records of a Twin; the sort of the runtime is stable. -/
def list (records : Record CommandRecord) (twinId : String) (limit : Int) :
    List CommandRecord :=
  (((values records).filter fun item => item.twinId == twinId).mergeSort
    fun a b => b.requestedAt ≤ a.requestedAt).take (max 1 (min limit 200)).toNat

/-- Two maps that no reader of the store can tell apart. -/
structure SameReads (m m' : Record CommandRecord) : Prop where
  get : ∀ twinId commandId, get m twinId commandId = get m' twinId commandId
  has : ∀ commandId, has m commandId = has m' commandId
  list : ∀ twinId limit, list m twinId limit = list m' twinId limit

theorem SameReads.refl (m : Record CommandRecord) : SameReads m m :=
  ⟨fun _ _ => rfl, fun _ => rfl, fun _ _ => rfl⟩

theorem replay_append (m : Record CommandRecord) (puts puts' : List CommandRecord) :
    replay m (puts ++ puts') = replay (replay m puts) puts' :=
  List.foldl_append

/-! ## The chain of writes -/

/-- A put that was answered: whether its own write succeeds, and whether it resolved. -/
structure Answer where
  record : CommandRecord
  writes : Bool
  resolves : Bool

structure CommandStore where
  records : Record CommandRecord
  /-- The records in the file. -/
  file : List CommandRecord
  /-- `writeChain` is a rejected promise. -/
  rejected : Bool := false
  /-- The puts in the chain, in order. -/
  waiting : List CommandRecord := []
  /-- The puts that were answered, in order. -/
  answered : List Answer := []

/-- The store of a file, once it is loaded. -/
def CommandStore.load (file : List CommandRecord) : CommandStore where
  records := replay [] file
  file

inductive StoreEvent where
  | put (record : CommandRecord)
  /-- The head of the chain is due; creating the directory, writing the temporary file
  and renaming it all succeed, or one of them fails. -/
  | write (succeeds : Bool)

/-- `put` up to its first suspension. -/
def CommandStore.put (s : CommandStore) (r : CommandRecord) : CommandStore :=
  { s with records := store s.records r, waiting := s.waiting ++ [r] }

/-- The continuation `persist` has chained for the put at the head. It is skipped when
the chain is rejected. -/
def CommandStore.persist (s : CommandStore) (r : CommandRecord) (waiting : List CommandRecord)
    (succeeds : Bool) : CommandStore :=
  if s.rejected then
    { s with waiting, answered := s.answered ++ [⟨r, succeeds, false⟩] }
  else if succeeds then
    { s with waiting, file := values s.records, answered := s.answered ++ [⟨r, true, true⟩] }
  else { s with waiting, rejected := true, answered := s.answered ++ [⟨r, false, false⟩] }

@[local grind] def CommandStore.step (s : CommandStore) : StoreEvent → Option CommandStore
  | .put r => some (s.put r)
  | .write succeeds =>
    match s.waiting with
    | [] => none
    | r :: waiting => some (s.persist r waiting succeeds)

def CommandStore.run (s : CommandStore) : List StoreEvent → Option CommandStore
  | [] => some s
  | e :: es => (s.step e).bind fun s' => s'.run es

/-- The records of the puts that resolved. -/
def CommandStore.resolved (s : CommandStore) : List CommandRecord :=
  (s.answered.filter Answer.resolves).map Answer.record

/-- What the store promises of a moment: the puts that were rejected have left nothing
behind, a put whose own write succeeds resolves, and the file holds what was resolved. -/
structure CommandStore.Atomic (s : CommandStore) (base : Record CommandRecord) : Prop where
  visible : SameReads s.records (replay base (s.resolved ++ s.waiting))
  resolves : ∀ a ∈ s.answered, a.writes → a.resolves
  file : s.resolved ≠ [] → s.file = values (replay base s.resolved)

/-! ## The puts and the writes of a run -/

/-- The records of the puts of a run. -/
def puts (es : List StoreEvent) : List CommandRecord :=
  es.filterMap fun e => match e with
    | .put r => some r
    | .write _ => none

/-- The writes of a run, in order; the write of a put stands where the put stands. -/
def outcomes (es : List StoreEvent) : List Bool :=
  es.filterMap fun e => match e with
    | .put _ => none
    | .write succeeds => some succeeds

/-- The puts without those whose own write has failed. -/
def kept (es : List StoreEvent) : List CommandRecord :=
  (((puts es).zip (outcomes es)).filter Prod.snd).map Prod.fst ++ (puts es).drop (outcomes es).length

/-- No write that would succeed comes after one that failed. -/
def Ordered (es : List StoreEvent) : Prop :=
  (outcomes es).Pairwise fun (earlier later : Bool) => later = true → earlier = true

/-- The condition on a run up to a moment. -/
structure Harmless (base : Record CommandRecord) (es : List StoreEvent) : Prop where
  /-- A put whose own write fails changes nothing. -/
  failed : SameReads (replay base (puts es)) (replay base (kept es))
  ordered : Ordered es
  /-- A put that waits behind a write that succeeds changes nothing. -/
  waiting : ∀ es', es = es' ++ [.write true] →
    values (replay base (puts es)) = values (replay base ((puts es).take (outcomes es).length))

/-! ## What a run leaves -/

theorem CommandStore.run_snoc {s s' : CommandStore} {es : List StoreEvent} {e : StoreEvent} :
    s.run (es ++ [e]) = some s' ↔ ∃ m, s.run es = some m ∧ m.step e = some s' := by
  induction es generalizing s with
  | nil => simp [CommandStore.run]
  | cons e' es ih =>
      simp only [List.cons_append, CommandStore.run, Option.bind_eq_some_iff, ih]
      constructor
      · rintro ⟨a, ha, m, hm, hstep⟩
        exact ⟨m, ⟨a, ha, hm⟩, hstep⟩
      · rintro ⟨m, ⟨a, ha, hm⟩, hstep⟩
        exact ⟨a, ha, m, hm, hstep⟩

theorem puts_snoc (es : List StoreEvent) (e : StoreEvent) :
    puts (es ++ [e]) = puts es ++ puts [e] := List.filterMap_append

theorem outcomes_snoc (es : List StoreEvent) (e : StoreEvent) :
    outcomes (es ++ [e]) = outcomes es ++ outcomes [e] := List.filterMap_append

/-- What the store has made of the events of a run. -/
structure Tracks (base : Record CommandRecord) (es : List StoreEvent) (s : CommandStore) :
    Prop where
  records : s.records = replay base (puts es)
  calls : s.answered.map Answer.record ++ s.waiting = puts es
  writes : s.answered.map Answer.writes = outcomes es
  rejected : s.rejected ↔ false ∈ outcomes es
  honest : ∀ a ∈ s.answered, a.resolves → a.writes
  ordered : (∀ a ∈ s.answered, a.writes → a.resolves) ↔ Ordered es

theorem Tracks.put {base : Record CommandRecord} {es : List StoreEvent} {s : CommandStore}
    (h : Tracks base es s) (r : CommandRecord) : Tracks base (es ++ [.put r]) (s.put r) where
  records := by
    rw [puts_snoc, replay_append, ← h.records]
    rfl
  calls := by
    rw [puts_snoc, ← h.calls, List.append_assoc]
    rfl
  writes := by
    rw [outcomes_snoc]
    exact h.writes.trans (List.append_nil _).symm
  rejected := by
    rw [outcomes_snoc]
    exact h.rejected.trans (by simp [outcomes])
  honest := h.honest
  ordered := by
    have hsame : Ordered (es ++ [.put r]) ↔ Ordered es := by
      unfold Ordered
      rw [outcomes_snoc]
      simp [outcomes]
    exact h.ordered.trans hsame.symm

/-- How the put at the head of the chain is answered. -/
theorem CommandStore.persist_cases (s : CommandStore) (r : CommandRecord)
    (waiting : List CommandRecord) (succeeds : Bool) :
    ∃ resolves, (resolves = (!s.rejected && succeeds)) ∧
      s.persist r waiting succeeds =
        { s with waiting, file := if resolves then values s.records else s.file,
                 rejected := s.rejected || !succeeds,
                 answered := s.answered ++ [⟨r, succeeds, resolves⟩] } := by
  obtain ⟨records, file, rejected, _, answered⟩ := s
  cases rejected <;> cases succeeds <;> exact ⟨_, rfl, rfl⟩

theorem Tracks.write {base : Record CommandRecord} {es : List StoreEvent} {s s' : CommandStore}
    {succeeds : Bool} (h : Tracks base es s) (hstep : s.step (.write succeeds) = some s') :
    Tracks base (es ++ [.write succeeds]) s' := by
  cases hwaiting : s.waiting with
  | nil => simp [CommandStore.step, hwaiting] at hstep
  | cons r waiting =>
    obtain ⟨resolves, hresolves, hpersist⟩ := s.persist_cases r waiting succeeds
    have hs' : s' = s.persist r waiting succeeds := by
      simpa [CommandStore.step, hwaiting] using hstep.symm
    rw [hpersist] at hs'
    subst hs'
    refine ⟨?_, ?_, ?_, ?_, ?_, ?_⟩
    · rw [puts_snoc]
      exact h.records.trans (by simp [puts])
    · have hcalls := h.calls
      rw [hwaiting] at hcalls
      rw [puts_snoc, ← hcalls]
      simp [puts]
    · rw [outcomes_snoc, ← h.writes]
      simp [outcomes]
    · rw [outcomes_snoc, List.mem_append, ← h.rejected]
      cases succeeds <;> simp [outcomes]
    · intro a ha
      rcases List.mem_append.mp ha with ha | ha
      · exact h.honest a ha
      · obtain rfl := List.mem_singleton.mp ha
        intro hr
        have hr : resolves = true := hr
        rw [hresolves] at hr
        exact (Bool.and_eq_true_iff.mp hr).2
    · have hsnoc : Ordered (es ++ [.write succeeds]) ↔
          Ordered es ∧ (succeeds = true → ¬ s.rejected) := by
        unfold Ordered
        rw [outcomes_snoc, List.pairwise_append, h.rejected]
        simp only [outcomes, List.filterMap_cons, List.filterMap_nil,
          List.pairwise_singleton, true_and, List.mem_singleton, forall_eq, and_congr_right_iff]
        intro _
        constructor
        · intro hall hsucceeds hfalse
          exact Bool.false_ne_true (hall false hfalse hsucceeds)
        · intro hnot w hw hsucceeds
          cases w with
          | true => rfl
          | false => exact absurd hw (hnot hsucceeds)
      rw [hsnoc, ← h.ordered]
      simp only [List.mem_append, List.mem_singleton, or_imp, forall_and, forall_eq]
      refine and_congr_right fun _ => ?_
      rw [hresolves]
      cases s.rejected <;> cases succeeds <;> simp

theorem Tracks.step {base : Record CommandRecord} {es : List StoreEvent} {s s' : CommandStore}
    {e : StoreEvent} (h : Tracks base es s) (hstep : s.step e = some s') :
    Tracks base (es ++ [e]) s' := by
  cases e with
  | put r =>
    obtain rfl := Option.some.inj hstep
    exact h.put r
  | write succeeds => exact h.write hstep

theorem Tracks.run {file : List CommandRecord} {es : List StoreEvent} {s : CommandStore}
    (hrun : (CommandStore.load file).run es = some s) : Tracks (replay [] file) es s := by
  induction es using List.reverseRecOn generalizing s with
  | nil =>
      obtain rfl := Option.some.inj hrun
      exact ⟨rfl, rfl, rfl, by simp [CommandStore.load, outcomes],
        by simp [CommandStore.load], by simp [CommandStore.load, Ordered, outcomes]⟩
  | append_singleton es e ih =>
      obtain ⟨m, hm, hstep⟩ := CommandStore.run_snoc.mp hrun
      exact (ih hm).step hstep

/-! ## When the store is atomic -/

theorem zip_map_append {α β γ : Type} (f : α → β) (g : α → γ) (as : List α) (bs : List β) :
    (as.map f ++ bs).zip (as.map g) = as.map fun a => (f a, g a) := by
  induction as with
  | nil => simp
  | cons a as ih => simp [ih]

section
variable {base : Record CommandRecord} {es : List StoreEvent} {s s' : CommandStore}

/-- Once the writes are in order, the puts that resolved are those whose own write
succeeds. -/
theorem Tracks.resolved_eq (h : Tracks base es s) (hordered : Ordered es) :
    s.resolved = (s.answered.filter Answer.writes).map Answer.record := by
  unfold CommandStore.resolved
  congr 1
  refine List.filter_congr fun a ha => ?_
  have hwrites := h.ordered.mpr hordered a ha
  have hhonest := h.honest a ha
  cases hr : a.resolves with
  | true => exact (hhonest hr).symm
  | false =>
    cases hw : a.writes with
    | true => exact absurd (hwrites hw) (by simp [hr])
    | false => rfl

theorem Tracks.kept_eq (h : Tracks base es s) (hordered : Ordered es) :
    kept es = s.resolved ++ s.waiting := by
  have hlength : (outcomes es).length = (s.answered.map Answer.record).length := by
    rw [← h.writes, List.length_map, List.length_map]
  unfold kept
  rw [h.resolved_eq hordered, hlength, ← h.calls, ← h.writes, zip_map_append,
    List.drop_left, List.filter_map, List.map_map]
  rfl

/-- After a write that resolved, every put that was answered resolved. -/
theorem Tracks.resolved_all (h : Tracks base es s) (htrue : ∀ w ∈ outcomes es, w = true)
    (hordered : Ordered es) : s.resolved = (puts es).take (outcomes es).length := by
  have hall : s.answered.filter Answer.writes = s.answered := by
    refine List.filter_eq_self.mpr fun a ha => ?_
    refine htrue a.writes ?_
    rw [← h.writes]
    exact List.mem_map_of_mem ha
  have hlength : (outcomes es).length = (s.answered.map Answer.record).length := by
    rw [← h.writes, List.length_map, List.length_map]
  rw [h.resolved_eq hordered, hall, hlength, ← h.calls, List.take_left]

theorem Ordered.all_true (h : Ordered (es ++ [.write true])) :
    ∀ w ∈ outcomes (es ++ [.write true]), w = true := by
  unfold Ordered at h
  rw [outcomes_snoc] at h ⊢
  intro w hw
  rcases List.mem_append.mp hw with hw | hw
  · exact (List.pairwise_append.mp h).2.2 w hw true List.mem_cons_self rfl
  · exact List.mem_singleton.mp hw

/-- The file after an event of a run that is atomic so far. -/
theorem file_iff {e : StoreEvent} (h : Tracks base es s) (hatomic : s.Atomic base)
    (hstep : s.step e = some s') (h' : Tracks base (es ++ [e]) s') (hordered : Ordered (es ++ [e])) :
    (s'.resolved ≠ [] → s'.file = values (replay base s'.resolved)) ↔
      ∀ es', es ++ [e] = es' ++ [.write true] →
        values (replay base (puts (es ++ [e]))) =
          values (replay base ((puts (es ++ [e])).take (outcomes (es ++ [e])).length)) := by
  cases e with
  | put r =>
    obtain rfl := Option.some.inj hstep
    refine iff_of_true hatomic.file fun es' heq => ?_
    have hlast := congrArg List.getLast? heq
    simp at hlast
  | write succeeds =>
    cases hwaiting : s.waiting with
    | nil => simp [CommandStore.step, hwaiting] at hstep
    | cons r waiting =>
      obtain ⟨resolves, hresolves, hpersist⟩ := s.persist_cases r waiting succeeds
      have hs' : s' = s.persist r waiting succeeds := by
        simpa [CommandStore.step, hwaiting] using hstep.symm
      rw [hpersist] at hs'
      cases hsucceeds : succeeds with
      | false =>
        -- a write that fails leaves the file and the resolved puts alone
        have hno : resolves = false := by rw [hresolves, hsucceeds, Bool.and_false]
        have hfile : s'.file = s.file := by rw [hs', hno]; rfl
        have hresolved : s'.resolved = s.resolved := by
          rw [hs']
          simp [CommandStore.resolved, hno]
        rw [hfile, hresolved]
        refine iff_of_true hatomic.file fun es' heq => ?_
        have hlast := congrArg List.getLast? heq
        simp at hlast
      | true =>
        subst hsucceeds
        -- a write that succeeds was not skipped, since no write before it failed
        have hclean : s.rejected = false := by
          have hall := hordered.all_true
          rw [← Bool.not_eq_true, h.rejected]
          intro hfalse
          have hmem : false ∈ outcomes (es ++ [.write true]) := by
            rw [outcomes_snoc]
            exact List.mem_append_left _ hfalse
          exact Bool.false_ne_true (hall false hmem)
        have hyes : resolves = true := by rw [hresolves, hclean]; rfl
        have hfile : s'.file = values (replay base (puts (es ++ [.write true]))) := by
          rw [← h'.records, hs', hyes]
          rfl
        have hresolved := h'.resolved_all hordered.all_true hordered
        have hne : s'.resolved ≠ [] := by
          rw [hs']
          simp [CommandStore.resolved, hyes]
        rw [hfile, hresolved]
        rw [hresolved] at hne
        constructor
        · intro heq _ _
          exact heq hne
        · intro heq _
          exact heq es rfl

theorem atomic_iff {e : StoreEvent} (h : Tracks base es s) (hatomic : s.Atomic base)
    (hstep : s.step e = some s') (h' : Tracks base (es ++ [e]) s') :
    s'.Atomic base ↔ Harmless base (es ++ [e]) := by
  constructor
  · intro ha
    have hordered := h'.ordered.mp ha.resolves
    refine ⟨?_, hordered, (file_iff h hatomic hstep h' hordered).mp ha.file⟩
    rw [← h'.records, h'.kept_eq hordered]
    exact ha.visible
  · intro hh
    refine ⟨?_, h'.ordered.mpr hh.ordered, (file_iff h hatomic hstep h' hh.ordered).mpr hh.waiting⟩
    rw [h'.records, ← h'.kept_eq hh.ordered]
    exact hh.failed

end

/-- **Atomicity of the command store.** A run of puts and writes is atomic at every
moment exactly when no write that would succeed comes after one that failed, a put whose
write fails changes nothing that can be read, and a put that waits behind a write that
succeeds changes nothing either. -/
theorem store_atomic_iff (file : List CommandRecord) (es : List StoreEvent) (s : CommandStore)
    (hrun : (CommandStore.load file).run es = some s) :
    (∀ before m, before <+: es → (CommandStore.load file).run before = some m →
        m.Atomic (replay [] file)) ↔
      ∀ before, before <+: es → Harmless (replay [] file) before := by
  induction es using List.reverseRecOn generalizing s with
  | nil =>
      refine iff_of_true ?_ ?_
      · intro before m hbefore hm
        obtain rfl := List.prefix_nil.mp hbefore
        obtain rfl := Option.some.inj hm
        exact ⟨SameReads.refl _, by simp [CommandStore.load], fun h => absurd rfl h⟩
      · intro before hbefore
        obtain rfl := List.prefix_nil.mp hbefore
        exact ⟨SameReads.refl _, List.Pairwise.nil, fun es' heq => by simp at heq⟩
  | append_singleton es e ih =>
      obtain ⟨m, hm, hstep⟩ := CommandStore.run_snoc.mp hrun
      have ih := ih m hm
      have hiff := fun hatomic => atomic_iff (Tracks.run hm) hatomic hstep
        ((Tracks.run hm).step hstep)
      simp only [List.prefix_concat_iff] at ih ⊢
      constructor
      · rintro hall before (rfl | hbefore)
        · exact (hiff (hall es m (.inr List.prefix_rfl) hm)).mp (hall _ s (.inl rfl) hrun)
        · exact ih.mp (fun before m' hb => hall before m' (.inr hb)) before hbefore
      · rintro hall before m' (rfl | hbefore) hm'
        · obtain rfl := Option.some.inj (hrun.symm.trans hm')
          have hatomic := ih.mpr (fun before hb => hall before (.inr hb)) es m List.prefix_rfl hm
          exact (hiff hatomic).mpr (hall _ (.inl rfl))
        · exact ih.mpr (fun before hb => hall before (.inr hb)) before m' hbefore hm'

/-- A command that was authorized and waits for its dispatch. -/
def authorizedCommand : CommandRecord where
  commandId := "urn:uuid:1"
  twinId := "0x1"
  interfaceId := "urn:objectid:interface:commands:v1"
  command := ⟨"start", "1", .null⟩
  requestedBy := "did:iota:0x2"
  requestedAt := 0
  expiresAt := 30000
  proof := none
  idempotencyKey := "urn:uuid:1"
  correlationId := none
  status := .authorized
  statusUpdatedAt := 0
  transport := ⟨"", ""⟩

/-- A put whose write succeeds is atomic. -/
theorem store_atomic_put :
    ∃ m, (CommandStore.load []).run [.put authorizedCommand, .write true] = some m ∧
      m.Atomic (replay [] []) := by
  refine ⟨_, rfl, (store_atomic_iff [] [.put authorizedCommand, .write true] _ rfl).mpr ?_ _ _
    List.prefix_rfl rfl⟩
  intro before hbefore
  simp only [List.prefix_cons_iff, List.prefix_nil] at hbefore
  rcases hbefore with rfl | ⟨_, rfl, rfl | ⟨_, rfl, rfl⟩⟩
  · exact ⟨SameReads.refl _, List.Pairwise.nil, fun es' _ => rfl⟩
  · refine ⟨SameReads.refl _, List.Pairwise.nil, fun es' heq => ?_⟩
    have hlast := congrArg List.getLast? heq
    simp at hlast
  · exact ⟨SameReads.refl _, List.pairwise_singleton _ _, fun es' _ => rfl⟩

/-- A put that was rejected is still read, and the next put is rejected although its own
write succeeds. -/
theorem rejected_put_stays :
    ∃ m, (CommandStore.load []).run
        [.put authorizedCommand, .write false, .put authorizedCommand, .write true] = some m ∧
      has m.records "urn:uuid:1" = true ∧ m.resolved = [] ∧ m.file = [] ∧
      ¬ m.Atomic (replay [] []) := by
  refine ⟨_, rfl, rfl, rfl, rfl, fun hatomic => ?_⟩
  have hresolves := hatomic.resolves ⟨authorizedCommand, true, false⟩
    (List.mem_cons_of_mem _ List.mem_cons_self) rfl
  exact Bool.false_ne_true hresolves

end Commands
