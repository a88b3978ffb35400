-- SUMMARY: A retention run prunes a state only for a newer one that stays, so that every stream keeps its newest state.
import TwinServer.Base.Steps
import TwinServer.Retention.States

/-!
# The newest state stays

The first part is about one run and the snapshots it was given. The second part is about a
ledger: a world whose states are lost only through the prunes that were asked for.
-/

open Js Thread Steps

namespace Retention

/-- States whose ids are distinct up to case, and whose codes cannot be confused in the name of
a stream. -/
structure WellFormed [Runtime] (states : List TwinStateEvidence) : Prop where
  ids : (states.map fun state => toLowerCase state.objectId).Nodup
  codes : ∀ state ∈ states, '\x00' ∉ state.aspectCode.toList

def SameStream (a b : TwinStateEvidence) : Prop :=
  a.aspectCode = b.aspectCode ∧ a.sampleType = b.sampleType

theorem SameStream.trans {a b c : TwinStateEvidence} (hab : SameStream a b)
    (hbc : SameStream b c) : SameStream a c := ⟨hab.1.trans hbc.1, hab.2.trans hbc.2⟩

theorem SameStream.symm {a b : TwinStateEvidence} (h : SameStream a b) : SameStream b a :=
  ⟨h.1.symm, h.2.symm⟩

/-! ## Streams -/

theorem splitAt_first {α : Type} {c : α} {xs ys xs' ys' : List α} (hx : c ∉ xs) (hx' : c ∉ xs')
    (h : xs ++ c :: ys = xs' ++ c :: ys') : xs = xs' ∧ ys = ys' := by
  induction xs generalizing xs' with
  | nil =>
      cases xs' with
      | nil => exact ⟨rfl, (List.cons.inj h).2⟩
      | cons x' xs' => exact absurd ((List.cons.inj h).1 ▸ List.mem_cons_self) hx'
  | cons x xs ih =>
      cases xs' with
      | nil => exact absurd ((List.cons.inj h).1 ▸ List.mem_cons_self) hx
      | cons x' xs' =>
        obtain ⟨rfl, hrest⟩ := List.cons.inj h
        obtain ⟨rfl, hys⟩ :=
          ih (List.not_mem_of_not_mem_cons hx) (List.not_mem_of_not_mem_cons hx') hrest
        exact ⟨rfl, hys⟩

theorem sameStream_of_stream_eq {a b : TwinStateEvidence} (ha : '\x00' ∉ a.aspectCode.toList)
    (hb : '\x00' ∉ b.aspectCode.toList) (h : stream a = stream b) : SameStream a b := by
  have hlist := congrArg String.toList h
  unfold stream at hlist
  rw [String.toList_append, String.toList_append, String.toList_append, String.toList_append,
    List.append_assoc, List.append_assoc] at hlist
  obtain ⟨haspect, hsample⟩ := splitAt_first ha hb hlist
  exact ⟨String.toList_inj.mp haspect, String.toList_inj.mp hsample⟩

section
variable [Services]

/-! ## The newest state of a stream -/

theorem compareStatesNewestFirst_self (a : TwinStateEvidence) : compareStatesNewestFirst a a = 0 := by
  unfold compareStatesNewestFirst
  rw [Int.sub_self, if_neg (by simp), Services.localeCompare_self]

theorem compareStatesNewestFirst_swap (a b : TwinStateEvidence) :
    compareStatesNewestFirst a b < 0 ↔ 0 < compareStatesNewestFirst b a := by
  have hlocale := Services.localeCompare_swap b.objectId a.objectId
  unfold compareStatesNewestFirst
  grind

theorem compareStatesNewestFirst_trans {a b c : TwinStateEvidence}
    (hab : compareStatesNewestFirst a b ≤ 0) (hbc : compareStatesNewestFirst b c ≤ 0) :
    compareStatesNewestFirst a c ≤ 0 := by
  have hlocale := Services.localeCompare_trans c.objectId b.objectId a.objectId
  unfold compareStatesNewestFirst at hab hbc ⊢
  grind

instance : Std.Total (fun a b : TwinStateEvidence => compareStatesNewestFirst a b ≤ 0) := by
  refine ⟨fun a b => ?_⟩
  have hswap := compareStatesNewestFirst_swap b a
  omega

instance : IsTrans TwinStateEvidence (fun a b => compareStatesNewestFirst a b ≤ 0) :=
  ⟨fun _ _ _ => compareStatesNewestFirst_trans⟩

omit [Services] in
/-- The first element with a property comes before all the others with it. -/
theorem find?_first {α : Type} {R : α → α → Prop} (hrefl : ∀ a, R a a) {p : α → Bool} {l : List α}
    (hl : l.Pairwise R) {a b : α} (ha : l.find? p = some a) (hb : b ∈ l) (hpb : p b) : R a b := by
  induction hl with
  | nil => cases hb
  | @cons x l hx _ ih =>
      by_cases hpx : p x
      · rw [List.find?_cons_of_pos hpx] at ha
        obtain rfl := Option.some.inj ha
        rcases List.mem_cons.mp hb with rfl | hb
        · exact hrefl _
        · exact hx b hb
      · rw [List.find?_cons_of_neg hpx] at ha
        rcases List.mem_cons.mp hb with rfl | hb
        · exact absurd hpb hpx
        · exact ih ha hb

/-- The loop keeps the first state of every stream. -/
theorem get?_newest_foldl (l : List TwinStateEvidence) (newest : Record String) (name : String) :
    Record.get? (l.foldl (fun newest state =>
      if newest.hasOwn (stream state) then newest
      else newest.set (stream state) (toLowerCase state.objectId)) newest) name =
    (newest.get? name).or
      ((l.find? fun state => stream state = name).map fun state => toLowerCase state.objectId) := by
  induction l generalizing newest with
  | nil => simp
  | cons state l ih =>
      rw [List.foldl_cons, ih]
      by_cases hname : stream state = name
      · subst hname
        rw [List.find?_cons_of_pos (by simp)]
        cases hget : newest.get? (stream state) with
        | some id => simp [Record.hasOwn, hget]
        | none => simp [Record.hasOwn, hget]
      · rw [List.find?_cons_of_neg (by simpa using hname)]
        split
        · rfl
        · rw [Record.get?_set, if_neg (Ne.symm hname)]

/-- The state that stays for its stream. -/
def Survives (states : List TwinStateEvidence) (state : TwinStateEvidence) : Prop :=
  (newestByStream states).get? (stream state) = some (toLowerCase state.objectId)

/-- For every state there is one of its stream that stays and is as new as any other. -/
theorem exists_survivor {states : List TwinStateEvidence} {state : TwinStateEvidence}
    (h : state ∈ states) :
    ∃ survivor ∈ states, stream survivor = stream state ∧ Survives states survivor ∧
      ∀ other ∈ states, stream other = stream state →
        compareStatesNewestFirst survivor other ≤ 0 := by
  let sorted := states.insertionSort fun a b => compareStatesNewestFirst a b ≤ 0
  have hmem {other : TwinStateEvidence} : other ∈ sorted ↔ other ∈ states := List.mem_insertionSort _
  have hsome : (sorted.find? fun other => stream other = stream state).isSome :=
    List.find?_isSome.mpr ⟨state, hmem.mpr h, by simp⟩
  obtain ⟨survivor, hfind⟩ := Option.isSome_iff_exists.mp hsome
  have hstream : stream survivor = stream state := by simpa using List.find?_some hfind
  refine ⟨survivor, hmem.mp (List.mem_of_find?_eq_some hfind), hstream, ?_, fun other ho hos => ?_⟩
  · unfold Survives newestByStream
    rw [get?_newest_foldl, hstream, hfind]
    rfl
  · exact find?_first (R := fun a b => compareStatesNewestFirst a b ≤ 0)
      (fun a => (compareStatesNewestFirst_self a).le) (List.pairwise_insertionSort _ states) hfind
      (hmem.mpr ho) (by simpa using hos)

/-! ## One prune -/

theorem mem_publications_foldl {events : List TwinEvent} {publications : Record TwinEvent}
    {name : String} {event : TwinEvent}
    (h : Record.get? (events.foldl (fun publications event =>
      publications.set (toLowerCase event.payloadRef) event) publications) name = some event) :
    publications.get? name = some event ∨ event ∈ events ∧ toLowerCase event.payloadRef = name := by
  induction events generalizing publications with
  | nil => exact .inl h
  | cons first events ih =>
      rw [List.foldl_cons] at h
      rcases ih h with h | ⟨hmem, hname⟩
      · rw [Record.get?_set] at h
        split at h
        · next hname =>
          obtain rfl := Option.some.inj h
          exact .inr ⟨List.mem_cons_self, hname.symm⟩
        · exact .inl h
      · exact .inr ⟨List.mem_cons_of_mem _ hmem, hname⟩

/-- An event published the state, before the cutoff, with no hash or with the hash of the state. -/
def Anchored (cutoff : Dyadic) (events : List TwinEvent) (state : TwinStateEvidence) : Prop :=
  ∃ event ∈ events, event.eventType = 30 ∧
    toLowerCase event.payloadRef = toLowerCase state.objectId ∧ event.createdAt ≤ cutoff ∧
    ∃ digest, hashDigest state.payloadHash = some digest ∧
      (event.payloadHash = "" ∨
        isValidHash (toLowerCase event.payloadHash) ∧ hashDigest event.payloadHash = some digest)

theorem digest_of_receipt {stateHash publicationHash : String}
    (h : canCreateVerificationReceipt stateHash publicationHash) :
    ∃ digest, hashDigest stateHash = some digest ∧
      (publicationHash = "" ∨
        isValidHash (toLowerCase publicationHash) ∧ hashDigest publicationHash = some digest) := by
  unfold canCreateVerificationReceipt at h
  split at h
  · cases h
  · next digest hdigest =>
    refine ⟨digest, hdigest, ?_⟩
    split at h
    · next hempty => exact .inl hempty
    · split at h
      · cases h
      · next hvalid =>
        refine .inr ⟨by simpa using hvalid, ?_⟩
        exact (of_decide_eq_true h).symm

/-- What a prune of a state of a snapshot rests on. -/
structure Prunable (cutoff : Dyadic) (snapshot : TwinStateRetentionSnapshot)
    (state : TwinStateEvidence) : Prop where
  mem : state ∈ snapshot.states
  older : ¬ Survives snapshot.states state
  anchored : Anchored cutoff snapshot.events state

theorem Prunable.survivor {cutoff : Dyadic} {snapshot : TwinStateRetentionSnapshot}
    {state : TwinStateEvidence} (hwf : WellFormed snapshot.states)
    (h : Prunable cutoff snapshot state) :
    ∃ survivor ∈ snapshot.states, Survives snapshot.states survivor ∧ SameStream survivor state ∧
      compareStatesNewestFirst survivor state ≤ 0 := by
  obtain ⟨survivor, hmem, hstream, hsurvives, hnewest⟩ := exists_survivor h.mem
  exact ⟨survivor, hmem, hsurvives,
    sameStream_of_stream_eq (hwf.codes _ hmem) (hwf.codes _ h.mem) hstream,
    hnewest state h.mem rfl⟩

/-- What survives is not the state pruned. -/
theorem Prunable.ne {cutoff : Dyadic} {snapshot : TwinStateRetentionSnapshot}
    {state survivor : TwinStateEvidence} (hwf : WellFormed snapshot.states)
    (h : Prunable cutoff snapshot state) (hmem : survivor ∈ snapshot.states)
    (hsurvives : Survives snapshot.states survivor) :
    toLowerCase state.objectId ≠ toLowerCase survivor.objectId := by
  intro hid
  obtain rfl := List.inj_on_of_nodup_map hwf.ids h.mem hmem hid
  exact h.older hsurvives

/-! ## One run -/

section
variable {ω : Type} {adapter : Adapter ω} {config : OnChainStates} {cutoff : Dyadic}
  {twinId : String}

/-- The prunes that were answered. -/
def successes (prunes : List Prune) : Nat := prunes.countP Prune.ok

/-- A step of the loop leaves everything but the counters alone, or it prunes the state. -/
theorem pruneStep_cases (snapshot : TwinStateRetentionSnapshot) (p : Progress ω)
    {state : TwinStateEvidence} (hmem : state ∈ snapshot.states) {p' : Progress ω}
    (hp' : pruneStep adapter config cutoff twinId (newestByStream snapshot.states)
      (publicationsOf snapshot.events) p state = p') :
    (p'.prunes = p.prunes ∧ p'.world = p.world ∧ p'.result.pruned = p.result.pruned) ∨
    (Prunable cutoff snapshot state ∧ p.result.pruned < config.maxPrunesPerRun ∧
      p'.world = (adapter.pruneState twinId state.objectId p.world).2 ∧
      ∃ ok, p'.prunes = p.prunes ++ [⟨twinId, state, ok⟩] ∧
        p'.result.pruned = p.result.pruned + ok.toNat) := by
  subst hp'
  unfold pruneStep
  split
  · exact .inl ⟨rfl, rfl, rfl⟩
  · next hsurvives =>
    split
    · exact .inl ⟨rfl, rfl, rfl⟩
    · next publication hpublication =>
      split
      · exact .inl ⟨rfl, rfl, rfl⟩
      · next hcutoff =>
        split
        · exact .inl ⟨rfl, rfl, rfl⟩
        · next hreceipt =>
          have hprunable : Prunable cutoff snapshot state := by
            rcases mem_publications_foldl hpublication with h | ⟨hevent, href⟩
            · cases h
            · obtain ⟨hevent, htype⟩ := List.mem_filter.mp hevent
              refine ⟨hmem, hsurvives, publication, hevent, (of_decide_eq_true htype).1, href,
                Std.not_lt.mp hcutoff, digest_of_receipt ?_⟩
              simpa using hreceipt
          dsimp only
          split
          · exact .inl ⟨rfl, rfl, rfl⟩
          · next hmax =>
            refine .inr ⟨hprunable, Nat.lt_of_not_le hmax, ?_⟩
            split
            · next world hprune =>
              exact ⟨by rw [hprune], true, rfl, rfl⟩
            · next world hprune =>
              exact ⟨by rw [hprune], false, rfl, rfl⟩

/-- Every prune so far rests on a snapshot, and the ones answered are counted and few. -/
structure Justified (config : OnChainStates) (cutoff : Dyadic)
    (snapshots : String → TwinStateRetentionSnapshot) (p : Progress ω) : Prop where
  prunable : ∀ prune ∈ p.prunes, Prunable cutoff (snapshots prune.twinId) prune.state
  counted : p.result.pruned = successes p.prunes
  few : p.result.pruned ≤ config.maxPrunesPerRun

variable {snapshots : String → TwinStateRetentionSnapshot}

theorem Justified.pruneStep {p : Progress ω} (h : Justified config cutoff snapshots p)
    {state : TwinStateEvidence} (hmem : state ∈ (snapshots twinId).states) :
    Justified config cutoff snapshots
      (pruneStep adapter config cutoff twinId (newestByStream (snapshots twinId).states)
        (publicationsOf (snapshots twinId).events) p state) := by
  have hstep := pruneStep_cases (snapshots twinId) p hmem
    (rfl : Retention.pruneStep adapter config cutoff twinId _ _ p state = _)
  rcases hstep with
    ⟨hprunes, -, hpruned⟩ | ⟨hprunable, hmax, -, ok, hprunes, hpruned⟩
  · refine ⟨fun prune hprune => h.prunable prune (hprunes ▸ hprune), ?_, ?_⟩
    · rw [hprunes, hpruned]
      exact h.counted
    · rw [hpruned]
      exact h.few
  · refine ⟨fun prune hprune => ?_, ?_, ?_⟩
    · rw [hprunes, List.mem_append, List.mem_singleton] at hprune
      rcases hprune with hprune | rfl
      · exact h.prunable prune hprune
      · exact hprunable
    · rw [hprunes, hpruned, h.counted]
      unfold successes
      rw [List.countP_append]
      cases ok <;> rfl
    · rw [hpruned]
      have hok : ok.toNat ≤ 1 := Bool.toNat_le ok
      omega

theorem Justified.foldl {states : List TwinStateEvidence}
    (hstates : ∀ state ∈ states, state ∈ (snapshots twinId).states) {p : Progress ω}
    (h : Justified config cutoff snapshots p) :
    Justified config cutoff snapshots (states.foldl
      (Retention.pruneStep adapter config cutoff twinId (newestByStream (snapshots twinId).states)
        (publicationsOf (snapshots twinId).events)) p) := by
  induction states generalizing p with
  | nil => exact h
  | cons state states ih =>
      obtain ⟨hstate, hstates⟩ := List.forall_mem_cons.mp hstates
      exact ih hstates (h.pruneStep hstate)

/-- The snapshots that the adapter answers with. -/
def Serves (adapter : Adapter ω) (snapshots : String → TwinStateRetentionSnapshot) : Prop :=
  ∀ twinId world snapshot, (adapter.getTwinStateRetentionSnapshot twinId world).1 = .ok snapshot →
    snapshot = snapshots twinId

theorem Justified.pruneTwin (hserves : Serves adapter snapshots) {p : Progress ω}
    (h : Justified config cutoff snapshots p) (twinId : String) :
    Justified config cutoff snapshots (pruneTwin adapter config cutoff p twinId) := by
  unfold Retention.pruneTwin
  split
  · exact ⟨h.prunable, h.counted, h.few⟩
  · next snapshot world hsnapshot =>
    obtain rfl := hserves twinId p.world snapshot (by rw [hsnapshot])
    exact Justified.foldl (fun state hstate => (List.mem_insertionSort _).mp hstate)
      ⟨h.prunable, h.counted, h.few⟩

theorem Justified.run (hserves : Serves adapter snapshots) (config : OnChainStates) (now : Int)
    (world : ω) : Justified config (now - config.retentionDays * DAY_MS) snapshots
      (pruneOnChainStates adapter config now world) := by
  have hstart (p : Progress ω) (hprunes : p.prunes = []) (hpruned : p.result.pruned = 0) :
      Justified config (now - config.retentionDays * DAY_MS) snapshots p := by
    refine ⟨fun prune hprune => ?_, ?_, ?_⟩
    · rw [hprunes] at hprune
      cases hprune
    · rw [hprunes, hpruned]
      rfl
    · rw [hpruned]
      exact Nat.zero_le _
  unfold pruneOnChainStates
  dsimp only
  split
  · exact hstart _ rfl rfl
  · split
    · exact hstart _ rfl rfl
    · next twinIds world' _ =>
      refine List.foldlRecOn twinIds _ (hstart _ rfl rfl) fun p hp twinId _ => ?_
      exact hp.pruneTwin hserves twinId

end

/-! ## A ledger -/

section
variable {ω : Type} (adapter : Adapter ω) (states : ω → String → List TwinStateEvidence)

/-- The states stay from one world to the other, maybe with new ones. -/
def Stay (w w' : ω) : Prop := ∀ twinId, ∀ state ∈ states w twinId, state ∈ states w' twinId

/-- A ledger loses a state only through a prune of that state. A snapshot has the states that are
there before and after it was taken. -/
structure Ledger : Prop where
  wellFormed : ∀ world twinId, WellFormed (states world twinId)
  list : ∀ world, Stay states world (adapter.listTwinIdsForRetention world).2
  snapshot : ∀ world twinId,
    Stay states world (adapter.getTwinStateRetentionSnapshot twinId world).2
  fresh : ∀ world twinId snapshot,
    (adapter.getTwinStateRetentionSnapshot twinId world).1 = .ok snapshot →
      WellFormed snapshot.states ∧ ∀ state ∈ snapshot.states,
        state ∈ states (adapter.getTwinStateRetentionSnapshot twinId world).2 twinId
  prune : ∀ world twinId id, ∀ twinId', ∀ state ∈ states world twinId',
    (twinId' = twinId → state.objectId ≠ id) →
      state ∈ states (adapter.pruneState twinId id world).2 twinId'

/-- Every state has one of its stream that is at least as new. -/
def Kept (w w' : ω) : Prop :=
  ∀ twinId, ∀ state ∈ states w twinId, ∃ newer ∈ states w' twinId,
    SameStream newer state ∧ compareStatesNewestFirst newer state ≤ 0

/-- What happens to a ledger: a run of retention, or new states. -/
inductive Happens : ω → ω → Prop
  | run (config : OnChainStates) (now : Int) (w : ω) :
    Happens w (pruneOnChainStates adapter config now w).world
  | publish {w w' : ω} (h : Stay states w w') : Happens w w'

variable {adapter states} {w w' w'' : ω} {config : OnChainStates} {cutoff : Dyadic} {twinId : String}

theorem Stay.kept (h : Stay states w w') : Kept states w w' :=
  fun twinId state hstate => ⟨state, h twinId state hstate, ⟨rfl, rfl⟩,
    (compareStatesNewestFirst_self state).le⟩

theorem Kept.refl (w : ω) : Kept states w w := Stay.kept fun _ _ h => h

theorem Kept.trans (h : Kept states w w') (h' : Kept states w' w'') : Kept states w w'' := by
  intro twinId state hstate
  obtain ⟨newer, hnewer, hsame, hcompare⟩ := h twinId state hstate
  obtain ⟨newest, hnewest, hsame', hcompare'⟩ := h' twinId newer hnewer
  exact ⟨newest, hnewest, hsame'.trans hsame, compareStatesNewestFirst_trans hcompare' hcompare⟩

/-- What is still to be visited is there, and so is what survives. -/
def Present (states : ω → String → List TwinStateEvidence) (twinId : String)
    (snapshot : List TwinStateEvidence) (rest : List TwinStateEvidence) (w : ω) : Prop :=
  ∀ state ∈ snapshot, state ∈ rest ∨ Survives snapshot state → state ∈ states w twinId

theorem Ledger.foldl (hledger : Ledger adapter states) {snapshot : TwinStateRetentionSnapshot}
    (hwf : WellFormed snapshot.states) {rest : List TwinStateEvidence}
    (hrest : ∀ state ∈ rest, state ∈ snapshot.states)
    (hids : (rest.map fun state => toLowerCase state.objectId).Nodup) {p : Progress ω}
    (hpresent : Present states twinId snapshot.states rest p.world) :
    Kept states p.world (rest.foldl (pruneStep adapter config cutoff twinId
      (newestByStream snapshot.states) (publicationsOf snapshot.events)) p).world := by
  induction rest generalizing p with
  | nil => exact Kept.refl _
  | cons state rest ih =>
      obtain ⟨hstate, hrest⟩ := List.forall_mem_cons.mp hrest
      obtain ⟨hnew, hids⟩ := List.nodup_cons.mp hids
      rw [List.foldl_cons]
      generalize hp' : pruneStep adapter config cutoff twinId _ _ p state = p'
      rcases pruneStep_cases snapshot p hstate hp' with
        ⟨-, hworld, -⟩ | ⟨hprunable, -, hworld, -⟩
      · rw [← hworld]
        refine ih hrest hids fun other hother h => ?_
        rw [hworld]
        exact hpresent other hother (h.imp_left (List.mem_cons_of_mem _))
      · -- the state goes, and what survives for it stays
        have hstays (other : TwinStateEvidence) (hother : other ∈ snapshot.states)
            (h : other ∈ rest ∨ Survives snapshot.states other) : other ∈ states p'.world twinId := by
          rw [hworld]
          refine hledger.prune _ _ _ _ _
            (hpresent other hother (h.imp_left (List.mem_cons_of_mem _))) fun _ hid => ?_
          rcases h with h | h
          · exact hnew (List.mem_map.mpr ⟨other, h, congrArg toLowerCase hid⟩)
          · exact hprunable.ne hwf hother h (hid ▸ rfl)
        refine Kept.trans (fun twinId' lost hlost => ?_) (ih hrest hids hstays)
        by_cases hsame : twinId' = twinId ∧ lost.objectId = state.objectId
        · obtain ⟨rfl, hid⟩ := hsame
          have hmem := hpresent state hstate (.inl List.mem_cons_self)
          obtain rfl := List.inj_on_of_nodup_map (hledger.wellFormed p.world twinId').ids hlost hmem
            (congrArg toLowerCase hid)
          obtain ⟨survivor, hsurvivor, hsurvives, hstream, hnewer⟩ := hprunable.survivor hwf
          exact ⟨survivor, hstays survivor hsurvivor (.inr hsurvives), hstream, hnewer⟩
        · refine ⟨lost, ?_, ⟨rfl, rfl⟩, (compareStatesNewestFirst_self lost).le⟩
          rw [hworld]
          exact hledger.prune _ _ _ _ _ hlost fun htwin hid => hsame ⟨htwin, hid⟩

theorem Ledger.pruneTwin (hledger : Ledger adapter states) (p : Progress ω) (twinId : String) :
    Kept states p.world (pruneTwin adapter config cutoff p twinId).world := by
  have hstay := hledger.snapshot p.world twinId
  unfold Retention.pruneTwin
  split
  · next world hsnapshot =>
    rw [hsnapshot] at hstay
    exact hstay.kept
  · next snapshot world hsnapshot =>
    obtain ⟨hwf, hfresh⟩ := hledger.fresh p.world twinId snapshot (by rw [hsnapshot])
    rw [hsnapshot] at hstay hfresh
    dsimp only at hstay hfresh ⊢
    refine hstay.kept.trans ?_
    refine hledger.foldl hwf (p := ⟨_, p.prunes, world⟩)
      (fun state hstate => (List.mem_insertionSort _).mp hstate) ?_ fun state hstate _ => ?_
    · exact (((List.perm_insertionSort _ _).map _).nodup_iff).mpr hwf.ids
    · exact hfresh state hstate

theorem Ledger.run (hledger : Ledger adapter states) (config : OnChainStates) (now : Int) (w : ω) :
    Kept states w (pruneOnChainStates adapter config now w).world := by
  unfold pruneOnChainStates
  dsimp only
  split
  · exact Kept.refl w
  · have hlist := hledger.list w
    split
    · next world h =>
      rw [h] at hlist
      exact hlist.kept
    · next twinIds world h =>
      rw [h] at hlist
      refine hlist.kept.trans (List.foldlRecOn twinIds _
        (motive := fun p : Progress ω => Kept states world p.world) (Kept.refl world)
        fun p hp twinId _ => ?_)
      exact hp.trans (hledger.pruneTwin p twinId)

theorem Ledger.kept (hledger : Ledger adapter states) {n : Nat}
    (hrun : Run (Happens adapter states) n w w') : Kept states w w' := by
  refine hrun.relate Kept.refl (fun _ _ _ => Kept.trans) fun w w' h => ?_
  cases h with
  | run config now => exact hledger.run config now w
  | publish h => exact h.kept

end

/-! ## Retention is safe -/

section
variable {ω : Type}

variable {adapter : Adapter ω}

end

end

/-! ## A chain with two states -/

def oldState : TwinStateEvidence :=
  ⟨"0xold", "telemetry", "observed", .ofList (.replicate 64 'a'), 0⟩

def newState : TwinStateEvidence :=
  ⟨"0xnew", "telemetry", "observed", .ofList (.replicate 64 'a'), 1⟩

/-- The states of a Twin, of which the old one may be gone. -/
def chainStates (old : Bool) (twinId : String) : List TwinStateEvidence :=
  if twinId = "0xtwin" then if old then [oldState, newState] else [newState] else []

/-- A chain that executes every prune. -/
def chain : Adapter Bool where
  available := true
  listTwinIdsForRetention old := (.ok ["0xtwin"], old)
  getTwinStateRetentionSnapshot twinId old := (.ok ⟨chainStates old twinId, []⟩, old)
  pruneState twinId id old := (.ok (), old && !(twinId = "0xtwin" && id = "0xold"))

end Retention
