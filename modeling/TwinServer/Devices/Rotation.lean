-- SUMMARY: What the calls of one device workbench keep of the credentials of devices, and what each query does to them.
import TwinServer.Devices.Credentials

/-!
# Rotation of credentials

A put takes effect only after the record that was read, which alone keeps a rotation pending until it is completed. That
the saved password is the one the broker was told last needs more: a device is busy while a call works on it, and before
its configuration is stored it is written by the call that registers it only.
-/

open Js Js.Json Async Plants

namespace Devices

namespace Rotation

/-! ## The logic -/

section
variable (digest : String → String) (o : Options)

/-- What holds of the credentials of a device. -/
structure Guarded (ownerDid id : String) (s : System World Call) : Prop where
  unnamed : ∀ p, s.state.store.find? (scope ownerDid, id) = some p → isConfigured p.document = false →
    p.document.get? "twinId" = none
  sampled : ((s.state.workbenches 0).samples.get? id).isSome → Configured s.state.history ownerDid id
  consistent : ∀ p, s.state.store.find? (scope ownerDid, id) = some p →
    Consistent digest o ownerDid id s.state.updates p.document

/-- What holds between any two steps. -/
structure Secure (s : System World Call) : Prop where
  numbered : Numbered (s.state.history.map Commit.plant)
  readable : ∀ c ∈ s.state.history, leftOf c.plant.document = c.plant.document
  exclusive : ((s.state.workbenches 0).busy.map Prod.fst).Nodup
  admitted : ∀ t ∈ s.state.accepted, ∃ ownerDid id, AdmittedBy digest ownerDid id t s
  /-- A pending record is followed by pending records, until a rotation is completed. -/
  sealed : ∀ ownerDid id before c p, before ++ [c] <+: s.state.history → c.plant.key = (scope ownerDid, id) →
    (recordsOf before).find? (scope ownerDid, id) = some p → isPending p.document →
      isPending c.plant.document = false → Completes o ownerDid id before c s
  lasting : ∀ ownerDid id before c, before ++ [c] <+: s.state.history → c.plant.key = (scope ownerDid, id) →
    Configured before ownerDid id → isConfigured c.plant.document
  devices : ∀ ownerDid id, Introduced ownerDid id s → Guarded digest o ownerDid id s

end

/-- The device is busy with the call. -/
def Holding (t : Nat) (id : String) (s : System World Call) : Prop := (id, t) ∈ (s.state.workbenches 0).busy

/-- The call is registering the device: it put the first record, and the configuration is not stored yet. -/
def Opening (t : Nat) (ownerDid id hash : String) (s : System World Call) : Prop :=
  opener s.state.history (scope ownerDid, id) = some t ∧
    ∃ p, s.state.store.find? (scope ownerDid, id) = some p ∧ isConfigured p.document = false ∧
      p.document.get? "tokenHash" = some (.string hash)

/-- The credentials of the device are the call's to change. -/
def Owns (t : Nat) (ownerDid id : String) (s : System World Call) : Prop :=
  (∃ hash, Opening t ownerDid id hash s) ∨ Holding t id s ∧ Configured s.state.history ownerDid id

/-- What the others leave alone for a call. -/
structure Spares (t : Nat) (s s' : System World Call) : Prop where
  history : s.state.history <+: s'.state.history
  calls : s.calls <+: s'.calls
  updates : s.state.updates <+: s'.state.updates
  accepted : ∀ u ∈ s.state.accepted, u ∈ s'.state.accepted
  holding : ∀ id, Holding t id s → Holding t id s'
  configured : ∀ ownerDid id, Configured s.state.history ownerDid id → Configured s'.state.history ownerDid id
  locked : ∀ ownerDid id, Introduced ownerDid id s' → Holding t id s → Configured s.state.history ownerDid id →
    s'.state.store.find? (scope ownerDid, id) = s.state.store.find? (scope ownerDid, id)
  opening : ∀ ownerDid id hash, Introduced ownerDid id s' → Opening t ownerDid id hash s →
    Opening t ownerDid id hash s'
  told : ∀ ownerDid id, Introduced ownerDid id s' → Owns t ownerDid id s →
    updatesOf s'.state.updates ownerDid id = updatesOf s.state.updates ownerDid id

/-- Of results something is said when a call ends only. -/
def secureLogic (digest : String → String) (o : Options) : Logic World Call Thrown Outcome where
  inv := Secure digest o
  rely := Spares
  post _ _ _ := True

section
variable {digest : String → String} {o : Options} {t u : Nat} {ownerDid id : String} {s s' s'' : System World Call}
  {P P' : System World Call → Prop}

theorem Spares.refl (t : Nat) (s : System World Call) : Spares t s s where
  history := List.prefix_refl _
  calls := List.prefix_refl _
  updates := List.prefix_refl _
  accepted _ hu := hu
  holding _ h := h
  configured _ _ h := h
  locked _ _ _ _ _ := rfl
  opening _ _ _ _ h := h
  told _ _ _ _ := rfl

theorem Spares.introduced (h : Spares t s s') (hintroduced : Introduced ownerDid id s') : Introduced ownerDid id s :=
  hintroduced.of_later h.calls h.accepted

theorem Spares.owns (h : Spares t s s') (hintroduced : Introduced ownerDid id s') (howns : Owns t ownerDid id s) :
    Owns t ownerDid id s' := by
  rcases howns with ⟨hash, hopening⟩ | ⟨hholding, hconfigured⟩
  · exact .inl ⟨hash, h.opening _ _ _ hintroduced hopening⟩
  · exact .inr ⟨h.holding _ hholding, h.configured _ _ hconfigured⟩

theorem Spares.trans (h : Spares t s s') (h' : Spares t s' s'') : Spares t s s'' where
  history := h.history.trans h'.history
  calls := h.calls.trans h'.calls
  updates := h.updates.trans h'.updates
  accepted u hu := h'.accepted u (h.accepted u hu)
  holding id hid := h'.holding id (h.holding id hid)
  configured ownerDid id hconfigured := h'.configured _ _ (h.configured _ _ hconfigured)
  locked := by
    intro ownerDid id hintroduced hholding hconfigured
    exact (h'.locked _ _ hintroduced (h.holding _ hholding) (h.configured _ _ hconfigured)).trans
      (h.locked _ _ (h'.introduced hintroduced) hholding hconfigured)
  opening := by
    intro ownerDid id hash hintroduced hopening
    exact h'.opening _ _ _ hintroduced (h.opening _ _ _ (h'.introduced hintroduced) hopening)
  told := by
    intro ownerDid id hintroduced howns
    have hintroduced' := h'.introduced hintroduced
    exact (h'.told _ _ hintroduced (h.owns hintroduced' howns)).trans (h.told _ _ hintroduced' howns)

/-- The credentials of a device are one call's at most to change. -/
theorem Owns.unique (hs : Secure digest o s) (h : Owns t ownerDid id s) (h' : Owns u ownerDid id s) : t = u := by
  rcases h with ⟨hash, hopener, p, hp, hunset, -⟩ | ⟨hholding, q, hq, hset⟩
  · rcases h' with ⟨hash', hopener', -⟩ | ⟨-, q, hq, hset⟩
    · exact Option.some.inj (hopener.symm.trans hopener')
    · obtain rfl := Option.some.inj (hp.symm.trans hq)
      exact absurd hset (by rw [hunset]; exact Bool.false_ne_true)
  · rcases h' with ⟨hash, -, p, hp, hunset, -⟩ | ⟨hholding', -⟩
    · obtain rfl := Option.some.inj (hp.symm.trans hq)
      exact absurd hset (by rw [hunset]; exact Bool.false_ne_true)
    · exact congrArg Prod.snd (List.inj_on_of_nodup_map hs.exclusive hholding hholding' rfl)

/-! ### What a call knows -/

/-- A property that the others leave alone. -/
abbrev Kept (t : Nat) (P : System World Call → Prop) : Prop := ∀ s s', P s → Spares t s s' → P s'

theorem kept_true (t : Nat) : Kept t fun _ => True := fun _ _ _ _ => trivial

theorem Kept.and (h : Kept t P) (h' : Kept t P') : Kept t fun s => P s ∧ P' s :=
  fun s s' hs hspares => ⟨h s s' hs.1 hspares, h' s s' hs.2 hspares⟩

theorem kept_holding (t : Nat) (id : String) : Kept t (Holding t id) := fun _ _ hs hspares => hspares.holding id hs

/-- The call with its number, and the records that it began with. -/
def Called (t : Nat) (k : Call) (s : System World Call) : Prop :=
  ∃ w, s.calls[t]? = some (k, w) ∧ w.history <+: s.state.history

theorem kept_called (k : Call) : Kept t (Called t k) := by
  rintro s s' ⟨w, hcall, hw⟩ hspares
  exact ⟨w, getElem?_mono hspares.calls hcall, hw.trans hspares.history⟩

/-- The record was read by the call. -/
def Read (t : Nat) (ownerDid : String) (found : Plant) (s : System World Call) : Prop :=
  ∃ k w before p, s.calls[t]? = some (k, w) ∧ w.history <+: before ∧ before <+: s.state.history ∧
    (recordsOf before).find? (scope ownerDid, found.id) = some p ∧ p.revision = found.revision ∧
    p.document = found.document

theorem kept_read (ownerDid : String) (found : Plant) : Kept t (Read t ownerDid found) := by
  rintro s s' ⟨k, w, before, p, hcall, hw, hbefore, h⟩ hspares
  exact ⟨k, w, before, p, getElem?_mono hspares.calls hcall, hw, hbefore.trans hspares.history, h⟩

/-- What is known of a device that was introduced. -/
theorem kept_introduced {Q : System World Call → Prop}
    (h : ∀ s s', Introduced ownerDid id s' → Q s → Spares t s s' → Q s') :
    Kept t fun s => Introduced ownerDid id s → Q s :=
  fun s s' hs hspares hintroduced => h s s' hintroduced (hs (hspares.introduced hintroduced)) hspares

theorem kept_configured : Kept t fun s => Introduced ownerDid id s → Configured s.state.history ownerDid id :=
  kept_introduced fun _ _ _ hs hspares => hspares.configured _ _ hs

theorem kept_opening {hash : String} : Kept t fun s => Introduced ownerDid id s → Opening t ownerDid id hash s :=
  kept_introduced fun _ _ hintroduced hs hspares => hspares.opening _ _ _ hintroduced hs

/-- The record that was read is the current one when the key has its revision. -/
theorem Read.current {found : Plant} (h : Read t ownerDid found s) (hs : Secure digest o s)
    (hrevision : s.state.store.revision (scope ownerDid, found.id) = found.revision) :
    ∃ p, s.state.store.find? (scope ownerDid, found.id) = some p ∧ p.document = found.document := by
  obtain ⟨k, w, before, p, -, -, hbefore, hfind, hp, hdocument⟩ := h
  have hwas : Was s.state.history (scope ownerDid, found.id) p := ⟨before, hbefore, hfind⟩
  exact ⟨p, hwas.current hs.numbered (hrevision.trans hp.symm), hdocument⟩

/-- A record is stored as it is read. -/
theorem Secure.stored_document {key : String × String} {p : Stored} (hs : Secure digest o s)
    (hp : s.state.store.find? key = some p) : leftOf p.document = p.document := by
  obtain ⟨c, hc, rfl⟩ := List.mem_map.mp (mem_of_find? hp).1
  exact hs.readable c hc

/-! ### Changes that leave the records alone -/

section
variable {w : World}

theorem Secure.of_same (hs : Secure digest o s) (hhistory : w.history = s.state.history)
    (hupdates : w.updates = s.state.updates) (haccepted : ∀ u ∈ s.state.accepted, u ∈ w.accepted)
    (hexclusive : ((w.workbenches 0).busy.map Prod.fst).Nodup)
    (hadmitted : ∀ u ∈ w.accepted, ∃ ownerDid id, AdmittedBy digest ownerDid id u s)
    (hsampled : ∀ ownerDid id, Introduced ownerDid id { s with state := w } → Guarded digest o ownerDid id s →
      ((w.workbenches 0).samples.get? id).isSome → Configured s.state.history ownerDid id) :
    Secure digest o { s with state := w } where
  numbered := hhistory ▸ hs.numbered
  readable := hhistory ▸ hs.readable
  exclusive := hexclusive
  admitted := by
    intro u hu
    obtain ⟨ownerDid, id, hadmitted⟩ := hadmitted u hu
    exact ⟨ownerDid, id, hadmitted.mono (hhistory ▸ List.prefix_refl _) (List.prefix_refl _)⟩
  sealed := by
    intro ownerDid id before c p hrun hkey hfind hp hc
    exact (hs.sealed ownerDid id before c p (hhistory ▸ hrun) hkey hfind hp hc).mono (hhistory ▸ List.prefix_refl _)
      (List.prefix_refl _) (hupdates ▸ List.prefix_refl _)
  lasting := by
    intro ownerDid id before c hrun
    exact hs.lasting ownerDid id before c (hhistory ▸ hrun)
  devices := by
    intro ownerDid id hintroduced
    have hguarded := hs.devices ownerDid id (hintroduced.of_later (List.prefix_refl _) haccepted)
    constructor
    · intro p hp
      exact hguarded.unnamed p (by rwa [World.store, hhistory] at hp)
    · intro hsample
      exact hhistory ▸ hsampled ownerDid id hintroduced hguarded hsample
    · intro p hp
      exact hupdates ▸ hguarded.consistent p (by rwa [World.store, hhistory] at hp)

theorem spares_of_same (hhistory : w.history = s.state.history) (hupdates : w.updates = s.state.updates)
    (haccepted : ∀ u ∈ s.state.accepted, u ∈ w.accepted)
    (hholding : ∀ id, Holding t id s → Holding t id { s with state := w }) : Spares t s { s with state := w } where
  history := hhistory ▸ List.prefix_refl _
  calls := List.prefix_refl _
  updates := hupdates ▸ List.prefix_refl _
  accepted := haccepted
  holding := hholding
  configured ownerDid id h := hhistory ▸ h
  locked _ _ _ _ _ := by rw [World.store, hhistory, World.store]
  opening := by
    rintro ownerDid id hash - ⟨hopener, p, hp, h⟩
    exact ⟨hhistory ▸ hopener, p, by rw [World.store, hhistory]; exact hp, h⟩
  told _ _ _ _ := hupdates ▸ rfl

end

/-! ### The memory of the workbench -/

/-- The state in which the memory of the workbench changes. -/
def remembering (s : System World Call) (f : Memory → Memory) : System World Call :=
  { s with state := s.state.modify 0 f }

theorem memory_modify (w : World) (f : Memory → Memory) : (w.modify 0 f).workbenches 0 = f (w.workbenches 0) := by
  unfold World.modify
  dsimp only
  exact Function.update_self _ _ _

theorem isSome_get?_pruned {m : Memory} {now : Int} {ids : List String}
    (h : ((m.pruned now ids).get? id).isSome) : (m.samples.get? id).isSome := by
  unfold Memory.pruned at h
  generalize m.samples = samples at h ⊢
  induction ids generalizing samples with
  | nil => exact h
  | cons first ids ih =>
    have hfirst := ih _ h
    dsimp only at hfirst
    split at hfirst
    · rw [Map.get?_delete] at hfirst
      split at hfirst
      · cases hfirst
      · exact hfirst
    · exact hfirst

/-- Of the samples, a sample that is kept adds its own. -/
theorem isSome_get?_keep {m : Memory} {now : Int} {uuid device : String} {payload : Json}
    (h : (((m.keep now uuid device payload).2.samples).get? id).isSome) :
    id = device ∧ (m.keep now uuid device payload).1 ∨ (m.samples.get? id).isSome := by
  unfold Memory.keep at h ⊢
  dsimp only at h ⊢
  split at h
  · exact .inr h
  · next hnew =>
    rw [if_neg hnew]
    rw [Map.get?_set] at h
    by_cases hid : id = device
    · exact .inl ⟨hid, rfl⟩
    · rw [if_neg hid] at h
      right
      split at h
      · split at h
        · rw [Map.get?_delete] at h
          split at h
          · cases h
          · exact h
        · exact h
      · exact h

theorem acquired {key : String} (hs : Secure digest o s)
    (hfree : (s.state.workbenches 0).busy.any (·.1 == key) = false) :
    (secureLogic digest o).Step t s (remembering s fun m => { m with busy := (key, t) :: m.busy }) ∧
      ∀ u, Spares u s (remembering s fun m => { m with busy := (key, t) :: m.busy }) := by
  have hspares (u : Nat) : Spares u s (remembering s fun m => { m with busy := (key, t) :: m.busy }) := by
    refine spares_of_same rfl rfl (fun _ hu => hu) fun id hid => ?_
    rw [Holding, memory_modify]
    exact List.mem_cons_of_mem _ hid
  refine ⟨⟨hs.of_same rfl rfl (fun _ hu => hu) ?_ hs.admitted ?_, fun u _ => hspares u⟩, hspares⟩
  · rw [memory_modify, List.map_cons, List.nodup_cons]
    refine ⟨fun hmem => ?_, hs.exclusive⟩
    obtain ⟨entry, hentry, rfl⟩ := List.mem_map.mp hmem
    have hne := List.any_eq_false.mp hfree entry hentry
    simp at hne
  · intro ownerDid id _ hguarded hsample
    rw [memory_modify] at hsample
    exact hguarded.sampled hsample

theorem released {key : String} (hs : Secure digest o s) (hholding : Holding t key s) :
    (secureLogic digest o).Step t s
      (remembering s fun m => { m with busy := m.busy.filter (·.1 != key) }) := by
  refine ⟨hs.of_same rfl rfl (fun _ hu => hu) ?_ hs.admitted ?_, fun u hu => ?_⟩
  · rw [memory_modify]
    exact hs.exclusive.sublist (List.filter_sublist.map _)
  · intro ownerDid id _ hguarded hsample
    rw [memory_modify] at hsample
    exact hguarded.sampled hsample
  · refine spares_of_same rfl rfl (fun _ hu => hu) fun id hid => ?_
    rw [Holding, memory_modify]
    refine List.mem_filter.mpr ⟨hid, bne_iff_ne.mpr ?_⟩
    -- a device is busy with one call at a time
    rintro rfl
    exact hu (congrArg Prod.snd (List.inj_on_of_nodup_map hs.exclusive hid hholding rfl))

/-- A device that was configured is configured ever after. -/
theorem Secure.configured_mono (hs : Secure digest o s) {before : List Commit} (hbefore : before <+: s.state.history)
    (h : Configured before ownerDid id) : Configured s.state.history ownerDid id :=
  exists_find?_later (fun d => isConfigured d) hbefore
    (fun earlier c _ hc hkey hp => hs.lasting ownerDid id earlier c hc hkey hp) h

/-- A sample is kept of a call whose sample was admitted. -/
theorem kept_sample (now : Int) (uuid : String) (payload : Json) {k : Call} (hs : Secure digest o s)
    (hadmitted : AdmittedBy digest ownerDid id t s) (hcalled : Called t k s) (hsends : k.Sends id) {w : World}
    (hw : w = { s.state.modify 0 fun m => (m.keep now uuid id payload).2 with
      accepted := if ((s.state.workbenches 0).keep now uuid id payload).1 then s.state.accepted ++ [t]
        else s.state.accepted }) :
    (secureLogic digest o).Step t s { s with state := w } ∧ ∀ u, Spares u s { s with state := w } := by
  subst hw
  have haccepted {u : Nat} (hu : u ∈ s.state.accepted) :
      u ∈ if ((s.state.workbenches 0).keep now uuid id payload).1 then s.state.accepted ++ [t] else s.state.accepted := by
    split
    · exact List.mem_append_left _ hu
    · exact hu
  have hmemory : (((s.state.modify 0 fun m => (m.keep now uuid id payload).2).workbenches 0)) =
      ((s.state.workbenches 0).keep now uuid id payload).2 := memory_modify _ _
  have hbusy : ((s.state.workbenches 0).keep now uuid id payload).2.busy = (s.state.workbenches 0).busy := by
    unfold Memory.keep
    dsimp only
    split <;> rfl
  have hspares (u : Nat) : Spares u s { s with state := { s.state.modify 0 fun m => (m.keep now uuid id payload).2 with
      accepted := if ((s.state.workbenches 0).keep now uuid id payload).1 then s.state.accepted ++ [t]
        else s.state.accepted } } := by
    refine spares_of_same rfl rfl (fun _ => haccepted) fun id' hid => ?_
    rw [Holding, hmemory, hbusy]
    exact hid
  refine ⟨⟨hs.of_same rfl rfl (fun _ => haccepted) ?_ ?_ ?_, fun u _ => hspares u⟩, hspares⟩
  · rw [hmemory, hbusy]
    exact hs.exclusive
  · intro u hu
    split at hu
    · rcases List.mem_append.mp hu with hu | hu
      · exact hs.admitted u hu
      · obtain rfl := List.mem_singleton.mp hu
        exact ⟨ownerDid, id, hadmitted⟩
    · exact hs.admitted u hu
  · intro ownerDid' id' hintroduced hguarded hsample
    rw [hmemory] at hsample
    rcases isSome_get?_keep hsample with ⟨rfl, hkept⟩ | hsample
    · obtain ⟨w, hcall, hw⟩ := hcalled
      refine hs.configured_mono hw (hintroduced t ?_ k w hcall hsends)
      change t ∈ if _ then _ else _
      rw [if_pos hkept]
      exact List.mem_append_right _ (List.mem_singleton_self t)
    · exact hguarded.sampled hsample

/-! ### Puts and updates of passwords -/

/-- The state after a put of the call. -/
def committing (t : Nat) (scope id : String) (revision : Nat) (document : Record Json) (s : System World Call) :
    System World Call :=
  { s with state := s.state.committed t scope id revision document }

section
variable (digest o) in
/-- What a put of a device has to keep. -/
structure MayPut (t : Nat) (ownerDid id : String) (revision : Nat) (document : Record Json) (s : System World Call) :
    Prop where
  sealed : ∀ p, s.state.store.find? (scope ownerDid, id) = some p → isPending p.document →
    isPending (leftOf document) = false →
      Completes o ownerDid id s.state.history
        ⟨{ scope := scope ownerDid, id, revision := revision + 1, document := leftOf document, publication := none }, t⟩
        (committing t (scope ownerDid) id revision document s)
  lasting : Configured s.state.history ownerDid id → isConfigured document
  /-- Either the call may change the credentials, or the device has none yet and the token stays what it is. -/
  introduced : Introduced ownerDid id s →
    (Owns t ownerDid id s ∧ isConfigured document ∧
      Consistent digest o ownerDid id s.state.updates (leftOf document)) ∨
    (isConfigured document = false ∧ document.get? "twinId" = none ∧
      ∀ p, s.state.store.find? (scope ownerDid, id) = some p →
        isConfigured p.document = false ∧ document.get? "tokenHash" = p.document.get? "tokenHash")

variable {scope id : String} {revision : Nat} {document : Record Json}

/-- A put that leaves the credentials as they are, by a call that the device is busy with. -/
theorem mayPut_of_same {p : Stored} (hs : Secure digest o s) (hholding : Holding t id s)
    (hp : s.state.store.find? (Devices.scope ownerDid, id) = some p) (hsame : SameCredentials document p.document)
    (hname : Introduced ownerDid id s → isConfigured p.document = false → document.get? "twinId" = none) :
    MayPut digest o t ownerDid id revision document s where
  sealed := by
    intro q hq hpending hsettled
    obtain rfl := Option.some.inj (hp.symm.trans hq)
    rw [(hsame.stored (hs.stored_document hp)).isPending_eq, hpending] at hsettled
    cases hsettled
  lasting := by
    rintro ⟨q, hq, hset⟩
    obtain rfl := Option.some.inj (hp.symm.trans hq)
    exact hsame.isConfigured_eq.trans hset
  introduced := by
    intro hintroduced
    cases hset : isConfigured p.document with
    | true =>
      refine .inl ⟨.inr ⟨hholding, p, hp, hset⟩, hsame.isConfigured_eq.trans hset, ?_⟩
      exact ((hs.devices _ _ hintroduced).consistent p hp).of_same (hsame.stored (hs.stored_document hp)) rfl
    | false =>
      refine .inr ⟨hsame.isConfigured_eq.trans hset, hname hintroduced hset, fun q hq => ?_⟩
      obtain rfl := Option.some.inj (hp.symm.trans hq)
      exact ⟨hset, hsame.2.2⟩

/-- The first put of a device. -/
theorem mayPut_first (hnone : s.state.store.find? (Devices.scope ownerDid, id) = none)
    (hunset : isConfigured document = false) (hname : document.get? "twinId" = none) :
    MayPut digest o t ownerDid id revision document s where
  sealed p hp := by rw [hnone] at hp; cases hp
  lasting := by
    rintro ⟨p, hp, -⟩
    rw [World.store] at hnone
    rw [hnone] at hp
    cases hp
  introduced _ := .inr ⟨hunset, hname, fun p hp => by rw [hnone] at hp; cases hp⟩

theorem find?_of_revision_zero {key : String × String} (hs : Secure digest o s)
    (h : s.state.store.revision key = 0) : s.state.store.find? key = none := by
  cases hfind : s.state.store.find? key with
  | none => rfl
  | some p =>
    rw [Store.revision, hfind] at h
    exact absurd h (Was.revision_pos hs.numbered ⟨_, List.prefix_refl _, hfind⟩)

theorem find?_committing (key : String × String) :
    (committing t scope id revision document s).state.store.find? key =
      if key = (scope, id) then some { scope, id, revision := revision + 1, document := leftOf document, publication := none }
      else s.state.store.find? key := by
  change (recordsOf (s.state.history ++ [_])).find? key = _
  rw [recordsOf_snoc, Store.find?_put]
  rfl

/-- The call that puts the first record registers the device. -/
theorem opening_committing {hash : String} (hnone : s.state.store.find? (Devices.scope ownerDid, id) = none)
    (hunset : isConfigured document = false) (htoken : document.get? "tokenHash" = some (.string hash)) :
    Opening t ownerDid id hash (committing t (Devices.scope ownerDid) id revision document s) := by
  refine ⟨opener_snoc hnone, _, (find?_committing _).trans (if_pos rfl), (isConfigured_leftOf document).trans hunset, ?_⟩
  change (leftOf document).get? "tokenHash" = _
  rw [get?_leftOf, htoken]
  rfl

theorem configured_committing (hmay : ∀ ownerDid, scope = Devices.scope ownerDid →
      MayPut digest o t ownerDid id revision document s) {ownerDid device : String}
    (h : Configured s.state.history ownerDid device) :
    Configured (committing t scope id revision document s).state.history ownerDid device := by
  obtain ⟨p, hp, hconfigured⟩ := h
  by_cases hkey : (Devices.scope ownerDid, device) = (scope, id)
  · obtain ⟨rfl, rfl⟩ := Prod.mk.inj hkey
    refine ⟨_, (find?_committing _).trans (if_pos rfl), ?_⟩
    exact (isConfigured_leftOf document).trans ((hmay ownerDid rfl).lasting ⟨p, hp, hconfigured⟩)
  · exact ⟨p, ((find?_committing _).trans (if_neg hkey)).trans hp, hconfigured⟩

theorem guarded_committing (hmay : ∀ ownerDid, scope = Devices.scope ownerDid →
      MayPut digest o t ownerDid id revision document s) {ownerDid device : String}
    (hintroduced : Introduced ownerDid device s) (h : Guarded digest o ownerDid device s) :
    Guarded digest o ownerDid device (committing t scope id revision document s) where
  unnamed := by
    intro p hp hunset
    rw [find?_committing] at hp
    split at hp
    · next hkey =>
      obtain ⟨rfl, rfl⟩ := Prod.mk.inj hkey
      obtain rfl := Option.some.inj hp
      rw [isConfigured_leftOf] at hunset
      rcases (hmay ownerDid rfl).introduced hintroduced with ⟨-, hset, -⟩ | ⟨-, hunnamed, -⟩
      · exact absurd hset (by rw [hunset]; exact Bool.false_ne_true)
      · rw [get?_leftOf, hunnamed]
        rfl
    · exact h.unnamed p hp hunset
  sampled hsample := configured_committing hmay (h.sampled hsample)
  consistent := by
    intro p hp
    rw [find?_committing] at hp
    split at hp
    · next hkey =>
      obtain ⟨rfl, rfl⟩ := Prod.mk.inj hkey
      obtain rfl := Option.some.inj hp
      rcases (hmay ownerDid rfl).introduced hintroduced with ⟨-, -, hconsistent⟩ | ⟨hunset, -⟩
      · exact hconsistent
      · intro _ hset
        exact absurd hset (by rw [isConfigured_leftOf, hunset]; exact Bool.false_ne_true)
    · exact h.consistent p hp

theorem Secure.committing (hs : Secure digest o s) (hrevision : s.state.store.revision (scope, id) = revision)
    (hmay : ∀ ownerDid, scope = Devices.scope ownerDid → MayPut digest o t ownerDid id revision document s) :
    Secure digest o (committing t scope id revision document s) where
  numbered := by
    change Numbered ((s.state.history ++ [_]).map Commit.plant)
    rw [List.map_append, List.map_singleton]
    exact hs.numbered.snoc (congrArg (· + 1) hrevision.symm)
  readable := by
    intro c hc
    rcases List.mem_append.mp hc with hc | hc
    · exact hs.readable c hc
    · obtain rfl := List.mem_singleton.mp hc
      exact leftOf_leftOf document
  exclusive := hs.exclusive
  admitted := by
    intro u hu
    obtain ⟨ownerDid, device, hadmitted⟩ := hs.admitted u hu
    exact ⟨ownerDid, device, hadmitted.mono (List.prefix_append _ _) (List.prefix_refl _)⟩
  sealed := by
    intro ownerDid device before c p hrun hkey hfind hp hc
    rcases List.prefix_concat_iff.mp hrun with heq | hrun
    · obtain ⟨rfl, hc'⟩ := List.append_inj' heq rfl
      obtain rfl := List.singleton_inj.mp hc'
      obtain ⟨rfl, rfl⟩ := Prod.mk.inj hkey
      exact (hmay ownerDid rfl).sealed p hfind hp hc
    · exact (hs.sealed ownerDid device before c p hrun hkey hfind hp hc).mono (List.prefix_append _ _)
        (List.prefix_refl _) (List.prefix_refl _)
  lasting := by
    intro ownerDid device before c hrun hkey hconfigured
    rcases List.prefix_concat_iff.mp hrun with heq | hrun
    · obtain ⟨rfl, hc'⟩ := List.append_inj' heq rfl
      obtain rfl := List.singleton_inj.mp hc'
      obtain ⟨rfl, rfl⟩ := Prod.mk.inj hkey
      exact (isConfigured_leftOf document).trans ((hmay ownerDid rfl).lasting hconfigured)
    · exact hs.lasting ownerDid device before c hrun hkey hconfigured
  devices ownerDid device hintroduced :=
    guarded_committing hmay hintroduced (hs.devices ownerDid device hintroduced)

theorem spares_committing (hs : Secure digest o s)
    (hmay : ∀ ownerDid, scope = Devices.scope ownerDid → MayPut digest o t ownerDid id revision document s)
    (hu : u ≠ t) : Spares u s (committing t scope id revision document s) where
  history := List.prefix_append _ _
  calls := List.prefix_refl _
  updates := List.prefix_refl _
  accepted _ h := h
  holding _ h := h
  configured _ _ h := configured_committing hmay h
  locked := by
    intro ownerDid device hintroduced hholding hconfigured
    rw [find?_committing]
    refine if_neg fun hkey => ?_
    obtain ⟨rfl, rfl⟩ := Prod.mk.inj hkey
    rcases (hmay ownerDid rfl).introduced hintroduced with ⟨howns, -⟩ | ⟨-, -, hunset⟩
    · exact hu (Owns.unique hs (.inr ⟨hholding, hconfigured⟩) howns)
    · obtain ⟨p, hp, hset⟩ := hconfigured
      exact absurd hset (by rw [(hunset p hp).1]; exact Bool.false_ne_true)
  opening := by
    intro ownerDid device hash hintroduced hopening
    obtain ⟨hopener, p, hp, hunset, htoken⟩ := hopening
    refine ⟨opener_mono (List.prefix_append _ _) hopener, ?_⟩
    by_cases hkey : (Devices.scope ownerDid, device) = (scope, id)
    · obtain ⟨rfl, rfl⟩ := Prod.mk.inj hkey
      rcases (hmay ownerDid rfl).introduced hintroduced with ⟨howns, -⟩ | ⟨hnew, -, hsame⟩
      · exact absurd (Owns.unique hs (.inl ⟨hash, hopener, p, hp, hunset, htoken⟩) howns) hu
      · refine ⟨_, (find?_committing _).trans (if_pos rfl), (isConfigured_leftOf document).trans hnew, ?_⟩
        change (leftOf document).get? "tokenHash" = _
        rw [get?_leftOf, (hsame p hp).2, htoken]
        rfl
    · exact ⟨p, ((find?_committing _).trans (if_neg hkey)).trans hp, hunset, htoken⟩
  told _ _ _ _ := rfl

end

/-- The state after the broker has confirmed a password. -/
def telling (b : BrokerUpdate) (s : System World Call) : System World Call :=
  { s with state := { s.state with updates := s.state.updates ++ [b] } }

/-- While a device has no configuration, or a pending one, the broker may be told a password by the call that may change
the credentials. -/
theorem told {b : BrokerUpdate} (hs : Secure digest o s)
    (hmay : Introduced b.ownerDid b.id s → Owns t b.ownerDid b.id s ∧
      ∀ p, s.state.store.find? (scope b.ownerDid, b.id) = some p → isPending p.document = false →
        isConfigured p.document = false) :
    (secureLogic digest o).Step t s (telling b s) := by
  refine ⟨⟨hs.numbered, hs.readable, hs.exclusive, hs.admitted, ?_, hs.lasting, ?_⟩, fun u hu => ?_⟩
  · intro ownerDid device before c p hrun hkey hfind hp hc
    exact (hs.sealed ownerDid device before c p hrun hkey hfind hp hc).mono (List.prefix_refl _) (List.prefix_refl _)
      (List.prefix_append _ _)
  · intro ownerDid device hintroduced
    have hguarded := hs.devices ownerDid device hintroduced
    refine ⟨hguarded.unnamed, hguarded.sampled, fun p hp => ?_⟩
    by_cases hdevice : b.ownerDid = ownerDid ∧ b.id = device
    · obtain ⟨rfl, rfl⟩ := hdevice
      intro hpending hset
      exact absurd hset (by rw [(hmay hintroduced).2 p hp hpending]; exact Bool.false_ne_true)
    · refine (hguarded.consistent p hp).of_same ⟨rfl, rfl, rfl⟩ ?_
      change updatesOf (s.state.updates ++ [b]) ownerDid device = _
      rw [updatesOf_append, if_neg hdevice, List.append_nil]
  · refine ⟨List.prefix_refl _, List.prefix_refl _, List.prefix_append _ _, fun _ h => h, fun _ h => h,
      fun _ _ h => h, fun _ _ _ _ _ => rfl, fun _ _ _ _ h => h, fun ownerDid device hintroduced howns => ?_⟩
    change updatesOf (s.state.updates ++ [b]) ownerDid device = _
    rw [updatesOf_append, if_neg, List.append_nil]
    rintro ⟨rfl, rfl⟩
    exact hu (Owns.unique hs howns (hmay hintroduced).1)

end

end Rotation

end Devices
