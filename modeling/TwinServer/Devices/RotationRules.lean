-- SUMMARY: The rules by which the queries of a device workbench keep the credentials of devices.
import TwinServer.Devices.Rotation

/-!
# Rules for the credentials

One rule for each query, in the form in which the operations use it: what holds before, which holds whatever the others
do, and what is known afterwards.
-/

open Js Js.Json Async Plants

namespace Devices

/-- The query leaves alone the records, the broker and what devices are busy with. -/
def Query.IsHarmless : Query → Prop
  | list _ | createTwin _ _ _ _ | latest _ _ | forget _ _ | outside _ => True
  | _ => False

theorem isHarmless_of_isPlain (q : Query) (hq : q.IsPlain) : q.IsHarmless := by
  cases q with
  | list _ | latest _ _ | outside _ => trivial
  | _ => exact hq.elim

namespace Rotation

/-! ## Queries -/

section
variable {digest : String → String} {o : Options} {t : Nat} {s : System World Call}

/-- A change of memory that leaves busy devices alone and adds no sample. -/
theorem modified {n : Nat} {f : Memory → Memory} (hs : Secure digest o s) (hbusy : ∀ m, (f m).busy = m.busy)
    (hsamples : ∀ m id, ((f m).samples.get? id).isSome → (m.samples.get? id).isSome) :
    (secureLogic digest o).Step t s { s with state := s.state.modify n f } ∧
      ∀ u, Spares u s { s with state := s.state.modify n f } := by
  have hmemory : (s.state.modify n f).workbenches 0 = f (s.state.workbenches 0) ∨
      (s.state.modify n f).workbenches 0 = s.state.workbenches 0 := by
    by_cases hn : n = 0
    · subst hn
      exact .inl (memory_modify _ _)
    · unfold World.modify
      exact .inr (Function.update_of_ne (Ne.symm hn) _ _)
  have hsame : ((s.state.modify n f).workbenches 0).busy = (s.state.workbenches 0).busy := by
    rcases hmemory with h | h
    · rw [h, hbusy]
    · rw [h]
  have hspares (u : Nat) : Spares u s { s with state := s.state.modify n f } := by
    refine spares_of_same rfl rfl (fun _ hu => hu) fun id hid => ?_
    rw [Holding, hsame]
    exact hid
  refine ⟨⟨hs.of_same rfl rfl (fun _ hu => hu) (hsame ▸ hs.exclusive) hs.admitted ?_, fun u _ => hspares u⟩, hspares⟩
  intro ownerDid id _ hguarded hsample
  rcases hmemory with h | h
  · rw [h] at hsample
    exact hguarded.sampled (hsamples _ _ hsample)
  · rw [h] at hsample
    exact hguarded.sampled hsample

theorem serve_of_isHarmless {q : Query} (hq : q.IsHarmless) (hs : Secure digest o s) (f : Fate) :
    (secureLogic digest o).Step t s { s with state := (serve s.state t q f).2 } ∧
      ∀ u, Spares u s { s with state := (serve s.state t q f).2 } := by
  cases q with
  | list _ => exact ⟨⟨hs, fun u _ => .refl u s⟩, fun u => .refl u s⟩
  | outside _ => exact ⟨⟨hs, fun u _ => .refl u s⟩, fun u => .refl u s⟩
  | createTwin ownerDid id _ _ =>
    have hspares (u : Nat) :
        Spares u s { s with state := { s.state with creations := s.state.creations ++ [⟨ownerDid, id, t⟩] } } :=
      spares_of_same rfl rfl (fun _ hu => hu) fun _ hid => hid
    exact ⟨⟨hs.of_same rfl rfl (fun _ hu => hu) hs.exclusive hs.admitted fun _ _ _ hguarded => hguarded.sampled,
      fun u _ => hspares u⟩, hspares⟩
  | latest n ids =>
    exact modified (f := fun m => { m with samples := m.pruned f.now ids }) hs (fun _ => rfl) fun _ _ => isSome_get?_pruned
  | forget n id =>
    refine modified (f := fun m => { m with samples := m.samples.delete id }) hs (fun _ => rfl) fun m other hsome => ?_
    dsimp only at hsome
    rw [Map.get?_delete] at hsome
    split at hsome
    · cases hsome
    · exact hsome
  | put _ _ _ _ | rotateBootstrapCredentials _ _ _ _ | acquire _ _ | release _ _ | keep _ _ _ => exact hq.elim

end

section
variable [Runtime] {digest : String → String} {o : Options} {t : Nat} {k : Call} {E P P' : System World Call → Prop}
  {α β : Type}

variable (digest o) in
/-- From where `P` holds, the program of the call ends with `R` of its result, or fails with `E`. -/
def Spec (E : System World Call → Prop) (t : Nat) (k : Call) (P : System World Call → Prop) (p : Act α)
    (R : α → System World Call → Prop) : Prop :=
  (secureLogic digest o).Triple (service digest o) t (fun s => Called t k s ∧ P s) p
    (fun a s => Called t k s ∧ R a s) fun _ => E

theorem spec_pure {a : α} {R : α → System World Call → Prop} (hR : ∀ s, Secure digest o s → P s → R a s) :
    Spec digest o E t k P (pure a) R :=
  Logic.Triple.pure fun s hs hP => ⟨hP.1, hR s hs hP.2⟩

/-- What holds of no state is a hypothesis. -/
theorem spec_extract {φ : Prop} {p : Act α} {R : α → System World Call → Prop} (h : φ → Spec digest o E t k P p R) :
    Spec digest o E t k (fun s => P s ∧ φ) p R :=
  fun s hs hP => h hP.2.2 s hs ⟨hP.1, hP.2.1⟩

theorem spec_refused {code : String} {status : Nat} {R : α → System World Call → Prop} (hE : ∀ s, P s → E s) :
    Spec digest o E t k P (refused code status) R :=
  Logic.Triple.raise fun s _ hP => hE s hP.2

theorem spec_harmless {p : Act α} (hkept : Kept t P) (hE : ∀ s, P s → E s) (h : p.Asks Query.IsHarmless) :
    Spec digest o E t k P p fun _ => P := by
  have hkept' : Kept t fun s => Called t k s ∧ P s := (kept_called k).and hkept
  refine (Logic.Triple.of_asks (V := secureLogic digest o) hkept' (fun q hq s hs hP f => ?_) h).mono (fun _ _ hP => hP) (fun _ _ hP => hP)
    fun _ s hP => hE s hP.2
  obtain ⟨hstep, hspares⟩ := serve_of_isHarmless hq hs f
  exact ⟨hstep, hkept' s _ hP (hspares t)⟩

/-- What follows a refusal that does not come. -/
theorem spec_unless {c : Bool} {code : String} {status : Nat} {p : Act α} {R : α → System World Call → Prop}
    (hE : ∀ s, P s → E s) (h : c = false → Spec digest o E t k P p R) :
    Spec digest o E t k P (refuseIf c code status >>= fun _ => p) R := by
  cases c with
  | true => exact Logic.Triple.raise fun s _ hP => hE s hP.2
  | false => exact h rfl

omit [Runtime] in
theorem read_listed {ownerDid : String} {p : Stored} {s : System World Call} (hcalled : Called t k s)
    (hp : s.state.store.find? (scope ownerDid, p.id) = some p) : Read t ownerDid (listed p) s := by
  obtain ⟨w, hcall, hw⟩ := hcalled
  exact ⟨k, w, _, p, hcall, hw, List.prefix_refl _, hp, rfl, rfl⟩

section
variable {ownerDid : String} {Q : Plant → System World Call → Prop} (hkept : Kept t P) (hE : ∀ s, P s → E s)
  (hQ : ∀ s p, Secure digest o s → Called t k s → P s → s.state.store.find? (scope ownerDid, p.id) = some p →
    Q (listed p) s)
include hkept hE hQ

/-- Records that are listed, and what is known of them then. -/
theorem spec_plants :
    Spec digest o E t k P (plants (scope ownerDid)) fun items s => P s ∧ ∀ item ∈ items, Q item s := by
  have hkept' : Kept t fun s => Called t k s ∧ P s := (kept_called k).and hkept
  refine Logic.Triple.query (V := secureLogic digest o) hkept' fun s hs hP f =>
    ⟨(serve_of_isHarmless (q := .list (scope ownerDid)) trivial hs f).1, ?_⟩
  change Logic.outcomes _ _ (if f.fails then _ else _) s
  split
  · exact hE s hP.2
  · refine ⟨hP.1, hP.2, fun item hitem => ?_⟩
    obtain ⟨p, hp, rfl⟩ := List.mem_map.mp hitem
    obtain ⟨hp, hscope⟩ := List.mem_filter.mp hp
    have hkey : p.key = (scope ownerDid, p.id) := Prod.ext (of_decide_eq_true hscope) rfl
    exact hQ s p hs hP.1 hP.2 (Store.find?_eq_some_iff.mpr ⟨hp, hkey⟩)

theorem spec_record {context : DeviceContext} {id : String} (howner : context.ownerDid = ownerDid) :
    Spec digest o E t k P (record context id) fun found s => P s ∧ Q found s ∧ found.id = id := by
  subst howner
  refine Logic.Triple.bind (spec_plants hkept hE hQ) fun items => ?_
  cases hfind : items.find? (·.id == id) with
  | none => exact spec_refused fun s hP => hE s hP.1
  | some found =>
    dsimp only
    split
    · refine spec_pure fun s _ hP => ⟨hP.1, hP.2 found (List.mem_of_find?_eq_some hfind), ?_⟩
      have heq := List.find?_some hfind
      exact eq_of_beq heq
    · exact spec_refused fun s hP => hE s hP.1

/-- The devices that are listed, and what is known of them then. -/
theorem spec_listDevices {context : DeviceContext} (howner : context.ownerDid = ownerDid)
    (hQkept : ∀ item, Kept t (Q item)) :
    Spec digest o E t k P (listDevices 0 context) fun devices s =>
      P s ∧ ∀ device ∈ devices.map Prod.fst, Q device s := by
  subst howner
  refine Logic.Triple.bind (spec_plants hkept hE hQ) fun items => ?_
  have hkept' : Kept t fun s => P s ∧ ∀ item ∈ items, Q item s :=
    hkept.and fun s s' hs hspares item hitem => hQkept item s s' (hs item hitem) hspares
  refine Logic.Triple.bind (spec_harmless hkept' (fun s hP => hE s hP.1) (Program.asks_query trivial)) fun samples => ?_
  refine spec_pure fun s _ hP => ⟨hP.1, fun device hdevice => ?_⟩
  obtain ⟨⟨_, sample⟩, hmem, rfl⟩ := List.mem_map.mp hdevice
  exact hP.2 _ (List.mem_filter.mp (List.of_mem_zip hmem).1).1

end

/-- A sample is of a device that was configured, if that was introduced. -/
theorem spec_latest (ownerDid : String) {id : String} (hkept : Kept t P) :
    Spec digest o E t k P (latest 0 [id]) fun samples s =>
      P s ∧ (samples.head?.join.isSome → Introduced ownerDid id s → Configured s.state.history ownerDid id) := by
  have hkept' : Kept t fun s => Called t k s ∧ P s := (kept_called k).and hkept
  refine Logic.Triple.query (V := secureLogic digest o) hkept' fun s hs hP f => ?_
  obtain ⟨hstep, hspares⟩ := serve_of_isHarmless (t := t) (q := .latest 0 [id]) trivial hs f
  refine ⟨hstep, ?_⟩
  obtain ⟨hcalled, hP'⟩ := hkept' s _ hP (hspares t)
  refine ⟨hcalled, hP', fun hsample hintroduced => (hs.devices ownerDid id hintroduced).sampled ?_⟩
  obtain ⟨sample, hsample⟩ := Option.isSome_iff_exists.mp hsample
  exact Option.isSome_iff_exists.mpr ⟨sample, (Option.filter_eq_some_iff.mp hsample).1⟩

/-! ### Puts -/

section
variable {scope id ownerDid : String} {revision : Nat} {document : Record Json}

/-- A put that is right at the moment at which it takes effect. -/
theorem spec_putPlant {R : Plant → System World Call → Prop} (hkept : Kept t P) (hE : ∀ s, P s → E s)
    (hstays : ∀ s, E s → E (committing t scope id revision document s))
    (hmay : ∀ s, Secure digest o s → Called t k s → P s → s.state.store.revision (scope, id) = revision →
      ∀ ownerDid, scope = Devices.scope ownerDid → MayPut digest o t ownerDid id revision document s)
    (hR : ∀ s, Secure digest o s → Called t k s → P s → s.state.store.revision (scope, id) = revision →
      (∀ ownerDid device, Configured s.state.history ownerDid device →
        Configured (committing t scope id revision document s).state.history ownerDid device) →
      R { id, revision := revision + 1, document, publication := none } (committing t scope id revision document s)) :
    Spec digest o E t k P (putPlant scope id revision document) R := by
  have hkept' : Kept t fun s => Called t k s ∧ P s := (kept_called k).and hkept
  refine Logic.Triple.query (V := secureLogic digest o) hkept' fun s hs hP f => ?_
  have hsame : (secureLogic digest o).Step t s s := ⟨hs, fun u _ => .refl u s⟩
  have hstep (hrevision : s.state.store.revision (scope, id) = revision) :
      (secureLogic digest o).Step t s (committing t scope id revision document s) := by
    have hmay' := hmay s hs hP.1 hP.2 hrevision
    exact ⟨hs.committing hrevision hmay', fun u hu => spares_committing hs hmay' hu⟩
  change (secureLogic digest o).Step t s { s with state := (s.state.put t scope id revision document f.put).2 } ∧
    Logic.outcomes _ _ (s.state.put t scope id revision document f.put).1
      { s with state := (s.state.put t scope id revision document f.put).2 }
  cases f.put with
  | refused => exact ⟨hsame, hE s hP.2⟩
  | unreported =>
    rw [World.put]
    split
    · next hrevision => exact ⟨hstep hrevision, hstays s (hE s hP.2)⟩
    · exact ⟨hsame, hE s hP.2⟩
  | done =>
    rw [World.put]
    split
    · next hrevision =>
      obtain ⟨w, hcall, hw⟩ := hP.1
      exact ⟨hstep hrevision, ⟨w, hcall, hw.trans (List.prefix_append _ _)⟩,
        hR s hs hP.1 hP.2 hrevision fun _ _ => configured_committing (hmay s hs hP.1 hP.2 hrevision)⟩
    · exact ⟨hsame, hE s hP.2⟩

/-- A put after the record that the call has read. -/
theorem spec_update (found : Plant) {R : Plant → System World Call → Prop} (hkept : Kept t P) (hE : ∀ s, P s → E s)
    (hstays : ∀ s, E s → E (committing t (Devices.scope ownerDid) id found.revision document s))
    (hread : ∀ s, P s → Read t ownerDid found s ∧ found.id = id)
    (hmay : ∀ s p, Secure digest o s → Called t k s → P s →
      s.state.store.find? (Devices.scope ownerDid, id) = some p → p.document = found.document →
      MayPut digest o t ownerDid id found.revision document s)
    (hR : ∀ s p, Secure digest o s → Called t k s → P s →
      s.state.store.find? (Devices.scope ownerDid, id) = some p → p.document = found.document →
      (∀ ownerDid' device, Configured s.state.history ownerDid' device →
        Configured (committing t (Devices.scope ownerDid) id found.revision document s).state.history ownerDid' device) →
      R { id, revision := found.revision + 1, document, publication := none }
        (committing t (Devices.scope ownerDid) id found.revision document s)) :
    Spec digest o E t k P (put ownerDid id found.revision document) R := by
  have hcurrent {s : System World Call} (hs : Secure digest o s) (hP : P s)
      (hrevision : s.state.store.revision (Devices.scope ownerDid, id) = found.revision) :
      ∃ p, s.state.store.find? (Devices.scope ownerDid, id) = some p ∧ p.document = found.document := by
    obtain ⟨hfound, rfl⟩ := hread s hP
    exact hfound.current hs hrevision
  refine spec_putPlant hkept hE hstays (fun s hs hcalled hP hrevision other hother => ?_)
    fun s hs hcalled hP hrevision hlasts => ?_
  · obtain ⟨p, hp, hdocument⟩ := hcurrent hs hP hrevision
    obtain rfl := scope_injective hother
    exact hmay s p hs hcalled hP hp hdocument
  · obtain ⟨p, hp, hdocument⟩ := hcurrent hs hP hrevision
    exact hR s p hs hcalled hP hp hdocument hlasts

end

/-- The broker is told a password. -/
theorem spec_rotateBootstrapCredentials {ownerDid id username password : String} {P' : System World Call → Prop}
    (hkept : Kept t P) (hE : ∀ s, P s → E s)
    (hmay : ∀ s, Secure digest o s → P s → Introduced ownerDid id s → Owns t ownerDid id s ∧
      ∀ p, s.state.store.find? (scope ownerDid, id) = some p → isPending p.document = false →
        isConfigured p.document = false)
    (hR : ∀ s, Secure digest o s → P s → P' (telling ⟨ownerDid, id, username, password⟩ s)) :
    Spec digest o E t k P (rotateBootstrapCredentials ownerDid id username password) fun _ => P' := by
  have hkept' : Kept t fun s => Called t k s ∧ P s := (kept_called k).and hkept
  refine Logic.Triple.query (V := secureLogic digest o) hkept' fun s hs hP f => ?_
  change (secureLogic digest o).Step t s { s with state := (if f.fails then _ else _ : _ × World).2 } ∧
    Logic.outcomes _ _ (if f.fails then _ else _ : _ × World).1 { s with state := (if f.fails then _ else _ : _ × World).2 }
  cases f.fails with
  | true => exact ⟨⟨hs, fun u _ => .refl u s⟩, hE s hP.2⟩
  | false =>
    refine ⟨told (b := ⟨ownerDid, id, username, password⟩) hs (hmay s hs hP.2), ?_, hR s hs hP.2⟩
    exact hP.1

/-! ### Devices that are busy -/

theorem spec_release {key : String} {Q Q' : System World Call → Prop} (hkept : Kept t Q)
    (hholding : ∀ s, Q s → Holding t key s)
    (hQ : ∀ s, Q s → Q' (remembering s fun m => { m with busy := m.busy.filter (·.1 != key) })) :
    (secureLogic digest o).Triple (service digest o) t Q (release 0 key) (fun _ => Q') fun _ => E := by
  refine Logic.Triple.query (V := secureLogic digest o) hkept fun s hs hQs f => ?_
  exact ⟨released hs (hholding s hQs), hQ s hQs⟩

/-- The work of a call while the device is busy with it. What the work ends with outlives the release. -/
theorem spec_exclusively {key : String} {work : Act α} {R : α → System World Call → Prop} (hkept : Kept t P)
    (hwork : Spec digest o (Holding t key) t k (fun s => P s ∧ Holding t key s) work
      fun a s => R a s ∧ Holding t key s)
    (hR : ∀ a, Kept t fun s => R a s ∧ Holding t key s)
    (hrelease : ∀ a s, R a s → R a (remembering s fun m => { m with busy := m.busy.filter (·.1 != key) })) :
    Spec digest o (fun _ => True) t k P (exclusively 0 key work) R := by
  have hkept' : Kept t fun s => Called t k s ∧ P s := (kept_called k).and hkept
  have hacquire : Spec digest o (fun _ => True) t k P (acquire 0 key) fun free s => P s ∧ (free → Holding t key s) := by
    refine Logic.Triple.query (V := secureLogic digest o) hkept' fun s hs hP f => ?_
    change (secureLogic digest o).Step t s { s with state := (if _ then _ else _ : _ × World).2 } ∧
      Logic.outcomes _ _ (if _ then _ else _ : _ × World).1 { s with state := (if _ then _ else _ : _ × World).2 }
    cases hfree : (s.state.workbenches 0).busy.any (·.1 == key) with
    | true => exact ⟨⟨hs, fun u _ => .refl u s⟩, hP.1, hP.2, fun h => by cases h⟩
    | false =>
      obtain ⟨hstep, hspares⟩ := acquired (t := t) hs hfree
      obtain ⟨hcalled, hP'⟩ := hkept' s _ hP (hspares t)
      refine ⟨hstep, hcalled, hP', fun _ => ?_⟩
      rw [Holding]
      change (key, t) ∈ ((s.state.modify 0 fun m => { m with busy := (key, t) :: m.busy }).workbenches 0).busy
      rw [memory_modify]
      exact List.mem_cons_self
  refine Logic.Triple.bind hacquire fun free => ?_
  cases free with
  | false => exact spec_refused fun _ _ => trivial
  | true =>
    refine Logic.Triple.andFinally (hwork.weaken fun s _ hP => ⟨hP.1, hP.2.1, hP.2.2 rfl⟩) (fun a => ?_) fun _ => ?_
    · exact spec_release ((kept_called k).and (hR a)) (fun s hQ => hQ.2.2) fun s hQ => ⟨hQ.1, hrelease a s hQ.2.1⟩
    · exact spec_release (kept_holding t key) (fun s hQ => hQ) fun _ _ => trivial

end

end Rotation

end Devices
