-- SUMMARY: A device is created on the chain once: every creation is by the call whose put took the record out of waiting.
import TwinServer.Devices.Records

/-!
# Creation of devices

A record that says `creating` or `created` never says anything else again, so one put of each device at most takes its
record there. The chain is asked only by the call that has put this record.
-/

open Js Js.Json Async Plants

namespace Devices

/-! ## Settled records -/

/-- The record says that the device is created or that this is tried. -/
def settled (document : Record Json) : Bool :=
  stateOf document == some "creating" || stateOf document == some "created"

theorem stateOf_leftOf (document : Record Json) : stateOf (leftOf document) = stateOf document := by
  unfold stateOf
  rw [get?_leftOf]
  cases document.get? "state" with
  | none => rfl
  | some v =>
    cases v with
    | number x =>
      rw [Option.map_some, written]
      split <;> rfl
    | _ => rfl

theorem settled_leftOf (document : Record Json) : settled (leftOf document) = settled document := by
  rw [settled, stateOf_leftOf, settled]

theorem settled_set {document : Record Json} {name : String} (hname : name ≠ "state") (v : Json) :
    settled (document.set name v) = settled document := by
  rw [settled, stateOf, Record.get?_set, if_neg hname.symm]
  rfl

theorem settled_delete {document : Record Json} {name : String} (hname : name ≠ "state") :
    settled (document.delete name) = settled document := by
  rw [settled, stateOf, Record.get?_delete, if_neg hname.symm]
  rfl

section
variable {history before : List Commit} {key : String × String} {c : Commit} {t u : Nat}

/-- The record of the key is settled. -/
def Settles (history : List Commit) (key : String × String) : Prop :=
  ∃ p, (recordsOf history).find? key = some p ∧ settled p.document

/-- The record of a device follows a settled one only when it is settled itself. -/
def Lawful (history : List Commit) : Prop :=
  ∀ before c, before ++ [c] <+: history → IsDevice c.plant.key → Settles before c.plant.key →
    settled c.plant.document

theorem Lawful.snoc (h : Lawful history)
    (hc : IsDevice c.plant.key → Settles history c.plant.key → settled c.plant.document) :
    Lawful (history ++ [c]) := by
  intro before d hbefore hdevice hsettles
  rcases List.prefix_concat_iff.mp hbefore with heq | hbefore
  · obtain ⟨rfl, hd⟩ := List.append_inj' heq rfl
    obtain rfl := List.singleton_inj.mp hd
    exact hc hdevice hsettles
  · exact h before d hbefore hdevice hsettles

theorem Lawful.of_prefix (h : Lawful history) (hbefore : before <+: history) : Lawful before :=
  fun earlier c hearlier => h earlier c (hearlier.trans hbefore)

/-- Settled records stay settled. -/
theorem Settles.mono (hlawful : Lawful history) (hdevice : IsDevice key) (hbefore : before <+: history)
    (h : Settles before key) : Settles history key :=
  exists_find?_later (fun d => settled d) hbefore
    (fun earlier c _ hc hkey hp => hlawful earlier c hc (hkey ▸ hdevice) (hkey ▸ hp)) h

/-- The call put the record that was settled first. -/
def Opens (history : List Commit) (t : Nat) (key : String × String) : Prop :=
  ∃ before c, before ++ [c] <+: history ∧ c.author = t ∧ c.plant.key = key ∧ ¬ Settles before key ∧
    settled c.plant.document

theorem Opens.mono (h : Opens before t key) (hbefore : before <+: history) : Opens history t key := by
  obtain ⟨earlier, c, hearlier, h⟩ := h
  exact ⟨earlier, c, hearlier.trans hbefore, h⟩

theorem settles_snoc (h : settled c.plant.document) : Settles (history ++ [c]) c.plant.key :=
  ⟨c.plant, by rw [recordsOf_snoc, Store.find?_put, if_pos rfl], h⟩

/-- A device is opened by one call. -/
theorem Opens.unique (hlawful : Lawful history) (hdevice : IsDevice key) (h : Opens history t key) (h' : Opens history u key) : t = u := by
  obtain ⟨before, c, hc, rfl, hkey, hbefore, hsettled⟩ := h
  obtain ⟨before', c', hc', rfl, hkey', hbefore', hsettled'⟩ := h'
  -- had one of them come first, the record would have been settled for the other
  have hfirst {l l' : List Commit} {d d' : Commit} (hd : l ++ [d] <+: history) (hd' : l' ++ [d'] <+: history)
      (hkey : d.plant.key = key) (hsettled : settled d.plant.document) (hl' : ¬ Settles l' key) :
      ¬ l.length < l'.length := by
    intro hlt
    have hbefore : l ++ [d] <+: l' :=
      List.prefix_of_prefix_length_le hd ((List.prefix_append l' [d']).trans hd') (by
        rw [List.length_append]
        exact hlt)
    have hsettles : Settles (l ++ [d]) key := hkey ▸ settles_snoc hsettled
    exact hl' (hsettles.mono (hlawful.of_prefix ((List.prefix_append l' [d']).trans hd')) hdevice hbefore)
  have hlength : before.length = before'.length :=
    Nat.le_antisymm (Nat.le_of_not_lt (hfirst hc' hc hkey' hsettled' hbefore))
      (Nat.le_of_not_lt (hfirst hc hc' hkey hsettled hbefore'))
  have heq : before ++ [c] = before' ++ [c'] :=
    (List.prefix_of_prefix_length_le hc hc' (by simp [hlength])).eq_of_length (by simp [hlength])
  rw [List.singleton_inj.mp (List.append_inj' heq rfl).2]

end

/-! ## The logic -/

section
variable {t : Nat} {P P' : System World Call → Prop} {s s' s'' : System World Call}

/-- What holds of the workbenches between any two steps. -/
structure Orderly (s : System World Call) : Prop where
  numbered : Numbered (s.state.history.map Commit.plant)
  lawful : Lawful s.state.history
  /-- A creation is of the call that opened the device, and no device is created twice. -/
  opened : ∀ c ∈ s.state.creations, Opens s.state.history c.author (scope c.ownerDid, c.id)
  once : (s.state.creations.map fun c => (c.ownerDid, c.id)).Nodup
  authors : ∀ c ∈ s.state.creations, c.author < s.calls.length

/-- The history grows, and a call makes its creations itself. -/
structure Leaves (t : Nat) (s s' : System World Call) : Prop where
  history : s.state.history <+: s'.state.history
  calls : s.calls <+: s'.calls
  creations : ∀ c ∈ s'.state.creations, c.author = t → c ∈ s.state.creations

/-- Nothing is said of results. -/
def creationLogic : Logic World Call Thrown Outcome where
  inv := Orderly
  rely := Leaves
  post _ _ _ := True

theorem Leaves.refl (t : Nat) (s : System World Call) : Leaves t s s :=
  ⟨List.prefix_refl _, List.prefix_refl _, fun _ hc _ => hc⟩

theorem Leaves.trans (h : Leaves t s s') (h' : Leaves t s' s'') : Leaves t s s'' :=
  ⟨h.history.trans h'.history, h.calls.trans h'.calls,
    fun c hc hauthor => h.creations c (h'.creations c hc hauthor) hauthor⟩

/-- A property that the others leave alone. -/
abbrev Kept (t : Nat) (P : System World Call → Prop) : Prop := creationLogic.Stable t P

theorem kept_true (t : Nat) : Kept t fun _ => True := fun _ _ _ _ => trivial

theorem Kept.and (h : Kept t P) (h' : Kept t P') : Kept t fun s => P s ∧ P' s :=
  fun s s' hs hleaves => ⟨h s s' hs.1 hleaves, h' s s' hs.2 hleaves⟩

/-- What does not change the records and the creations is left alone by everybody. -/
theorem step_of_same {w : World} (hinv : Orderly s) (hs : P s) (hkept : Kept t P)
    (hhistory : w.history = s.state.history) (hcreations : w.creations = s.state.creations) :
    creationLogic.Step t s { s with state := w } ∧ P { s with state := w } := by
  have hleaves (u : Nat) : Leaves u s { s with state := w } := by
    refine ⟨hhistory ▸ List.prefix_refl _, List.prefix_refl _, fun c hc _ => ?_⟩
    exact hcreations ▸ hc
  refine ⟨⟨?_, fun u _ => hleaves u⟩, hkept s _ hs (hleaves t)⟩
  constructor
  · exact hhistory ▸ hinv.numbered
  · exact hhistory ▸ hinv.lawful
  · intro c hc
    exact hhistory ▸ hinv.opened c (hcreations ▸ hc)
  · exact hcreations ▸ hinv.once
  · intro c hc
    exact hinv.authors c (hcreations ▸ hc)

/-! ### What a call knows of the records -/

section
variable {scope id : String} {item : Plant} {revision : Nat} {document : Record Json}

/-- The record was listed in its scope. -/
def Listed (scope : String) (item : Plant) (s : System World Call) : Prop :=
  ∃ p, Was s.state.history (scope, item.id) p ∧ p.revision = item.revision ∧ p.document = item.document

theorem kept_listed (scope : String) (item : Plant) : Kept t (Listed scope item) := by
  rintro s s' ⟨p, hwas, h⟩ hleaves
  exact ⟨p, hwas.mono hleaves.history, h⟩

/-- The record that was read of a device. -/
def Read (ownerDid id : String) (found : Plant) (s : System World Call) : Prop :=
  Listed (Devices.scope ownerDid) found s ∧ found.id = id

theorem kept_read (ownerDid id : String) (found : Plant) : Kept t (Read ownerDid id found) :=
  fun s s' hs hleaves => ⟨kept_listed _ _ s s' hs.1 hleaves, hs.2⟩

/-- A listed record that is current settles the device if it is settled. -/
theorem Listed.settles_iff (h : Listed scope item s) (hinv : Orderly s)
    (hrevision : s.state.store.revision (scope, item.id) = item.revision) :
    Settles s.state.history (scope, item.id) ↔ settled item.document := by
  obtain ⟨p, hwas, hp, hdocument⟩ := h
  have hfind := hwas.current hinv.numbered (hrevision.trans hp.symm)
  rw [Settles, hfind, ← hdocument]
  exact ⟨fun ⟨q, hq, hsettled⟩ => Option.some.inj hq ▸ hsettled, fun hsettled => ⟨p, rfl, hsettled⟩⟩

/-- The record as the call has put it. -/
def stored (scope id : String) (revision : Nat) (document : Record Json) : Stored :=
  { scope, id, revision := revision + 1, document := leftOf document, publication := none }

/-- The call has put the record after the one with the revision. -/
def Committed (t : Nat) (scope id : String) (revision : Nat) (document : Record Json)
    (s : System World Call) : Prop :=
  ∃ before, before ++ [⟨stored scope id revision document, t⟩] <+: s.state.history ∧
    (recordsOf before).revision (scope, id) = revision

theorem kept_committed : Kept t (Committed t scope id revision document) := by
  rintro s s' ⟨before, hbefore, h⟩ hleaves
  exact ⟨before, hbefore.trans hleaves.history, h⟩

theorem Committed.listed (h : Committed t scope id revision document s) :
    Listed scope { id, revision := revision + 1, document := leftOf document, publication := none } s := by
  obtain ⟨before, hbefore, -⟩ := h
  refine ⟨stored scope id revision document, ⟨_, hbefore, ?_⟩, rfl, rfl⟩
  rw [recordsOf_snoc, Store.find?_put]
  exact if_pos rfl

/-- A record that settles a device after one that does not is what opens the device. -/
theorem Committed.opens (h : Committed t scope id revision document s) (hinv : Orderly s)
    (hlisted : Listed scope item s) (hid : item.id = id) (hrevision : item.revision = revision)
    (hitem : ¬ settled item.document) (hdocument : settled document) : Opens s.state.history t (scope, id) := by
  subst hid hrevision
  obtain ⟨before, hrun, hbefore⟩ := h
  have hbefore_prefix : before <+: s.state.history := (List.prefix_append _ _).trans hrun
  refine ⟨before, _, hrun, rfl, rfl, ?_, (settled_leftOf document).trans hdocument⟩
  rintro ⟨q, hq, hsettled⟩
  obtain ⟨p, hwas, hp, hpitem⟩ := hlisted
  have hrevision : q.revision = p.revision := by
    rw [hp, ← hbefore, Store.revision, hq]
    rfl
  have heq := Was.unique hinv.numbered ⟨before, hbefore_prefix, hq⟩ hwas hrevision
  rw [heq, hpitem] at hsettled
  exact hitem hsettled

/-- A put keeps the order when it keeps settled records settled. -/
theorem Orderly.committed (hinv : Orderly s) (hrevision : s.state.store.revision (scope, id) = revision)
    (hsettled : IsDevice (scope, id) → Settles s.state.history (scope, id) → settled document) :
    Orderly { s with state := s.state.committed t scope id revision document } := by
  constructor
  · change Numbered ((s.state.history ++ [_]).map Commit.plant)
    rw [List.map_append, List.map_singleton]
    refine hinv.numbered.snoc ?_
    exact congrArg (· + 1) hrevision.symm
  · refine hinv.lawful.snoc fun hdevice hsettles => ?_
    exact (settled_leftOf document).trans (hsettled hdevice hsettles)
  · exact fun c hc => (hinv.opened c hc).mono (List.prefix_append _ _)
  · exact hinv.once
  · exact hinv.authors

end

/-! ### What the others leave alone -/

/-- The call has created nothing. -/
def Fresh (t : Nat) (s : System World Call) : Prop :=
  t < s.calls.length ∧ ∀ c ∈ s.state.creations, c.author ≠ t

theorem kept_fresh (t : Nat) : Kept t (Fresh t) := by
  rintro s s' ⟨hlength, hauthors⟩ hleaves
  refine ⟨Nat.lt_of_lt_of_le hlength hleaves.calls.length_le, fun c hc hauthor => ?_⟩
  exact hauthors c (hleaves.creations c hc hauthor) hauthor

/-- The call that opened a device and has created nothing creates the device for the first time. -/
theorem Orderly.created {ownerDid id : String} (hinv : Orderly s) (hfresh : Fresh t s)
    (hopens : Opens s.state.history t (scope ownerDid, id)) :
    Orderly { s with state := { s.state with creations := s.state.creations ++ [⟨ownerDid, id, t⟩] } } := by
  constructor
  · exact hinv.numbered
  · exact hinv.lawful
  · intro c hc
    rcases List.mem_append.mp hc with hc | hc
    · exact hinv.opened c hc
    · obtain rfl := List.mem_singleton.mp hc
      exact hopens
  · change ((s.state.creations ++ [_]).map _).Nodup
    rw [List.map_append, List.map_singleton]
    refine List.nodup_append.mpr ⟨hinv.once, List.nodup_singleton _, fun a ha b hb hab => ?_⟩
    obtain ⟨c, hc, rfl⟩ := List.mem_map.mp ha
    obtain ⟨howner, hid⟩ := Prod.mk.inj (hab.trans (List.mem_singleton.mp hb))
    have hopened := hinv.opened c hc
    rw [howner, hid] at hopened
    exact hfresh.2 c hc (hopened.unique hinv.lawful ⟨ownerDid, rfl⟩ hopens)
  · intro c hc
    rcases List.mem_append.mp hc with hc | hc
    · exact hinv.authors c hc
    · obtain rfl := List.mem_singleton.mp hc
      exact hfresh.1

end

/-! ## Queries -/

/-- The query changes neither the records nor the creations. -/
def Query.IsQuiet : Query → Prop
  | put _ _ _ _ | createTwin _ _ _ _ => False
  | _ => True

theorem isQuiet_of_isPlain (q : Query) (hq : q.IsPlain) : q.IsQuiet := by
  cases q with
  | list _ | latest _ _ | outside _ => trivial
  | _ => exact hq.elim

theorem serve_of_isQuiet {q : Query} (hq : q.IsQuiet) (w : World) (call : Nat) (f : Fate) :
    (serve w call q f).2.history = w.history ∧ (serve w call q f).2.creations = w.creations := by
  cases q with
  | put _ _ _ _ => exact hq.elim
  | createTwin _ _ _ _ => exact hq.elim
  | rotateBootstrapCredentials _ _ _ _ =>
    rw [serve]
    split <;> exact ⟨rfl, rfl⟩
  | acquire _ _ =>
    rw [serve]
    split <;> exact ⟨rfl, rfl⟩
  | _ => exact ⟨rfl, rfl⟩

section
variable [Runtime] {digest : String → String} {o : Options} {t n : Nat} {P : System World Call → Prop}

/-- From where `P` holds, the program ends with `R` of its result or fails. -/
def Spec (digest : String → String) (o : Options) (t : Nat) {α : Type} (P : System World Call → Prop) (p : Act α)
    (R : α → System World Call → Prop) : Prop :=
  creationLogic.Triple (service digest o) t P p R fun _ _ => True

/-- A program with quiet queries only. -/
theorem spec_quiet {α : Type} {p : Act α} (hkept : Kept t P) (h : p.Asks Query.IsQuiet) :
    Spec digest o t P p fun _ => P := by
  refine (Logic.Triple.of_asks hkept (fun q hq s hinv hs f => ?_) h).mono (fun _ _ hs => hs) (fun _ _ hs => hs)
    fun _ _ _ => trivial
  obtain ⟨hhistory, hcreations⟩ := serve_of_isQuiet hq s.state t f
  exact step_of_same hinv hs hkept hhistory hcreations

theorem spec_plants {scope : String} (hkept : Kept t P) :
    Spec digest o t P (plants scope) fun items s => P s ∧ ∀ item ∈ items, Listed scope item s := by
  refine Logic.Triple.query hkept fun s hinv hs f => ?_
  obtain ⟨hstep, hP⟩ := step_of_same (w := s.state) hinv hs hkept rfl rfl
  refine ⟨hstep, ?_⟩
  change Logic.outcomes _ _ (if f.fails then _ else _) s
  split
  · trivial
  · refine ⟨hs, fun item hitem => ?_⟩
    obtain ⟨p, hp, rfl⟩ := List.mem_map.mp hitem
    obtain ⟨hp, hscope⟩ := List.mem_filter.mp hp
    have hkey : p.key = (scope, p.id) := Prod.ext (of_decide_eq_true hscope) rfl
    exact ⟨p, ⟨_, List.prefix_refl _, Store.find?_eq_some_iff.mpr ⟨hp, hkey⟩⟩, rfl, rfl⟩

/-- A put that keeps settled records settled. -/
theorem spec_putPlant {scope id : String} {revision : Nat} {document : Record Json} (hkept : Kept t P)
    (hsettled : ∀ s, Orderly s → P s → s.state.store.revision (scope, id) = revision → IsDevice (scope, id) →
      Settles s.state.history (scope, id) → settled document) :
    Spec digest o t P (putPlant scope id revision document) fun saved s =>
      (P s ∧ Committed t scope id revision document s) ∧
        saved = { id, revision := revision + 1, document, publication := none } := by
  refine Logic.Triple.query hkept fun s hinv hs f => ?_
  have hsame := step_of_same (w := s.state) hinv hs hkept rfl rfl
  have hcommitted (hrevision : s.state.store.revision (scope, id) = revision) :
      creationLogic.Step t s { s with state := s.state.committed t scope id revision document } ∧
      P { s with state := s.state.committed t scope id revision document } := by
    have hleaves (u : Nat) : Leaves u s { s with state := s.state.committed t scope id revision document } :=
      ⟨List.prefix_append _ _, List.prefix_refl _, fun _ hc _ => hc⟩
    exact ⟨⟨hinv.committed hrevision (hsettled s hinv hs hrevision), fun u _ => hleaves u⟩,
      hkept s _ hs (hleaves t)⟩
  change creationLogic.Step t s { s with state := (s.state.put t scope id revision document f.put).2 } ∧
    Logic.outcomes _ _ (s.state.put t scope id revision document f.put).1
      { s with state := (s.state.put t scope id revision document f.put).2 }
  cases f.put with
  | refused => exact ⟨hsame.1, trivial⟩
  | unreported =>
    refine ⟨?_, trivial⟩
    rw [World.put]
    split
    · next hrevision => exact (hcommitted hrevision).1
    · exact hsame.1
  | done =>
    rw [World.put]
    split
    · next hrevision =>
      obtain ⟨hstep, hP⟩ := hcommitted hrevision
      exact ⟨hstep, ⟨hP, s.state.history, List.prefix_refl _, hrevision⟩, rfl⟩
    · exact ⟨hsame.1, trivial⟩

theorem spec_createTwin {ownerDid id : String} {body context : Record Json} (hkept : Kept t P)
    (hopens : ∀ s, Orderly s → P s → Fresh t s ∧ Opens s.state.history t (scope ownerDid, id)) :
    Spec digest o t P (createTwin ownerDid id body context) fun _ _ => True := by
  refine Logic.Triple.query hkept fun s hinv hs f => ?_
  obtain ⟨hfresh, hopens⟩ := hopens s hinv hs
  refine ⟨⟨hinv.created hfresh hopens, fun u hu => ⟨List.prefix_refl _, List.prefix_refl _, fun c hc hauthor => ?_⟩⟩, ?_⟩
  · rcases List.mem_append.mp hc with hc | hc
    · exact hc
    · obtain rfl := List.mem_singleton.mp hc
      exact absurd hauthor.symm hu
  · change Logic.outcomes _ _ (if f.fails then _ else _) _
    split <;> trivial

/-! ## Operations -/

theorem spec_refused {α : Type} {code : String} {status : Nat} {R : α → System World Call → Prop} :
    Spec digest o t P (refused code status) R :=
  Logic.Triple.raise fun _ _ _ => trivial

theorem spec_refuseIf {c : Bool} {code : String} {status : Nat} :
    Spec digest o t P (refuseIf c code status) fun _ s => P s ∧ c = false := by
  refine Logic.Triple.done (fun _ h s _ hs => ⟨hs, ?_⟩) fun _ _ _ _ => trivial
  cases c with
  | true => cases h
  | false => rfl

theorem spec_record {context : DeviceContext} {id : String} (hkept : Kept t P) :
    Spec digest o t P (record context id) fun found s => P s ∧ Read context.ownerDid id found s := by
  refine Logic.Triple.bind (spec_plants hkept) fun items => ?_
  cases hfind : items.find? (·.id == id) with
  | none => exact spec_refused
  | some found =>
    dsimp only
    split
    · refine Logic.Triple.pure fun s _ hs => ⟨hs.1, hs.2 found (List.mem_of_find?_eq_some hfind), ?_⟩
      have heq := List.find?_some hfind
      exact eq_of_beq heq
    · exact spec_refused

theorem asks_ingest (tenantId id : String) (payload : Json) (token : Option String) (mqtt : Bool) :
    (ingest digest o n tenantId id payload token mqtt).Asks Query.IsQuiet := by
  refine Program.Asks.bind (Program.asks_done _) fun _ => ?_
  refine Program.Asks.bind (Program.asks_query trivial) fun accounting => ?_
  refine Program.Asks.bind (asks_record isQuiet_of_isPlain _ id) fun found => ?_
  iterate 6 refine Program.Asks.bind (Program.asks_done _) fun _ => ?_
  refine Program.Asks.bind (Program.asks_query trivial) fun kept => ?_
  exact Program.Asks.bind (asks_choose (asks_forward isQuiet_of_isPlain _ _ _ _)) fun _ => Program.asks_pure _

/-- A put after the record that was read, of a document that is settled if the record was. -/
theorem spec_update {ownerDid id : String} {item : Plant} {document : Record Json} (hkept : Kept t P)
    (hsettled : settled item.document → settled document) :
    Spec digest o t (fun s => P s ∧ Read ownerDid id item s) (put ownerDid id item.revision document) fun saved s =>
      ((P s ∧ Read ownerDid id item s) ∧ Committed t (scope ownerDid) id item.revision document s) ∧
        saved = { id, revision := item.revision + 1, document, publication := none } := by
  refine spec_putPlant (hkept.and (kept_read _ _ _)) fun s hinv hs hrevision _ hsettles => ?_
  obtain ⟨-, hlisted, rfl⟩ := hs
  exact hsettled ((hlisted.settles_iff hinv hrevision).mp hsettles)

/-- The work goes on whether or not the device was busy. -/
theorem spec_exclusively {α : Type} {key : String} {work : Act α} (hkept : Kept t P)
    (h : Spec digest o t P work fun _ _ => True) : Spec digest o t P (exclusively n key work) fun _ _ => True := by
  have hrelease : Spec digest o t (fun _ => True) (release n key) fun _ _ => True :=
    spec_quiet (kept_true t) (Program.asks_query trivial)
  refine Logic.Triple.bind (spec_quiet hkept (Program.asks_query trivial)) fun free => ?_
  cases free with
  | false => exact spec_refused
  | true => exact Logic.Triple.andFinally h (fun _ => hrelease) fun _ => hrelease

/-- Nothing is asked any more that could matter. -/
theorem spec_asks {α : Type} {p : Act α} (h : p.Asks Query.IsQuiet) : Spec digest o t P p fun _ _ => True :=
  (spec_quiet (kept_true t) h).weaken fun _ _ _ => trivial

theorem spec_register (context : DeviceContext) (input : Json) :
    Spec digest o t P (register digest o n context input) fun _ _ => True := by
  refine Logic.Triple.bind (spec_asks (Program.asks_done _)) fun _ => ?_
  cases nameOf input with
  | none => exact spec_refused
  | some name =>
    refine Logic.Triple.bind (spec_asks (Program.asks_done _)) fun _ => ?_
    refine Logic.Triple.bind (spec_asks (Program.asks_query trivial)) fun accounting => ?_
    cases accounting with
    | none => exact spec_refused
    | some accounting =>
      refine Logic.Triple.bind (spec_asks (asks_listDevices isQuiet_of_isPlain _)) fun devices => ?_
      refine Logic.Triple.bind (spec_asks (Program.asks_done _)) fun _ => ?_
      refine Logic.Triple.bind (spec_asks (Program.asks_query trivial)) fun uuid => ?_
      refine Logic.Triple.bind (spec_asks (Program.asks_query trivial)) fun password => ?_
      refine Logic.Triple.bind (spec_asks (Program.asks_query trivial)) fun httpToken => ?_
      refine Logic.Triple.bind (spec_quiet (kept_true t) (Program.asks_query trivial)) fun createdAt => ?_
      -- without a record before, nothing is settled
      have hnew : ∀ s, Orderly s → True → s.state.store.revision (scope context.ownerDid, "device-" ++ uuid) = 0 →
          IsDevice (scope context.ownerDid, "device-" ++ uuid) → Settles s.state.history (scope context.ownerDid, "device-" ++ uuid) →
          settled (waitingDocument digest context (trim name) httpToken createdAt accounting.tenantId
            (input.get? "encryptionPassword")) := by
        rintro s hinv - hrevision - ⟨p, hfind, -⟩
        have hpos := Was.revision_pos hinv.numbered ⟨_, List.prefix_refl _, hfind⟩
        rw [World.store, Store.revision, hfind] at hrevision
        exact absurd hrevision hpos
      refine Logic.Triple.bind (spec_putPlant (kept_true t) hnew) fun _ => ?_
      refine Logic.Triple.bind (spec_asks (asks_choose (Program.asks_query trivial))) fun _ => ?_
      refine Logic.Triple.bind (spec_record (kept_true t)) fun saved => ?_
      refine Logic.Triple.bind (spec_update (kept_true t) fun hsettled => ?_) fun _ => ?_
      · exact (settled_set (by simp) _).trans hsettled
      · exact Logic.Triple.pure fun _ _ _ => trivial

theorem spec_revoke (context : DeviceContext) (id : String) :
    Spec digest o t (fun _ => True) (revoke o n context id) fun _ _ => True := by
  refine spec_exclusively (kept_true t) ?_
  refine Logic.Triple.bind (spec_record (kept_true t)) fun found => ?_
  refine Logic.Triple.bind (spec_quiet ((kept_true t).and (kept_read _ _ _)) (Program.asks_query trivial)) fun revokedAt => ?_
  refine Logic.Triple.bind (spec_update (kept_true t) fun hsettled => ?_) fun _ => ?_
  · exact (settled_set (by simp) _).trans hsettled
  · refine Logic.Triple.bind (spec_asks (Program.asks_query trivial)) fun _ => ?_
    exact Logic.Triple.bind (spec_asks (asks_choose (Program.asks_query trivial))) fun _ => Logic.Triple.pure fun _ _ _ => trivial

omit [Runtime] in
theorem settled_assign {document : Record Json} {name : String} (hname : name ≠ "state") (v : Option Json) :
    settled (assign document name v) = settled document := by
  cases v with
  | none => exact settled_delete hname
  | some v => exact settled_set hname v

/-- After the record that the device is being created, the chain is asked once. -/
theorem spec_create {context : DeviceContext} {id name : String} {body creationContext pending : Record Json}
    {revision : Nat} (hkept : Kept t P)
    (hopens : ∀ s, Orderly s → P s → Fresh t s ∧ Opens s.state.history t (scope context.ownerDid, id)) :
    Spec digest o t P (create context id name body creationContext pending revision) fun _ _ => True := by
  refine Logic.Triple.orElse (E := fun _ _ => True) ?_ fun _ => spec_refused
  refine Logic.Triple.bind (spec_createTwin hkept hopens) fun created => ?_
  dsimp only
  cases (asString? (orElse (created.get? "twinId") (created.get? "id"))).filter ObjectId.isObjectIdText with
  | none => exact Logic.Triple.raise fun _ _ _ => trivial
  | some twinId =>
    refine Logic.Triple.bind (spec_putPlant (kept_true t) fun _ _ _ _ _ _ => ?_) fun _ => ?_
    · rw [settled_set (by simp), settled_assign (by simp), settled_assign (by simp)]
      rw [assign, settled, stateOf, Record.get?_set, if_pos rfl]
      rfl
    · exact Logic.Triple.pure fun _ _ _ => trivial

theorem spec_classifyBusy (context : DeviceContext) (id : String) (input : Json) :
    Spec digest o t (Fresh t) (classifyBusy n context id input) fun _ _ => True := by
  refine Logic.Triple.bind (spec_record (kept_fresh t)) fun found => ?_
  have hkept : Kept t fun s => Fresh t s ∧ Read context.ownerDid id found s := (kept_fresh t).and (kept_read _ _ _)
  refine Logic.Triple.bind (spec_quiet hkept (Program.asks_done _)) fun _ => ?_
  dsimp only
  split
  · exact Logic.Triple.pure fun _ _ _ => trivial
  · next hcreated =>
    split
    · exact spec_refused
    · next hcreating =>
      refine Logic.Triple.bind (spec_quiet hkept (Program.asks_query trivial)) fun samples => ?_
      cases samples.head?.join with
      | none => exact spec_refused
      | some sample =>
        refine Logic.Triple.bind (spec_quiet hkept (Program.asks_query trivial)) fun payload => ?_
        refine Logic.Triple.bind (spec_quiet hkept (Program.asks_done _)) fun signals => ?_
        cases nameOf input with
        | none => exact spec_refused
        | some name =>
          refine Logic.Triple.bind (spec_quiet hkept (Program.asks_query trivial)) fun _ => ?_
          have hsettled : settled (assign ((found.document.set "state" (.string "creating")).set "signals"
              (.array (signals.map signalJson))) "payloadPassword"
              (if truthy? (sample.value.get? "encrypted") then input.get? "password" else none)) := by
            rw [settled_assign (by simp), settled_set (by simp), settled, stateOf,
              Record.get?_set, if_pos rfl]
            rfl
          have hwaiting : ¬ settled found.document := by
            intro hsettled
            rcases Bool.or_eq_true_iff.mp hsettled with h | h
            · exact hcreating (Bool.or_eq_true_iff.mpr (.inl h))
            · exact hcreated h
          refine Logic.Triple.bind (spec_update (kept_fresh t) fun _ => hsettled) fun saved => ?_
          refine spec_create (P := fun s => _) ((hkept.and kept_committed).and fun _ _ h _ => h) fun s hinv hs => ?_
          obtain ⟨⟨⟨hfresh, hread⟩, hcommitted⟩, -⟩ := hs
          exact ⟨hfresh, hcommitted.opens hinv hread.1 hread.2 rfl hwaiting hsettled⟩

theorem spec_classify (context : DeviceContext) (id : String) (input : Json) :
    Spec digest o t (Fresh t) (classify o n context id input) fun _ _ => True :=
  Logic.Triple.bind (spec_exclusively (kept_fresh t) (spec_classifyBusy context id input)) fun _ =>
    spec_asks (asks_exportDevice isQuiet_of_isPlain context id)

theorem spec_rotate (context : DeviceContext) (id : String) (found : Plant) :
    Spec digest o t (Read context.ownerDid id found) (rotate digest o n context id found) fun _ _ => True := by
  have hkept : Kept t (Read context.ownerDid id found) := kept_read _ _ _
  refine Logic.Triple.bind (spec_quiet hkept (Program.asks_done _)) fun _ => ?_
  refine Logic.Triple.bind (spec_quiet hkept (Program.asks_query trivial)) fun password => ?_
  refine Logic.Triple.bind (spec_quiet hkept (Program.asks_query trivial)) fun httpToken => ?_
  refine Logic.Triple.bind (spec_quiet hkept (Program.asks_done _)) fun tenant => ?_
  refine Logic.Triple.bind ((spec_update (kept_true t) fun hsettled => ?_).weaken fun _ _ hs => ⟨trivial, hs⟩)
    fun pending => ?_
  · rw [settled_set (by simp), settled_set (by simp), settled_set (by simp)]
    exact hsettled
  · refine Logic.Triple.bind (spec_quiet ?_ (asks_choose (Program.asks_query trivial))) fun _ => ?_
    · exact (((kept_true t).and hkept).and kept_committed).and fun _ _ h _ => h
    · refine Logic.Triple.bind (spec_putPlant (P := fun s => _) ?_ ?_) fun _ => ?_
      · exact (((kept_true t).and hkept).and kept_committed).and fun _ _ h _ => h
      · -- the record that is current is the one that the call has put
        intro s hinv hs hrevision _ hsettles
        obtain ⟨⟨-, hcommitted⟩, rfl⟩ := hs
        have hsettled := (hcommitted.listed.settles_iff hinv hrevision).mp hsettles
        rw [settled_delete (by simp), settled_set (by simp)]
        exact (settled_leftOf _).symm.trans hsettled
      · exact Logic.Triple.bind (spec_asks (Program.asks_query trivial)) fun _ => Logic.Triple.pure fun _ _ _ => trivial

theorem spec_credentialsBusy (context : DeviceContext) (id : String) (action : CredentialAction) :
    Spec digest o t (fun _ => True) (credentialsBusy digest o n context id action) fun _ _ => True := by
  refine Logic.Triple.bind (spec_record (kept_true t)) fun found => ?_
  cases action with
  | status => exact Logic.Triple.pure fun _ _ _ => trivial
  | download =>
    dsimp only
    split
    · exact Logic.Triple.pure fun _ _ _ => trivial
    · exact spec_refused
  | rotate => exact (spec_rotate context id found).weaken fun _ _ hs => hs.2

theorem spec_legacyCredentials (context : DeviceContext) (twinId : String) (action : CredentialAction) :
    Spec digest o t (fun _ => True) (legacyCredentials o n context twinId action) fun _ _ => True := by
  refine spec_exclusively (kept_true t) ?_
  refine Logic.Triple.bind (spec_asks (Program.asks_query trivial)) fun dynamic => ?_
  split
  · cases action with
    | status => exact Logic.Triple.pure fun _ _ _ => trivial
    | download => exact spec_refused
    | rotate => exact spec_refused
  · refine Logic.Triple.bind (spec_asks (Program.asks_query trivial)) fun status => ?_
    cases status.mqttUsername.filter (· != "") with
    | none =>
      cases action with
      | status => exact Logic.Triple.pure fun _ _ _ => trivial
      | download => exact spec_refused
      | rotate => exact spec_refused
    | some username =>
      refine Logic.Triple.bind (spec_asks (Program.asks_query trivial)) fun saved => ?_
      cases action with
      | status => exact Logic.Triple.pure fun _ _ _ => trivial
      | download =>
        dsimp only
        split
        · exact Logic.Triple.pure fun _ _ _ => trivial
        · exact spec_refused
      | rotate =>
        refine Logic.Triple.bind (spec_asks (Program.asks_query trivial)) fun password => ?_
        refine Logic.Triple.bind (spec_quiet (kept_true t) (Program.asks_query trivial)) fun version => ?_
        refine Logic.Triple.bind (spec_putPlant (kept_true t) fun _ _ _ _ hdevice _ => ?_) fun _ => ?_
        · exact absurd hdevice (not_isDevice_exports _ _)
        · exact Logic.Triple.pure fun _ _ _ => trivial

theorem spec_deviceCredentials (context : DeviceContext) (twinId : String) (action : CredentialAction)
    (storageAuthority : Bool) :
    Spec digest o t P (deviceCredentials digest o n context twinId action storageAuthority) fun _ _ => True := by
  refine Logic.Triple.bind (spec_asks (asks_choose (Program.asks_query trivial))) fun verified => ?_
  refine Logic.Triple.bind (spec_asks (Program.asks_done _)) fun _ => ?_
  refine Logic.Triple.bind (spec_quiet (kept_true t) (asks_listDevices isQuiet_of_isPlain _)) fun devices => ?_
  split
  · exact spec_legacyCredentials context twinId action
  · exact spec_exclusively (kept_true t) (spec_credentialsBusy context _ action)
  · exact spec_refused

/-- The workbenches as a whole. -/
theorem creation_sound (digest : String → String) (o : Options) :
    creationLogic.Sound (service digest o) fun _ => true where
  refl := Leaves.refl
  trans := Leaves.trans
  post _ _ _ _ _ _ := trivial
  call := by
    intro s k hinv _
    have hcalls : s.calls <+: (s.called k).calls := List.prefix_append _ _
    refine ⟨⟨hinv.numbered, hinv.lawful, hinv.opened, hinv.once, fun c hc => ?_⟩, fun t => ?_⟩
    · exact Nat.lt_of_lt_of_le (hinv.authors c hc) hcalls.length_le
    · exact ⟨List.prefix_refl _, hcalls, fun _ hc _ => hc⟩
  program := by
    rintro s ⟨workbench, operation⟩ hinv -
    have hfresh : ∀ s', Orderly s' → s' = s.called ⟨workbench, operation⟩ → Fresh s.calls.length s' := by
      rintro s' - rfl
      refine ⟨by simp [System.called], fun c hc => ?_⟩
      exact Nat.ne_of_lt (hinv.authors c hc)
    cases operation with
    | register context input => exact spec_register context input
    | ingest tenantId id payload token mqtt => exact spec_asks (asks_ingest tenantId id payload token mqtt)
    | revoke context id => exact (spec_revoke context id).weaken fun _ _ _ => trivial
    | classify context id input => exact (spec_classify context id input).weaken hfresh
    | deviceCredentials context twinId action storageAuthority =>
      exact spec_deviceCredentials context twinId action storageAuthority

omit [Runtime] in
theorem orderly_start : Orderly ⟨World.empty, []⟩ where
  numbered := .nil
  lawful := by
    intro before c hbefore
    exact absurd (List.prefix_nil.mp hbefore) (by simp)
  opened := fun _ hc => absurd hc List.not_mem_nil
  once := List.nodup_nil
  authors := fun _ hc => absurd hc List.not_mem_nil

/-- Whatever the workbenches do, whenever and however it fails: a device is created once at most, and a record that says
that it is created or being created says so ever after. -/
theorem created_once (digest : String → String) (o : Options) {es es' : List (Event Call Fate Empty)} {c c' : Moment}
    (hrun : (machine digest o fun _ => true).run start es = some c)
    (hrun' : (machine digest o fun _ => true).run c es' = some c') :
    (c.shared.state.creations.map fun creation => (creation.ownerDid, creation.id)).Nodup ∧
    ∀ ownerDid id, Settles c.shared.state.history (scope ownerDid, id) →
      Settles c'.shared.state.history (scope ownerDid, id) := by
  have hV := creation_sound digest o
  have hc := hV.run orderly_start hrun
  refine ⟨hc.shared.once, fun ownerDid id hsettles => ?_⟩
  have hgrows : c.shared.state.history <+: c'.shared.state.history :=
    hV.run_rel (G := fun s s' => s.state.history <+: s'.state.history) (fun _ => List.prefix_refl _)
      (fun h h' => h.trans h') (fun h => h.history) hc hrun'
  have hinv' := hV.run_inv orderly_start ((Machine.run_append _ hrun es').trans hrun')
  exact hsettles.mono hinv'.lawful ⟨ownerDid, rfl⟩ hgrows

end

/-! ## A device that is created -/

def sampleUuid : String := "0a1b2c3d-0000-4000-8000-000000000001"

def sampleDevice : String := "device-" ++ sampleUuid

def sampleAccount : Security.AccountingContext := ⟨"acme", "customer", "did:iota:owner", "0x1"⟩

def sampleContext : DeviceContext where
  requesterDid := "did:iota:owner"
  ownerDid := "did:iota:owner"
  tenantId := none
  plantId := some "roof"
  source := .dt

def sampleOptions : Options where
  network := "testnet"
  apiUrl := "https://dt"
  mqttUrl := ""
  topicPrefix := "objectid"
  mqttEnabled := false
  verifyTwin := false
  verifyStorageTwin := false
  membership := false

def samplePayload : Json := .object [("power", .number 3)]

def sampleInput : Json :=
  .object [("name", .string "Meter"), ("signals", .array [.object [("key", .string "power"),
    ("source", .string "/power"), ("name", .string "Power"), ("unit", .string "W")]])]

/-- Nothing fails. -/
def sampleFate : Fate where
  fails := false
  put := .done
  now := 0
  uuid := ""
  created := .object [("twinId", .string (.ofList ('0' :: 'x' :: .replicate 64 '7')))]
  outside
  | .findByOwnerDid _ => .ok (some sampleAccount)
  | .tenant _ => .ok sampleAccount
  | .isDynamic _ | .verifyTwin _ _ _ => .ok false
  | .twinCredentialStatus _ _ | .rotateTwinCredentials _ _ _ _ | .revokeTwinCredentials _ _ => .error .rejection
  | .membership _ _ => .ok none
  | .decodeDevicePayload payload _ | .classifyPayload payload _ | .encodeDevicePayload payload _ => .ok payload
  | .publish _ _ _ | .prepareTwin _ _ => .ok ()
  | .randomUUID => .ok sampleUuid
  | .randomBytes => .ok "token"
  | .now => .ok "2025-01-01T00:00:00.000Z"

/-- A registration, a sample and a classification, one after the other. -/
def sampleRun : List (Event Call Fate Empty) :=
  Event.alone 0 ⟨0, .register sampleContext sampleInput⟩ (.replicate 10 sampleFate) ++
    Event.alone 1 ⟨0, .ingest "acme" sampleDevice samplePayload (some "token") false⟩ (.replicate 3 sampleFate) ++
    Event.alone 2 ⟨0, .classify sampleContext sampleDevice sampleInput⟩ (.replicate 10 sampleFate)

theorem created_once_sample :
    letI := Runtime.ascii
    ∃ c : Moment, (machine id sampleOptions fun _ => true).run start sampleRun = some c ∧
      c.shared.state.creations.length = 1 ∧
      (c.shared.state.creations.map fun creation => (creation.ownerDid, creation.id)).Nodup ∧
      ∀ ownerDid id, Settles c.shared.state.history (scope ownerDid, id) →
        Settles c.shared.state.history (scope ownerDid, id) := by
  let _ := Runtime.ascii
  have hsome : ((machine id sampleOptions fun _ => true).run start sampleRun).isSome := by decide
  have hone : ((machine id sampleOptions fun _ => true).run start sampleRun).all
      fun c => c.shared.state.creations.length == 1 := by decide
  obtain ⟨c, hrun⟩ := Option.isSome_iff_exists.mp hsome
  rw [hrun] at hone
  have hrun' : (machine id sampleOptions fun _ => true).run c [] = some c := rfl
  exact ⟨c, hrun, by simpa using hone, created_once id sampleOptions hrun hrun'⟩

end Devices
