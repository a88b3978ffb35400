-- SUMMARY: The records of devices through the history of their puts, and the programs that only read.
import TwinServer.Devices.Workbench

/-!
# Records of devices

The history of the puts says what the record of a device was at any moment. A put takes effect only after the record
that the putter has read, so what it knows of that record is what it knows of the current one.
-/

open Js Js.Json Async Plants

namespace Devices

/-- The key is one of a device. -/
def IsDevice (key : String × String) : Prop := ∃ ownerDid, key.1 = scope ownerDid

theorem not_isDevice_exports (ownerDid id : String) : ¬ IsDevice ("device-exports:" ++ ownerDid, id) := by
  rintro ⟨other, heq⟩
  have hlist := congrArg String.toList heq
  rw [scope, String.toList_append, String.toList_append] at hlist
  cases hlist

/-- Owners have scopes of their own. -/
theorem scope_injective {ownerDid other : String} (h : scope ownerDid = scope other) : ownerDid = other := by
  have hlist := congrArg String.toList h
  rw [scope, scope, String.toList_append, String.toList_append] at hlist
  exact String.toList_inj.mp (List.append_cancel_left hlist)

/-! ## Records and their history -/

section
variable {history before : List Commit} {key : String × String} {p q : Stored} {c : Commit}

/-- The record of a key at a moment of the history. -/
def Was (history : List Commit) (key : String × String) (p : Stored) : Prop :=
  ∃ before, before <+: history ∧ (recordsOf before).find? key = some p

theorem Was.mono (h : Was before key p) (hbefore : before <+: history) : Was history key p := by
  obtain ⟨earlier, hearlier, hfind⟩ := h
  exact ⟨earlier, hearlier.trans hbefore, hfind⟩

theorem recordsOf_snoc (history : List Commit) (c : Commit) :
    recordsOf (history ++ [c]) = (recordsOf history).put c.plant := by
  rw [recordsOf, List.map_append]
  exact replay_snoc _ _

theorem mem_of_find? (h : (recordsOf history).find? key = some p) :
    p ∈ history.map Commit.plant ∧ p.key = key := by
  induction history using List.reverseRecOn with
  | nil => cases h
  | append_singleton history c ih =>
    rw [recordsOf_snoc, Store.find?_put] at h
    rw [List.map_append, List.mem_append]
    split at h
    · next hkey =>
      obtain rfl := Option.some.inj h
      exact ⟨.inr (List.mem_singleton.mpr rfl), hkey.symm⟩
    · exact ⟨.inl (ih h).1, (ih h).2⟩

theorem Was.mem (h : Was history key p) : p ∈ history.map Commit.plant ∧ p.key = key := by
  obtain ⟨before, hbefore, hfind⟩ := h
  obtain ⟨hmem, hkey⟩ := mem_of_find? hfind
  exact ⟨(hbefore.map Commit.plant).subset hmem, hkey⟩

/-- A key has one record of each revision. -/
theorem Was.unique (hnumbered : Numbered (history.map Commit.plant)) (hp : Was history key p) (hq : Was history key q)
    (hrevision : p.revision = q.revision) : p = q := by
  obtain ⟨hp, hkey⟩ := hp.mem
  obtain ⟨hq, hkey'⟩ := hq.mem
  exact List.inj_on_of_nodup_map hnumbered.nodup hp hq (Prod.ext (hkey.trans hkey'.symm) hrevision)

theorem Was.revision_pos (hnumbered : Numbered (history.map Commit.plant)) (h : Was history key p) :
    p.revision ≠ 0 := by
  have hmem : p.revision ∈ ((history.map Commit.plant).filter (·.key = key)).map Stored.revision :=
    List.mem_map_of_mem (List.mem_filter.mpr ⟨h.mem.1, by simpa using h.mem.2⟩)
  rw [hnumbered.revisions, List.mem_range'_1] at hmem
  exact Nat.one_le_iff_ne_zero.mp hmem.1

/-- The record is current when the key still has its revision. -/
theorem Was.current (hnumbered : Numbered (history.map Commit.plant)) (h : Was history key p)
    (hrevision : (recordsOf history).revision key = p.revision) : (recordsOf history).find? key = some p := by
  cases hfind : (recordsOf history).find? key with
  | none =>
    rw [Store.revision, hfind] at hrevision
    exact absurd hrevision.symm (h.revision_pos hnumbered)
  | some q =>
    rw [Store.revision, hfind] at hrevision
    rw [Was.unique hnumbered ⟨history, List.prefix_refl _, hfind⟩ h hrevision]

/-- A record that was put was the record of its key. -/
theorem was_of_put (h : before ++ [c] <+: history) : Was history c.plant.key c.plant :=
  ⟨_, h, by rw [recordsOf_snoc, Store.find?_put, if_pos rfl]⟩

/-- A key without a record was never put. -/
theorem forall_ne_of_find?_eq_none (h : (recordsOf history).find? key = none) : ∀ c ∈ history, c.plant.key ≠ key := by
  induction history using List.reverseRecOn with
  | nil => exact fun c hc => by cases hc
  | append_singleton history c ih =>
    rw [recordsOf_snoc, Store.find?_put] at h
    split at h
    · cases h
    · next hne =>
      intro d hd
      rcases List.mem_append.mp hd with hd | hd
      · exact ih h d hd
      · obtain rfl := List.mem_singleton.mp hd
        exact fun heq => hne heq.symm

/-- What every put of a key keeps, of the records from a moment on. -/
theorem exists_find?_later {start : List Commit} (good : Record Json → Prop) (hstart : start <+: history)
    (hkeeps : ∀ before c, start <+: before → before ++ [c] <+: history → c.plant.key = key →
      (∃ p, (recordsOf before).find? key = some p ∧ good p.document) → good c.plant.document)
    (h : ∃ p, (recordsOf start).find? key = some p ∧ good p.document) :
    ∃ p, (recordsOf history).find? key = some p ∧ good p.document := by
  obtain ⟨rest, rfl⟩ := hstart
  induction rest using List.reverseRecOn with
  | nil => rwa [List.append_nil]
  | append_singleton rest c ih =>
    have hrun : start ++ rest ++ [c] = start ++ (rest ++ [c]) := List.append_assoc _ _ _
    obtain ⟨p, hfind, hp⟩ := ih fun before d hbefore hd =>
      hkeeps before d hbefore (hd.trans (hrun ▸ List.prefix_append _ _))
    rw [← hrun, recordsOf_snoc]
    by_cases hkey : c.plant.key = key
    · refine ⟨c.plant, by rw [Store.find?_put, if_pos hkey.symm], ?_⟩
      exact hkeeps _ c (List.prefix_append _ _) (hrun ▸ List.prefix_refl _) hkey ⟨p, hfind, hp⟩
    · exact ⟨p, by rw [Store.find?_put, if_neg fun heq => hkey heq.symm, hfind], hp⟩

end

/-! ## Programs that only read -/

/-- The query reads, and drops old samples at most. -/
def Query.IsPlain : Query → Prop
  | list _ | latest _ _ | outside _ => True
  | _ => False

section
variable {ok : Query → Prop} {o : Options} {n : Nat}

theorem asks_choose {α : Type} {c : Bool} {p : Act α} {a : α} (h : p.Asks ok) : (choose c p a).Asks ok :=
  h.ite (Program.asks_pure _)

variable (hok : ∀ q, q.IsPlain → ok q)
include hok

theorem asks_record (context : DeviceContext) (id : String) : (record context id).Asks ok := by
  refine Program.Asks.bind (Program.asks_query (hok _ trivial)) fun items => ?_
  cases items.find? (·.id == id) with
  | none => exact Program.asks_done _
  | some found => exact (Program.asks_pure _).ite (Program.asks_done _)

theorem asks_listDevices (context : DeviceContext) : (listDevices n context).Asks ok :=
  Program.Asks.bind (Program.asks_query (hok _ trivial)) fun _ =>
    Program.Asks.bind (Program.asks_query (hok _ trivial)) fun _ => Program.asks_pure _

theorem asks_exportDevice (context : DeviceContext) (id : String) : (exportDevice o context id).Asks ok := by
  refine Program.Asks.bind (asks_record hok context id) fun found => ?_
  refine Program.Asks.bind (Program.asks_done _) fun _ => ?_
  refine Program.Asks.bind (asks_choose (Program.asks_query (hok _ trivial))) fun owned => ?_
  refine Program.Asks.bind (Program.asks_done _) fun _ => ?_
  exact Program.Asks.bind (asks_choose (Program.asks_query (hok _ trivial))) fun membership => Program.asks_pure _

theorem asks_forward (tenantId id : String) (payload : Json) (document : Record Json) :
    (forward o tenantId id payload document).Asks ok :=
  Program.Asks.bind (Program.asks_query (hok _ trivial)) fun _ =>
    Program.Asks.bind (Program.asks_query (hok _ trivial)) fun _ =>
      Program.Asks.bind (asks_choose (Program.asks_query (hok _ trivial))) fun _ =>
        Program.asks_query (hok _ trivial)

end

end Devices
