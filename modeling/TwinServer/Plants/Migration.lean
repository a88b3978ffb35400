-- SUMMARY: The migration of a Twin to the personal plant of its owner: where it lands, and what it leaves alone.
import TwinServer.Base.Records
import TwinServer.Plants.Uniqueness

/-!
# Migration

`migrateTwinPlant` of `src/plants/twin-membership.ts` binds a Twin that no plant of its owner has to a node of
the owner's personal plant. The document that it writes is the previous one with a child of the tree and an
entry of `twinIds`, and the search of `locateTwinPlant` has to find the Twin there.
-/

open Js Js.Json ObjectId Sharing Thread

namespace Plants

section
variable [Services]

/-! ## The migration -/

def personalPlantId (ownerDid : String) : String := "personal-" ++ sliceTo 32 (sha256 ownerDid)

omit [Services] in
def twinLocalNodeId (twinId : String) : String := "twin-" ++ stripPrefix "0x" twinId

/-- What `migrateTwinPlant` answers: the plant that the Twin has, or the node that it gets. -/
inductive Migration where
  | preserve (existing : Membership)
  | personal (plantId nodeId ownerDid : String)

/-- The document of a personal plant that is new. -/
def personalDocument (plantId ownerDid : String) : Record Json :=
  [("ownerDid", .string ownerDid), ("tenantId", .null),
    ("tree", .object [("id", .string plantId), ("name", .string "Personal plant"), ("type", .string "site"),
      ("children", .array [])]),
    ("configs", .object []), ("twinIds", .object [])]

/-- `(children || []).filter(n => n.id !== nodeId)`. -/
def otherChildren (children : Option Json) (nodeId : String) : Except Thrown (List Json) :=
  match children.filter truthy with
  | none => .ok []
  | some (.array items) =>
    if items.any (· matches .null) then .error .type
    else .ok (items.filter fun n => !(n.get? "id").any (·.strictEq (.string nodeId)))
  | some _ => .error .type

/-- The document with the node of the Twin. -/
def withTwin (document : Record Json) (nodeId twinId : String) (name : Json) : Except Thrown (Record Json) :=
  match coalesce (document.get? "tree") none with
  | none => .error .type
  | some tree => do
    let children ← otherChildren (tree.get? "children") nodeId
    let node : Json := .object [("id", .string nodeId), ("name", name), ("type", .string "asset"),
      ("children", .array [])]
    return (document.set "tree"
        (.object (Record.set (entriesOf (some tree)) "children" (.array (children ++ [node]))))).set "twinIds"
      (.object (Record.set (entriesOf (document.get? "twinIds")) nodeId (.string twinId)))

def publicationOf : Option Publication → Json
  | none => .null
  | some p => .object [("name", .string p.name), ("coordinates", .array [.number p.longitude, .number p.latitude])]

/-- `put` of the service, without a validation: the record that it writes. -/
def Store.accept (store : Store) (scope id : String) (input : Option Json) : Except Thrown Stored := do
  let update ← checkUpdate id input
  let revision := store.revision (scope, id)
  throwIf (revision != update.revision) {
    code := "PLANT_REVISION_CONFLICT", message := "Plant revision does not match", status := 409
    category := .VALIDATION, details := [("revision", .number revision)] }
  return { scope, id, revision := update.revision + 1, document := leftOf update.document
           publication := update.publication }

variable (parse : String → Option Json)

/-- `migrateTwinPlant`: its answer, and the record that it puts, if it puts one. -/
def migrateTwinPlant (pins : Record String) (store : Store) (twinId : String) (raw : Json)
    (accounting : AccountingContext) (apply : Bool) : Except Thrown (Migration × Option Stored) := do
  match ← locateTwinPlant parse pins store twinId raw accounting with
  | some existing => return (.preserve existing, none)
  | none =>
    let f := fieldsOf raw
    let meta_ := immutableOf parse f
    throwIf (truthy? (meta_.get? "plant_id") || truthy? (meta_.get? "tenant_id") ||
        (f.get? "namespace").any (·.strictEq (.string "objectid.twinscope"))) {
      code := "PLANT_MIGRATION_RECONCILIATION_REQUIRED"
      message := "Industrial Twin has no unambiguous existing plant binding; it must not be moved to a personal plant"
      status := 409, category := .VALIDATION }
    let plantId := personalPlantId accounting.ownerDid
    let scope := personalScope accounting.ownerDid
    let nodeId := twinLocalNodeId twinId
    if apply then
      let previous := (store.list scope).find? (·.id == plantId)
      let document := previous.elim (personalDocument plantId accounting.ownerDid) (·.document)
      throwIf (!(document.get? "ownerDid").any (·.strictEq (.string accounting.ownerDid)) ||
          !(document.get? "tenantId").any (·.strictEq .null))
        (ownerMismatch "Personal plant owner mismatch" 409)
      let next ← withTwin document nodeId twinId
        (((f.get? "name").filter truthy).getD (.string twinId))
      let revision : Nat := previous.elim 0 (·.revision)
      let p ← store.accept scope plantId (some (.object [("revision", .number revision),
        ("document", .object next), ("publication", publicationOf (previous.bind (·.publication)))]))
      return (.personal plantId nodeId accounting.ownerDid, some p)
    else return (.personal plantId nodeId accounting.ownerDid, none)

/-! ## What it keeps -/

/-- The two values are objects that have the same under every other key. -/
def SameExcept (k : String) (v w : Option Json) : Prop :=
  ∃ fields fields', v = some (.object fields) ∧ w = some (.object fields') ∧
    ∀ k', k' ≠ k → Record.get? fields' k' = Record.get? fields k'

/-- `document.twinIds || {}`. -/
def twinIdsOf (document : Record Json) : Json := ((document.get? "twinIds").filter truthy).getD (.object [])

/-- A document that has got the node has the rest of its fields as before. -/
structure FieldsKept (nodeId : String) (old new : Record Json) : Prop where
  other : ∀ k, k ≠ "tree" → k ≠ "twinIds" → new.get? k = old.get? k
  tree : SameExcept "children" (old.get? "tree") (new.get? "tree")
  twinIds : SameExcept nodeId (some (twinIdsOf old)) (new.get? "twinIds")

/-- A plant of the store binds the node to the Twin. -/
def Store.Binds (store : Store) (key : String × String) (node id : String) : Prop :=
  ∃ q, store.find? key = some q ∧ Bound q.document node id

/-- The Twin has got a node of the personal plant by the record: it is found there, it is not migrated again, and
nothing else has changed. -/
structure Migrated (pins : Record String) (store : Store) (twinId : String) (raw : Json)
    (accounting : AccountingContext) (plantId nodeId : String) (p : Stored) : Prop where
  personal : p.key = (personalScope accounting.ownerDid, plantId)
  located : ∃ m, locateTwinPlant parse pins (store.put p) twinId raw accounting = .ok (some m) ∧
    m.plantId = plantId ∧ m.tenantId = none ∧ m.nodeId = .string nodeId
  again : ∀ apply, ∃ m, migrateTwinPlant parse pins (store.put p) twinId raw accounting apply = .ok (.preserve m, none)
  bindings : ∀ id, id ≠ twinId → ∀ key node, (store.put p).Binds key node id ↔ store.Binds key node id
  others : ∀ key, key ≠ p.key → (store.put p).find? key = store.find? key
  fields : ∀ q, store.find? p.key = some q → FieldsKept nodeId q.document p.document ∧ p.publication = q.publication
  dry : ∀ r, migrateTwinPlant parse pins store twinId raw accounting false = .ok r → r.2 = none

/-- The personal plant has room for the node: its tree and its bindings are objects, and the node is bound to no
Twin. -/
structure Roomy (nodeId : String) (document : Record Json) : Prop where
  tree : ∃ fields, document.get? "tree" = some (.object fields)
  twinIds : ∃ fields, twinIdsOf document = .object fields
  free : ∀ id, ¬ Bound document nodeId id

variable {parse} {pins : Record String} {store : Store} {twinId : String} {raw : Json} {accounting : AccountingContext}
  {plantId nodeId ownerDid : String} {p : Stored} {document next : Record Json} {name : Json}

/-! ## What a migration does -/

omit [Services] in
theorem withTwin_eq_ok (h : withTwin document nodeId twinId name = .ok next) :
    ∃ tree children, document.get? "tree" = some tree ∧
      next = (document.set "tree" (.object (Record.set (entriesOf (some tree)) "children" (.array children)))).set
        "twinIds" (.object (Record.set (entriesOf (document.get? "twinIds")) nodeId (.string twinId))) := by
  rw [withTwin] at h
  split at h
  · cases h
  · rename_i tree htree
    obtain ⟨children, -, h⟩ := Except.bind_eq_ok.mp h
    obtain rfl := Except.pure_eq_ok.mp h
    refine ⟨tree, _, ?_, rfl⟩
    cases hget : document.get? "tree" with
    | none => simp [hget, coalesce] at htree
    | some v => cases v <;> simp_all [coalesce]

omit [Services] in
theorem publication_eq_of_ok {o o' : Option Publication} (h : publication (some (publicationOf o)) = .ok o') : o' = o := by
  cases o with
  | none => exact (Except.ok.inj h).symm
  | some p =>
      have hkeys (v w : Json) : exactKeys [("name", v), ("coordinates", w)] ["name", "coordinates"] := rfl
      simp only [publicationOf, publication, hkeys, if_true] at h
      split at h
      · rename_i longitude latitude hname hcoordinates
        simp only [Record.get?_cons, String.reduceEq, if_true, if_false, Option.some.injEq, Json.string.injEq,
          Json.array.injEq, List.cons.injEq, Json.number.injEq] at hname hcoordinates
        obtain ⟨rfl, rfl, -⟩ := hcoordinates
        subst hname
        split at h
        · exact (Except.ok.inj h).symm
        · cases h
      · cases h

omit [Services] in
theorem checkUpdate_publication {id : String} {fields : Record Json} {update : Update}
    (h : checkUpdate id (some (.object fields)) = .ok update) :
    publication (fields.get? "publication") = .ok update.publication := by
  rw [checkUpdate] at h
  split at h
  · split at h
    · split at h
      · obtain ⟨o, ho, h⟩ := Except.bind_eq_ok.mp h
        obtain rfl := Except.pure_eq_ok.mp h
        exact ho
      · cases h
    · cases h
  · cases h

omit [Services] in
theorem accept_eq_ok {scope id : String} {revision : Nat} {o : Option Publication}
    (h : store.accept scope id (some (.object [("revision", .number revision), ("document", .object next),
      ("publication", publicationOf o)])) = .ok p) :
    p.key = (scope, id) ∧ p.document = leftOf next ∧ p.publication = o := by
  obtain ⟨update, hupdate, h⟩ := Except.bind_eq_ok.mp h
  obtain ⟨-, h⟩ := Except.check_bind_eq_ok.mp h
  obtain rfl := Except.pure_eq_ok.mp h
  have hdocument : next = update.document := by
    simpa [Json.get?, Record.get?_cons] using checkUpdate_document hupdate
  have hpublication : update.publication = o := by
    apply publication_eq_of_ok
    simpa [Record.get?_cons] using checkUpdate_publication hupdate
  exact ⟨rfl, by rw [hdocument], hpublication⟩

omit [Services] in
/-- The record of a key is the one that is listed under its scope. -/
theorem Store.find?_list (store : Store) (scope id : String) :
    (store.list scope).find? (·.id == id) = store.find? (scope, id) := by
  rw [Store.list, List.find?_filter, Store.find?]
  congr 1
  funext q
  rw [Bool.eq_iff_iff]
  simp [Stored.key, Prod.ext_iff]

/-- The document that a migration starts from. -/
def documentBefore (store : Store) (plantId ownerDid : String) : Record Json :=
  (store.find? (personalScope ownerDid, plantId)).elim (personalDocument plantId ownerDid) (·.document)

/-- What a migration does when it puts a record. -/
theorem migrateTwinPlant_eq_ok (h : migrateTwinPlant parse pins store twinId raw accounting true =
    .ok (.personal plantId nodeId ownerDid, some p)) :
    locateTwinPlant parse pins store twinId raw accounting = .ok none ∧
      p.key = (personalScope accounting.ownerDid, plantId) ∧
      p.publication = (store.find? p.key).bind (·.publication) ∧
      (documentBefore store plantId accounting.ownerDid).get? "ownerDid" = some (.string accounting.ownerDid) ∧
      plantId = personalPlantId accounting.ownerDid ∧ nodeId = twinLocalNodeId twinId ∧ ∃ name next,
        withTwin (documentBefore store plantId accounting.ownerDid) nodeId twinId name = .ok next ∧
          p.document = leftOf next := by
  obtain ⟨located, hlocated, h⟩ := Except.bind_eq_ok.mp h
  cases located with
  | some existing => cases h
  | none =>
      obtain ⟨-, h⟩ := Except.check_bind_eq_ok.mp h
      simp only [if_true, Store.find?_list] at h
      obtain ⟨hown, h⟩ := Except.check_bind_eq_ok.mp h
      obtain ⟨next, hnext, h⟩ := Except.bind_eq_ok.mp h
      obtain ⟨p', hp', h⟩ := Except.bind_eq_ok.mp h
      have hpair := Except.pure_eq_ok.mp h
      simp only [Prod.mk.injEq, Migration.personal.injEq, Option.some.injEq] at hpair
      obtain ⟨⟨rfl, rfl, rfl⟩, rfl⟩ := hpair
      obtain ⟨hkey, hdocument, hpublication⟩ := accept_eq_ok hp'
      refine ⟨hlocated, hkey, hkey ▸ hpublication, ?_, rfl, rfl, _, next, hnext, hdocument⟩
      have howned := throwIf_eq_ok.mp hown
      rw [Bool.or_eq_false_iff, Bool.not_eq_false', Bool.not_eq_false', Option.any_eq_true] at howned
      obtain ⟨v, hv, hstrict⟩ := howned.1
      rw [strictEq_string_iff.mp hstrict] at hv
      exact hv

/-! ## Where the Twin is found -/

omit [Services] in
theorem Store.list_put_of_ne {scope : String} (h : p.scope ≠ scope) : (store.put p).list scope = store.list scope := by
  rw [Store.list, Store.put, List.filter_append, List.filter_filter, Store.list]
  rw [List.filter_cons_of_neg (by simpa using h), List.filter_nil, List.append_nil]
  apply List.filter_congr
  intro q _
  by_cases hq : q.scope = scope
  · have hkey : q.key ≠ p.key := fun hkey => h ((congrArg Prod.fst hkey).symm.trans hq)
    simp [hq, hkey]
  · simp [hq]

omit [Services] in
theorem Store.list_put (p : Stored) : (store.put p).list p.scope = (store.list p.scope).filter (·.key ≠ p.key) ++ [p] := by
  rw [Store.list, Store.put, List.filter_append, Store.list, List.filter_comm, List.filter_cons_of_pos (by simp),
    List.filter_nil]

omit [Services] in
/-- The plants of an owner after a put to his personal scope: those that were there before, and the new record
at the end. -/
theorem ownerPlants_put {plants : List OwnedPlant} (hpins : pins.get? (personalScope ownerDid) = none)
    (h : ownerPlants pins store ownerDid = .ok plants) (hscope : p.scope = personalScope ownerDid)
    (hown : ownedByOther p.document ownerDid = false) :
    ∃ before, before ⊆ plants ∧ ownerPlants pins (store.put p) ownerDid = .ok (before ++ [⟨p, none⟩]) := by
  let tenants := (pins.entries.filter (·.2 = ownerDid)).map Prod.fst
  let own (q : Stored) : OwnedPlant := ⟨q, if isPersonal q.scope then none else some q.scope⟩
  have htenants : tenants.flatMap (store.put p).list = tenants.flatMap store.list := by
    apply List.flatMap_congr
    intro scope htenant
    obtain ⟨e, he, rfl⟩ := List.mem_map.mp htenant
    apply Store.list_put_of_ne
    intro hsame
    have hget := Record.mem_entries.mp (List.mem_filter.mp he).1
    rw [← hsame, hscope, hpins] at hget
    cases hget
  have hlist : (ownerScopes pins ownerDid).flatMap (store.put p).list =
      tenants.flatMap store.list ++ ((store.list (personalScope ownerDid)).filter (·.key ≠ p.key) ++ [p]) := by
    rw [ownerScopes, List.flatMap_append, List.flatMap_singleton, htenants, ← hscope, Store.list_put]
  have hold : (ownerScopes pins ownerDid).flatMap store.list =
      tenants.flatMap store.list ++ store.list (personalScope ownerDid) := by
    rw [ownerScopes, List.flatMap_append, List.flatMap_singleton]
  unfold ownerPlants at h ⊢
  dsimp only at h ⊢
  rw [hold] at h
  rw [hlist]
  split at h
  · cases h
  · rename_i hany
    obtain rfl := Except.ok.inj h
    rw [List.any_eq_true] at hany
    refine ⟨(tenants.flatMap store.list ++ (store.list (personalScope ownerDid)).filter (·.key ≠ p.key)).map own, ?_, ?_⟩
    · apply List.map_subset
      apply List.append_subset.mpr
      exact ⟨List.subset_append_left _ _, fun q hq => List.mem_append_right _ (List.mem_of_mem_filter hq)⟩
    · rw [if_neg]
      · rw [← List.append_assoc, List.map_append]
        have hpersonal : isPersonal p.scope = true := by
          simp [hscope, isPersonal, personalScope, startsWith]
        simp only [List.map_cons, List.map_nil, hpersonal, if_true]
        rfl
      · intro hother
        obtain ⟨q, hq, howned⟩ := List.any_eq_true.mp hother
        rcases List.mem_append.mp hq with hq | hq
        · exact hany ⟨q, List.mem_append_left _ hq, howned⟩
        · rcases List.mem_append.mp hq with hq | hq
          · exact hany ⟨q, List.mem_append_right _ (List.mem_of_mem_filter hq), howned⟩
          · obtain rfl := List.mem_singleton.mp hq
            rw [hown] at howned
            cases howned

/-- A Twin that is found nowhere is bound nowhere. -/
theorem locateTwinPlant_eq_none (h : locateTwinPlant parse pins store twinId raw accounting = .ok none) :
    assertTwinOwner (fieldsOf raw) accounting = .ok () ∧
      ∃ plants, ownerPlants pins store accounting.ownerDid = .ok plants ∧
        ∀ q ∈ plants, nodesOf q.plant.document twinId = [] := by
  obtain ⟨howner, h⟩ := Except.check_bind_eq_ok.mp h
  obtain ⟨plants, hplants, h⟩ := Except.bind_eq_ok.mp h
  obtain ⟨-, h⟩ := Except.check_bind_eq_ok.mp h
  obtain ⟨-, h⟩ := Except.check_bind_eq_ok.mp h
  refine ⟨howner, plants, hplants, fun q hq => ?_⟩
  have hempty := List.head?_eq_none_iff.mp (Except.pure_eq_ok.mp h)
  -- neither the operational plants nor the others match
  have hmatching : (plants.filterMap fun p => (nodesOf p.plant.document twinId).head?.map fun node =>
      membership (immutableOf parse (fieldsOf raw)) accounting.ownerDid p (some node)) = [] := by
    split at hempty
    · rename_i hoperational
      rw [hempty] at hoperational
      cases hoperational
    · split at hempty
      · exact hempty
      · rename_i hnone
        simpa using hnone
  have hnone := List.filterMap_eq_nil_iff.mp hmatching q hq
  rw [Option.map_eq_none_iff, List.head?_eq_none_iff] at hnone
  exact hnone

/-- A Twin that one plant of the owner binds, by one node, is found there. -/
theorem locateTwinPlant_append {before : List OwnedPlant} {own : OwnedPlant} (htenant : own.tenantId = none)
    (howner : assertTwinOwner (fieldsOf raw) accounting = .ok ())
    (hplants : ownerPlants pins store accounting.ownerDid = .ok (before ++ [own]))
    (hbefore : ∀ q ∈ before, nodesOf q.plant.document twinId = []) 
    (hnodes : nodesOf own.plant.document twinId = [nodeId]) :
    locateTwinPlant parse pins store twinId raw accounting =
      .ok (some (membership (immutableOf parse (fieldsOf raw)) accounting.ownerDid own (some nodeId))) := by
  let m := membership (immutableOf parse (fieldsOf raw)) accounting.ownerDid own (some nodeId)
  have hmatching : ((before ++ [own]).filterMap fun p => (nodesOf p.plant.document twinId).head?.map fun node =>
      membership (immutableOf parse (fieldsOf raw)) accounting.ownerDid p (some node)) = [m] := by
    have hnone : (before.filterMap fun p => (nodesOf p.plant.document twinId).head?.map fun node =>
        membership (immutableOf parse (fieldsOf raw)) accounting.ownerDid p (some node)) = [] := by
      apply List.filterMap_eq_nil_iff.mpr
      intro q hq
      rw [hbefore q hq]
      rfl
    rw [List.filterMap_append, hnone, List.nil_append]
    simp only [List.filterMap_cons, hnodes, List.head?_cons, Option.map_some, List.filterMap_nil]
    rfl
  have hsingle : (before ++ [own]).any (fun p => 1 < (nodesOf p.plant.document twinId).length) = false := by
    apply List.any_eq_false.mpr
    intro q hq
    rcases List.mem_append.mp hq with hq | hq
    · simp [hbefore q hq]
    · obtain rfl := List.mem_singleton.mp hq
      simp [hnodes]
  unfold locateTwinPlant
  dsimp only
  rw [howner, hplants]
  have hoperational : [m].filter (·.tenantId.isSome) = [] := by
    simp [m, membership, htenant]
  simp only [bind, Except.bind, hsingle, hmatching, hoperational]
  rfl

/-! ## What the record binds -/

omit [Services] in
/-- The record binds the node to the Twin, and the other nodes as before. -/
theorem bound_withTwin {node id : String} (h : withTwin document nodeId twinId name = .ok next) :
    Bound (leftOf next) node id ↔ if node = nodeId then id = twinId else Bound document node id := by
  obtain ⟨tree, children, -, rfl⟩ := withTwin_eq_ok h
  rw [Bound, twinEntries, get?_leftOf, Record.get?_set, if_pos rfl, Option.map_some, written, entriesOf,
    Record.mem_entries]
  change (leftOf _).get? node = _ ↔ _
  rw [get?_leftOf, Record.get?_set]
  split
  · simp [written, eq_comm]
  · simp only [Option.map_eq_some_iff, written_eq_string, exists_eq_right]
    exact Record.get?_eq_some_iff_mem (nodup_twinEntries document)

omit [Services] in
theorem nodesOf_withTwin (h : withTwin document nodeId twinId name = .ok next)
    (hfree : nodesOf document twinId = []) : nodesOf (leftOf next) twinId = [nodeId] := by
  have hnodup : (nodesOf (leftOf next) twinId).Nodup :=
    (nodup_twinEntries (leftOf next)).sublist (List.filter_sublist.map _)
  refine List.perm_singleton.mp ((List.perm_ext_iff_of_nodup hnodup (List.nodup_singleton _)).mpr fun node => ?_)
  rw [mem_nodesOf, bound_withTwin h, List.mem_singleton]
  by_cases hnode : node = nodeId
  · simp [hnode]
  · simp only [hnode, if_false, iff_false]
    intro hbound
    rw [← mem_nodesOf, hfree] at hbound
    cases hbound

/-! ## What the fields keep -/

omit [Services] in
/-- The documents of the store are what texts of JSON have left. -/
def Store.Readable (store : Store) : Prop := ∀ q ∈ store.records, leftOf q.document = q.document

omit [Services] in
theorem get?_of_leftOf {d : Record Json} (h : leftOf d = d) (k : String) : (d.get? k).map written = d.get? k := by
  rw [← get?_leftOf, h]

omit [Services] in
/-- A put of what a text has left keeps the store so. -/
theorem Store.Readable.put (hs : store.Readable) (hp : p.document = leftOf document) : (store.put p).Readable := by
  intro q hq
  rcases Store.mem_put.mp hq with ⟨hq, -⟩ | rfl
  · exact hs q hq
  · rw [hp, leftOf_leftOf]

omit [Services] in
/-- What is left of an object with one key set is, under the other keys, what was there. -/
theorem sameExcept_set {fields : Record Json} {k : String} {v : Json} (h : written (.object fields) = .object fields) :
    SameExcept k (some (.object fields)) (some (written (.object (Record.set fields.entries k v)))) := by
  refine ⟨fields, _, rfl, rfl, fun k' hk' => ?_⟩
  change (leftOf _).get? k' = _
  rw [get?_leftOf, Record.get?_set, if_neg hk', Record.get?_entries, get?_of_leftOf (Json.object.inj h)]

omit [Services] in
/-- Bindings that are an object, or that are missing or falsy. -/
theorem of_twinIdsOf {fields : Record Json} (h : twinIdsOf document = .object fields) :
    entriesOf (document.get? "twinIds") = fields.entries ∧
      (document.get? "twinIds" = some (.object fields) ∨ fields = []) := by
  rw [twinIdsOf] at h
  cases hv : document.get? "twinIds" with
  | none =>
      rw [hv] at h
      obtain rfl := Json.object.inj h
      exact ⟨rfl, .inr rfl⟩
  | some v =>
      rw [hv, Option.filter_some] at h
      cases htruthy : v.truthy with
      | true =>
          simp only [htruthy, if_true, Option.getD_some] at h
          subst h
          exact ⟨rfl, .inl rfl⟩
      | false =>
          simp only [htruthy, Bool.false_eq_true, if_false, Option.getD_none] at h
          obtain rfl := Json.object.inj h
          refine ⟨?_, .inr rfl⟩
          cases v with
          | string s =>
              obtain rfl : s = "" := by simpa [truthy] using htruthy
              rfl
          | array items => cases htruthy
          | object fields => cases htruthy
          | _ => rfl

omit [Services] in
theorem fieldsKept_withTwin (h : withTwin document nodeId twinId name = .ok next) (hread : leftOf document = document)
    (htree : ∃ fields, document.get? "tree" = some (.object fields))
    (htwinIds : ∃ fields, twinIdsOf document = .object fields) : FieldsKept nodeId document (leftOf next) := by
  obtain ⟨tree, children, hget, rfl⟩ := withTwin_eq_ok h
  refine ⟨fun k htree htwinIds => ?_, ?_, ?_⟩
  · rw [get?_leftOf, Record.get?_set, if_neg htwinIds, Record.get?_set, if_neg htree, get?_of_leftOf hread]
  · obtain ⟨fields, hfields⟩ := htree
    obtain rfl := Option.some.inj (hget.symm.trans hfields)
    rw [get?_leftOf, Record.get?_set, if_neg (by decide), Record.get?_set, if_pos rfl, Option.map_some, hfields]
    apply sameExcept_set
    have hsame := get?_of_leftOf hread "tree"
    rw [hfields] at hsame
    exact Option.some.inj hsame
  · obtain ⟨fields, hfields⟩ := htwinIds
    obtain ⟨hentries, hcase⟩ := of_twinIdsOf hfields
    rw [get?_leftOf, Record.get?_set, if_pos rfl, Option.map_some, hfields, hentries]
    apply sameExcept_set
    rcases hcase with hsome | rfl
    · have hsame := get?_of_leftOf hread "twinIds"
      rw [hsome] at hsame
      exact Option.some.inj hsame
    · rfl

/-! ## Exactness -/

omit [Services] in
theorem mem_ownerPlants_personal {plants : List OwnedPlant} (h : ownerPlants pins store ownerDid = .ok plants) {q : Stored}
    (hq : q ∈ store.records) (hscope : q.scope = personalScope ownerDid) : ⟨q, none⟩ ∈ plants := by
  unfold ownerPlants at h
  dsimp only at h
  split at h
  · cases h
  · obtain rfl := Except.ok.inj h
    have hpersonal : isPersonal q.scope = true := by
      simp [hscope, isPersonal, personalScope, startsWith]
    refine List.mem_map.mpr ⟨q, List.mem_flatMap.mpr ⟨q.scope, ?_, by simpa [Store.list] using hq⟩, by simp [hpersonal]⟩
    rw [hscope]
    exact List.mem_append_right _ List.mem_cons_self

/-- A Twin that is found nowhere is not bound by the document that its migration starts from. -/
theorem nodesOf_documentBefore (h : locateTwinPlant parse pins store twinId raw accounting = .ok none) :
    nodesOf (documentBefore store plantId accounting.ownerDid) twinId = [] := by
  obtain ⟨-, plants, hplants, hnodes⟩ := locateTwinPlant_eq_none h
  rw [documentBefore]
  cases hfind : store.find? (personalScope accounting.ownerDid, plantId) with
  | none => rfl
  | some q =>
      obtain ⟨hq, hkey⟩ := Store.find?_eq_some_iff.mp hfind
      exact hnodes _ (mem_ownerPlants_personal hplants hq (congrArg Prod.fst hkey))

theorem located_put (hpins : pins.get? (personalScope accounting.ownerDid) = none)
    (h : migrateTwinPlant parse pins store twinId raw accounting true = .ok (.personal plantId nodeId ownerDid, some p)) :
    ∃ m, locateTwinPlant parse pins (store.put p) twinId raw accounting = .ok (some m) ∧
      m.plantId = plantId ∧ m.tenantId = none ∧ m.nodeId = .string nodeId := by
  obtain ⟨hlocated, hkey, -, hown, -, hnode, name, next, hnext, hdocument⟩ := migrateTwinPlant_eq_ok h
  obtain ⟨howner, plants, hplants, hnodes⟩ := locateTwinPlant_eq_none hlocated
  have hother : ownedByOther p.document accounting.ownerDid = false := by
    have hget : p.document.get? "ownerDid" = some (.string accounting.ownerDid) := by
      obtain ⟨tree, children, -, rfl⟩ := withTwin_eq_ok hnext
      rw [hdocument, get?_leftOf, Record.get?_set, if_neg (by decide), Record.get?_set, if_neg (by decide), hown]
      rfl
    simp [ownedByOther, hget, strictEq_string_iff]
  obtain ⟨before, hbefore, hafter⟩ := ownerPlants_put hpins hplants (congrArg Prod.fst hkey) hother
  have hone : nodesOf p.document twinId = [nodeId] := by
    rw [hdocument]
    exact nodesOf_withTwin hnext (nodesOf_documentBefore hlocated)
  refine ⟨_, locateTwinPlant_append rfl howner hafter (fun q hq => hnodes q (hbefore hq)) hone, ?_, rfl, ?_⟩
  · exact congrArg Prod.snd hkey
  · have hne : nodeId ≠ "" := by
      rw [hnode, twinLocalNodeId]
      intro hempty
      simpa [String.toList_append] using congrArg String.toList hempty
    simp [membership, Option.filter_some, hne]

/-- The personal plant of a migration that leaves the rest alone had room for the node. -/
theorem roomy_of_migrated
    (h : migrateTwinPlant parse pins store twinId raw accounting true = .ok (.personal plantId nodeId ownerDid, some p))
    (hm : Migrated parse pins store twinId raw accounting plantId nodeId p) {q : Stored}
    (hq : store.find? (personalScope accounting.ownerDid, plantId) = some q) : Roomy nodeId q.document := by
  obtain ⟨hlocated, hkey, -, -, -, -, name, next, hnext, hdocument⟩ := migrateTwinPlant_eq_ok h
  have hfields := (hm.fields q (hkey ▸ hq)).1
  obtain ⟨tree, -, htree, -⟩ := hfields.tree
  obtain ⟨twinIds, -, htwinIds, -⟩ := hfields.twinIds
  refine ⟨⟨tree, htree⟩, ⟨twinIds, Option.some.inj htwinIds⟩, fun id hbound => ?_⟩
  have hbefore : documentBefore store plantId accounting.ownerDid = q.document := by
    rw [documentBefore, hq]
    rfl
  -- the node would have been bound to another Twin, and is bound to this one now
  have hne : id ≠ twinId := by
    rintro rfl
    have hmem := mem_nodesOf.mpr hbound
    rw [← hbefore, nodesOf_documentBefore hlocated] at hmem
    cases hmem
  obtain ⟨q', hfind, hbound'⟩ := (hm.bindings id hne p.key nodeId).mpr ⟨q, hkey ▸ hq, hbound⟩
  rw [Store.find?_put, if_pos rfl] at hfind
  obtain rfl := Option.some.inj hfind
  rw [hdocument, bound_withTwin hnext, if_pos rfl] at hbound'
  exact hne hbound'

omit [Services] in
/-- What the store binds at the personal plant is what the document binds that a migration starts from. -/
theorem binds_personal {node id : String} : store.Binds (personalScope ownerDid, plantId) node id ↔
    Bound (documentBefore store plantId ownerDid) node id := by
  rw [Store.Binds, documentBefore]
  cases hfind : store.find? (personalScope ownerDid, plantId) with
  | none =>
      have hnone : ¬ Bound (personalDocument plantId ownerDid) node id := fun h => by cases h
      simpa using hnone
  | some q => simp

omit [Services] in
theorem binds_put {node id : String} : (store.put p).Binds p.key node id ↔ Bound p.document node id := by
  simp [Store.Binds, Store.find?_put]

/-- A migration is as it should be just when the personal plant has room for the node. -/
theorem migrated_iff (hpins : pins.get? (personalScope accounting.ownerDid) = none) (hread : store.Readable)
    (h : migrateTwinPlant parse pins store twinId raw accounting true = .ok (.personal plantId nodeId ownerDid, some p)) :
    Migrated parse pins store twinId raw accounting plantId nodeId p ↔
      ∀ q, store.find? (personalScope accounting.ownerDid, plantId) = some q → Roomy nodeId q.document := by
  refine ⟨fun hm q hq => roomy_of_migrated h hm hq, fun hroomy => ?_⟩
  obtain ⟨hlocated, hkey, hpublication, -, -, -, name, next, hnext, hdocument⟩ := migrateTwinPlant_eq_ok h
  have hfound := located_put hpins h
  refine ⟨hkey, hfound, fun apply => ?_, fun id hne key node => ?_, fun key hne => ?_, fun q hq => ?_, fun r hr => ?_⟩
  · obtain ⟨m, hm, -⟩ := hfound
    refine ⟨m, ?_⟩
    rw [migrateTwinPlant, hm]
    rfl
  · by_cases hsame : key = p.key
    · subst hsame
      rw [binds_put, hdocument, bound_withTwin hnext, hkey, binds_personal]
      split
      · -- the node was free
        rename_i hnode
        subst hnode
        refine iff_of_false hne fun hbound => ?_
        obtain ⟨q, hq, hbound⟩ := binds_personal.mpr hbound
        exact (hroomy q hq).free id hbound
      · rfl
    · rw [Store.Binds, Store.find?_put, if_neg hsame, Store.Binds]
  · rw [Store.find?_put, if_neg hne]
  · have hbefore : documentBefore store plantId accounting.ownerDid = q.document := by
      rw [documentBefore, ← hkey, hq]
      rfl
    obtain ⟨htree, htwinIds, -⟩ := hroomy q (hkey ▸ hq)
    rw [hbefore] at hnext
    rw [hdocument, hpublication, hq]
    exact ⟨fieldsKept_withTwin hnext (hread q (Store.find?_eq_some_iff.mp hq).1) htree htwinIds, rfl⟩
  · rw [migrateTwinPlant, hlocated] at hr
    obtain ⟨-, hr⟩ := Except.check_bind_eq_ok.mp hr
    obtain rfl := Except.pure_eq_ok.mp hr
    rfl

end

/-! ## A node that is bound -/

/-- The answer of a migration that puts a record. -/
def putOf : Except Thrown (Migration × Option Stored) → Option (String × String × String × Stored)
  | .ok (.personal plantId nodeId ownerDid, some p) => some (plantId, nodeId, ownerDid, p)
  | _ => none

theorem eq_of_putOf {r : Except Thrown (Migration × Option Stored)} {plantId nodeId ownerDid : String} {p : Stored}
    (h : putOf r = some (plantId, nodeId, ownerDid, p)) : r = .ok (.personal plantId nodeId ownerDid, some p) := by
  unfold putOf at h
  split at h
  · simp only [Option.some.injEq, Prod.mk.injEq] at h
    obtain ⟨rfl, rfl, rfl, rfl⟩ := h
    rfl
  · cases h

/-- The Twin of the sample, owned by the account. -/
def sampleTwinObject : Json :=
  .object [("fields", .object [("owner_did", .string sampleAccounting.ownerDid),
    ("subscription_id", .string sampleAccounting.subscriptionId), ("name", .string "Machine")])]

/-- The owner has a personal plant with one binding. -/
def personalStore (node twinId : String) : Store where
  records := [{
    scope := personalScope sampleAccounting.ownerDid, id := "personal-", revision := 1
    document := (personalDocument "personal-" sampleAccounting.ownerDid).set "twinIds" (.object [(node, .string twinId)])
    publication := none }]
  keyed := List.nodup_singleton _

theorem readable_personalStore (node twinId : String) : (personalStore node twinId).Readable := by
  intro q hq
  obtain rfl := List.mem_singleton.mp hq
  rfl

/-- The node of a Twin that is migrated is taken from another one. -/
theorem migration_takes_node :
    ¬ ∀ [Services] (parse : String → Option Json) (pins : Record String) (store : Store) (twinId : String) (raw : Json)
        (accounting : AccountingContext) (plantId nodeId ownerDid : String) (p : Stored),
      pins.get? (personalScope accounting.ownerDid) = none → store.Readable →
      migrateTwinPlant parse pins store twinId raw accounting true = .ok (.personal plantId nodeId ownerDid, some p) →
      Migrated parse pins store twinId raw accounting plantId nodeId p := by
  intro hall
  let _ := Services.plain
  let store := personalStore (twinLocalNodeId (objectId 'a')) (objectId 'b')
  cases hput : putOf (migrateTwinPlant (fun _ => some (.object [])) samplePins store (objectId 'a') sampleTwinObject
      sampleAccounting true) with
  | none =>
      have hsome : (putOf (migrateTwinPlant (fun _ => some (.object [])) samplePins store (objectId 'a')
        sampleTwinObject sampleAccounting true)).isSome = true := by decide
      rw [hput] at hsome
      cases hsome
  | some r =>
      obtain ⟨plantId, nodeId, ownerDid, p⟩ := r
      have h := eq_of_putOf hput
      have hm := hall _ _ _ _ _ _ _ _ _ _ (by decide) (readable_personalStore _ _) h
      obtain ⟨-, -, -, -, hplant, hnode, -⟩ := migrateTwinPlant_eq_ok h
      have hplant' : plantId = "personal-" := hplant.trans (by decide)
      have hroomy := roomy_of_migrated h hm (q := store.records.head (List.cons_ne_nil _ _)) (by rw [hplant']; rfl)
      apply hroomy.free (objectId 'b')
      rw [hnode]
      exact List.mem_cons_self

/-- A Twin is migrated to a personal plant that binds another one to its own node. -/
theorem migrated_iff_free :
    let _ : Services := Services.plain
    ∃ plantId nodeId p, Migrated (fun _ => some (.object [])) samplePins
      (personalStore (twinLocalNodeId (objectId 'b')) (objectId 'b')) (objectId 'a') sampleTwinObject sampleAccounting
      plantId nodeId p := by
  intro _
  let store := personalStore (twinLocalNodeId (objectId 'b')) (objectId 'b')
  cases hput : putOf (migrateTwinPlant (fun _ => some (.object [])) samplePins store (objectId 'a') sampleTwinObject
      sampleAccounting true) with
  | none =>
      have hsome : (putOf (migrateTwinPlant (fun _ => some (.object [])) samplePins store (objectId 'a')
        sampleTwinObject sampleAccounting true)).isSome = true := by decide
      rw [hput] at hsome
      cases hsome
  | some r =>
      obtain ⟨plantId, nodeId, ownerDid, p⟩ := r
      have h := eq_of_putOf hput
      refine ⟨plantId, nodeId, p, (migrated_iff (by decide) (readable_personalStore _ _) h).mpr fun q hq => ?_⟩
      obtain rfl := List.mem_singleton.mp (Store.find?_eq_some_iff.mp hq).1
      refine ⟨⟨_, rfl⟩, ⟨_, rfl⟩, fun id hbound => ?_⟩
      obtain ⟨-, -, -, -, -, hnode, -⟩ := migrateTwinPlant_eq_ok h
      have hkey := (Prod.mk.inj (List.mem_singleton.mp hbound)).1
      rw [hnode] at hkey
      exact absurd hkey (by decide)

end Plants
