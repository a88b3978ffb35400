-- SUMMARY: What the validation of `planCleanup` establishes, what its plans are made of, and when they exist and are sound.
import Mathlib.Data.List.Flatten
import Mathlib.Data.List.Perm.Basic
import TwinServer.Cleanup.Planner

/-!
# Sound plans

A plan is sound when its calls are few, remove different children, and leave no child behind
whose parent is gone. The plans of valid children are sound, and they exist, as long as no
two networks share an interface.
-/

open Js

namespace Cleanup

/-- The children a call removes: a member and an indicator leave their parent in place. -/
def CleanupCall.removed (call : CleanupCall) : List String :=
  if call.name = .function "cleanup_composition_member" ∨
      call.name = .function "cleanup_maturity_indicator" then call.ids.drop 1
  else call.ids

def removedIds (calls : List CleanupCall) : List String := calls.flatMap CleanupCall.removed

/-- The children that are left when a plan was executed. -/
def remaining (calls : List CleanupCall) (children : List CleanupChild) : List CleanupChild :=
  children.filter fun child => child.id ∉ removedIds calls

section
variable [Runtime] (packageId : String)

/-- The child names the other as its parent. -/
def RefersTo (child p : CleanupChild) : Prop :=
  ∃ key expected, parentLink (kind packageId child) = some (key, expected) ∧
    parentText child key = some p.id ∧ kind packageId p = expected

/-- A plan that may be executed. -/
structure Sound (children : List CleanupChild) (calls : List CleanupCall) : Prop where
  nonempty : 1 ≤ calls.length
  bounded : calls.length ≤ 16
  registered : ∀ id ∈ removedIds calls, id ∈ children.map CleanupChild.id
  disjoint : (removedIds calls).Nodup
  /-- A parent goes with everything that refers to it, in one call. -/
  parents : ∀ call ∈ calls, ∀ p ∈ children, p.id ∈ call.removed → ∀ child ∈ children,
    RefersTo packageId child p → child.id ∈ call.removed
  events : calls.Pairwise fun a b => a.isEvent → b.isEvent

omit [Runtime] in
/-- The `interface_id` of every network is a string, and no two networks have the same. -/
def OneNetworkEach (children : List CleanupChild) : Prop :=
  ∀ network ∈ children, kind packageId network = interfaceNetwork →
    ∃ id, network.fields.get? "interface_id" = some (.string id) ∧
      ∀ other ∈ children, kind packageId other = interfaceNetwork →
        other.fields.get? "interface_id" = some (.string id) → other.id = network.id

/-! ## What the validation establishes -/

/-- Children that pass the validation. -/
structure Valid (children : List CleanupChild) : Prop where
  ids : (children.map CleanupChild.id).Nodup
  known : ∀ child ∈ children,
    (simple (kind packageId child)).isSome ∨ kind packageId child ∈ linkedTypes
  parents : ∀ child ∈ children, parentLink (kind packageId child) ≠ none →
    ∃ p ∈ children, RefersTo packageId child p

variable {packageId} {children : List CleanupChild} {calls : List CleanupCall}

omit [Runtime] in
theorem parentLink_cases {type key expected : String} (h : parentLink type = some (key, expected)) :
    (type = compositionMember ∧ expected = "OIDTwinComposition") ∨
    (type = maturityIndicator ∧ expected = "OIDTwinMaturityAssessment") ∨
    (type = interfaceNetwork ∧ key = "interface_id" ∧ expected = interface) := by
  unfold parentLink at h
  split at h
  · next htype =>
    cases h
    exact .inl ⟨htype, rfl⟩
  · split at h
    · next htype =>
      cases h
      exact .inr (.inl ⟨htype, rfl⟩)
    · split at h
      · next htype =>
        cases h
        exact .inr (.inr ⟨htype, rfl, rfl⟩)
      · cases h

omit [Runtime] in
theorem parentLink_expected_ne {type key expected : String}
    (h : parentLink type = some (key, expected)) : expected ≠ "" := by
  rcases parentLink_cases h with ⟨-, rfl⟩ | ⟨-, rfl⟩ | ⟨-, -, rfl⟩
  · decide
  · decide
  · decide

theorem validateParent_eq_ok (hids : (children.map CleanupChild.id).Nodup) {child : CleanupChild} :
    validateParent packageId children child = .ok () ↔
      (parentLink (kind packageId child) ≠ none → ∃ p ∈ children, RefersTo packageId child p) := by
  unfold RefersTo
  cases hlink : parentLink (kind packageId child) with
  | none => simp [validateParent, hlink]
  | some link =>
    obtain ⟨key, expected⟩ := link
    have hparent (id : String) : parent packageId children child key expected = .ok id ↔
        parentText child key = some id ∧ ∃ p ∈ children, p.id = id ∧ kind packageId p = expected :=
      parent_eq_ok hids (parentLink_expected_ne hlink)
    have hvalidate : validateParent packageId children child =
        discard (parent packageId children child key expected) := by
      unfold validateParent
      rw [hlink]
    rw [hvalidate]
    constructor
    · intro h _
      cases hp : parent packageId children child key expected with
      | error e => rw [hp] at h; cases h
      | ok id =>
        obtain ⟨htext, p, hmem, rfl, hkind⟩ := (hparent id).mp hp
        exact ⟨p, hmem, key, expected, rfl, htext, hkind⟩
    · intro h
      obtain ⟨p, hmem, key', expected', heq, htext, hkind⟩ := h (by simp)
      cases heq
      rw [(hparent p.id).mpr ⟨htext, p, hmem, rfl, hkind⟩]
      rfl

theorem validate_eq_ok (hids : (children.map CleanupChild.id).Nodup) (l : List CleanupChild) :
    validate packageId children l = .ok () ↔ ∀ child ∈ l,
      ((simple (kind packageId child)).isSome ∨ kind packageId child ∈ linkedTypes) ∧
      (parentLink (kind packageId child) ≠ none → ∃ p ∈ children, RefersTo packageId child p) := by
  induction l with
  | nil => simp [validate]
  | cons child rest ih =>
      unfold validate
      rw [Except.check_bind_eq_ok, Except.check_bind_eq_ok, throwIf_eq_ok, validateParent_eq_ok hids,
        ih, List.forall_mem_cons, and_assoc, decide_eq_false_iff_not, not_and_or, not_not,
        Bool.not_eq_true, Option.isNone_eq_false_iff]

theorem valid_iff (hids : (children.map CleanupChild.id).Nodup) :
    validate packageId children children = .ok () ↔ Valid packageId children := by
  rw [validate_eq_ok hids]
  exact ⟨fun h => ⟨hids, fun c hc => (h c hc).1, fun c hc => (h c hc).2⟩,
    fun h c hc => ⟨h.known c hc, h.parents c hc⟩⟩

/-! ## What a plan is made of -/

theorem RefersTo.kind_parent {child p : CleanupChild} (h : RefersTo packageId child p) :
    kind packageId p = "OIDTwinComposition" ∨ kind packageId p = "OIDTwinMaturityAssessment" ∨
      kind packageId p = interface := by
  obtain ⟨key, expected, hlink, -, hkind⟩ := h
  rcases parentLink_cases hlink with ⟨-, rfl⟩ | ⟨-, rfl⟩ | ⟨-, -, rfl⟩
  · exact .inl hkind
  · exact .inr (.inl hkind)
  · exact .inr (.inr hkind)

omit [Runtime] in
/-- The ids that go with a child. -/
def covered (packageId : String) (children : List CleanupChild) (child : CleanupChild) :
    List String :=
  child.id :: if kind packageId child = interface then
    (networksOf packageId children child).map CleanupChild.id else []

/-- What a plan is made of: the first member, the first indicator, or calls for everything but
the networks, which go with their interfaces. -/
inductive Planned (packageId : String) (children : List CleanupChild) : List CleanupCall → Prop
  | single {child id name} (hmem : child ∈ children)
    (hkind : kind packageId child = compositionMember ∨ kind packageId child = maturityIndicator)
    (hname : name = .function "cleanup_composition_member" ∨
      name = .function "cleanup_maturity_indicator") :
    Planned packageId children [⟨name, [id, child.id]⟩]
  | batch {calls : List CleanupCall}
    (hnone : ∀ child ∈ children,
      kind packageId child ≠ compositionMember ∧ kind packageId child ≠ maturityIndicator)
    (hcollect : collect packageId children children = .ok calls) :
    Planned packageId children ((calls.mergeSort eventsLast).take 16)

theorem planned_of_ok (h : planCleanup packageId children = .ok calls) :
    Planned packageId children calls := by
  unfold planCleanup at h
  obtain ⟨-, h⟩ := Except.check_bind_eq_ok.mp h
  split at h
  · next member hmember =>
    obtain ⟨id, -, h⟩ := Except.bind_eq_ok.mp h
    obtain rfl := Except.pure_eq_ok.mp h
    have hkind : kind packageId member = compositionMember := by simpa using List.find?_some hmember
    exact .single (List.mem_of_find?_eq_some hmember) (.inl hkind) (.inl rfl)
  · next hmembers =>
    split at h
    · next indicator hindicator =>
      obtain ⟨id, -, h⟩ := Except.bind_eq_ok.mp h
      obtain rfl := Except.pure_eq_ok.mp h
      have hkind : kind packageId indicator = maturityIndicator := by
        simpa using List.find?_some hindicator
      exact .single (List.mem_of_find?_eq_some hindicator) (.inr hkind) (.inr rfl)
    · next hindicators =>
      obtain ⟨calls, hcollect, h⟩ := Except.bind_eq_ok.mp h
      obtain rfl := Except.pure_eq_ok.mp h
      refine .batch (fun child hchild => ⟨?_, ?_⟩) hcollect
      · simpa using List.find?_eq_none.mp hmembers child hchild
      · simpa using List.find?_eq_none.mp hindicators child hchild

omit [Runtime] in
theorem simple_ne {type : String} :
    (simple type).getD .undefined ≠ .function "cleanup_composition_member" ∧
      (simple type).getD .undefined ≠ .function "cleanup_maturity_indicator" := by
  unfold simple
  cases hname : simpleNames.get? type with
  | some name =>
    have hall : ∀ e ∈ simpleNames,
        e.2 ≠ "cleanup_composition_member" ∧ e.2 ≠ "cleanup_maturity_indicator" := by decide
    have hne := hall (type, name) (Record.mem_of_get? hname)
    exact ⟨fun h => hne.1 (Target.function.inj h), fun h => hne.2 (Target.function.inj h)⟩
  | none =>
    show (if type ∈ inheritedProperties then some (Target.inherited type) else none).getD
        .undefined ≠ _ ∧ _
    split
    · exact ⟨nofun, nofun⟩
    · exact ⟨nofun, nofun⟩

omit [Runtime] in
theorem callOf_eq_ok {child : CleanupChild} {call : Option CleanupCall}
    (h : callOf packageId children child = .ok call) :
    (kind packageId child = interfaceNetwork ∧ call = none) ∨
    (kind packageId child ≠ interfaceNetwork ∧ ∃ c, call = some c ∧
      c.removed = covered packageId children child ∧
      (kind packageId child = interface → (networksOf packageId children child).length ≤ 1)) := by
  unfold callOf at h
  dsimp only at h
  split at h
  · next hkind =>
    obtain rfl := Except.ok.inj h
    exact .inl ⟨hkind, rfl⟩
  · next hkind =>
    refine .inr ⟨hkind, ?_⟩
    split at h
    · next hinterface =>
      obtain ⟨hlength, h⟩ := Except.check_bind_eq_ok.mp h
      obtain rfl := Except.pure_eq_ok.mp h
      refine ⟨_, rfl, ?_, fun _ => by simpa using hlength⟩
      unfold CleanupCall.removed covered
      rw [if_pos hinterface]
      split <;> simp
    · next hinterface =>
      obtain rfl := Except.ok.inj h
      refine ⟨_, rfl, ?_, fun heq => absurd heq hinterface⟩
      unfold CleanupCall.removed covered
      simp [hinterface, simple_ne]

omit [Runtime] in
theorem exists_callOf {child : CleanupChild}
    (h : kind packageId child = interface → (networksOf packageId children child).length ≤ 1) :
    ∃ call, callOf packageId children child = .ok call := by
  unfold callOf
  dsimp only
  split
  · exact ⟨_, rfl⟩
  · split
    · next hkind =>
      have hlength : decide ((networksOf packageId children child).length > 1) = false := by
        simpa using h hkind
      simp only [hlength]
      exact ⟨_, rfl⟩
    · exact ⟨_, rfl⟩

omit [Runtime] in
/-- The calls remove what goes with the children that are no networks. -/
theorem removed_of_collect {l : List CleanupChild} (h : collect packageId children l = .ok calls) :
    calls.map CleanupCall.removed =
      (l.filter (kind packageId · ≠ interfaceNetwork)).map (covered packageId children) ∧
    ∀ child ∈ l, kind packageId child = interface →
      (networksOf packageId children child).length ≤ 1 := by
  induction l generalizing calls with
  | nil =>
      obtain rfl := Except.ok.inj h
      exact ⟨rfl, nofun⟩
  | cons child rest ih =>
      obtain ⟨call, hcall, h⟩ := Except.bind_eq_ok.mp h
      obtain ⟨calls, hrest, h⟩ := Except.bind_eq_ok.mp h
      obtain rfl := Except.pure_eq_ok.mp h
      obtain ⟨hmap, hle⟩ := ih hrest
      rcases callOf_eq_ok hcall with ⟨hkind, rfl⟩ | ⟨hkind, c, rfl, hremoved, hone⟩
      · refine ⟨?_, List.forall_mem_cons.mpr ⟨fun hinterface => ?_, hle⟩⟩
        · rw [List.filter_cons_of_neg (by simpa using hkind)]
          exact hmap
        · rw [hkind] at hinterface
          exact absurd hinterface (by decide)
      · refine ⟨?_, List.forall_mem_cons.mpr ⟨hone, hle⟩⟩
        rw [List.filter_cons_of_pos (by simpa using hkind), List.map_cons, ← hremoved, ← hmap]
        rfl

omit [Runtime] in
theorem exists_collect {l : List CleanupChild}
    (h : ∀ child ∈ l, kind packageId child = interface →
      (networksOf packageId children child).length ≤ 1) :
    ∃ calls, collect packageId children l = .ok calls := by
  induction l with
  | nil => exact ⟨[], rfl⟩
  | cons child rest ih =>
      obtain ⟨hchild, hrest⟩ := List.forall_mem_cons.mp h
      obtain ⟨call, hcall⟩ := exists_callOf hchild
      obtain ⟨calls, hcalls⟩ := ih hrest
      refine ⟨call.toList ++ calls, ?_⟩
      unfold collect
      rw [hcall, hcalls]
      rfl

/-! ## Networks and their interfaces -/

omit [Runtime] in
theorem mem_networksOf {network p : CleanupChild} :
    network ∈ networksOf packageId children p ↔ network ∈ children ∧
      kind packageId network = interfaceNetwork ∧
      network.fields.get? "interface_id" = some (.string p.id) := by
  have hstrict (v : Json) : v.strictEq (.string p.id) = true ↔ v = .string p.id := by
    cases v <;> simp [Json.strictEq]
  unfold networksOf
  rw [List.mem_filter, decide_eq_true_iff]
  cases network.fields.get? "interface_id" with
  | none => simp
  | some v => simp [hstrict]

omit [Runtime] in
/-- Distinct ids that are all the same are one at most. -/
theorem length_le_one_of_same_id {l : List CleanupChild} (hids : (l.map CleanupChild.id).Nodup)
    (h : ∀ a ∈ l, ∀ b ∈ l, a.id = b.id) : l.length ≤ 1 := by
  match l with
  | [] => exact Nat.zero_le 1
  | [_] => exact Nat.le_refl 1
  | a :: b :: _ =>
    have hne : a.id ∉ _ := (List.nodup_cons.mp hids).1
    rw [h a List.mem_cons_self b (List.mem_cons_of_mem _ List.mem_cons_self)] at hne
    exact absurd List.mem_cons_self hne

omit [Runtime] in
theorem networksOf_length_le (hids : (children.map CleanupChild.id).Nodup)
    (hone : OneNetworkEach packageId children) (p : CleanupChild) :
    (networksOf packageId children p).length ≤ 1 := by
  refine length_le_one_of_same_id (hids.sublist (List.filter_sublist.map _)) fun a ha b hb => ?_
  obtain ⟨hb, hbkind, hbid⟩ := mem_networksOf.mp hb
  obtain ⟨ha, hakind, haid⟩ := mem_networksOf.mp ha
  obtain ⟨id, hid, hall⟩ := hone b hb hbkind
  exact hall a ha hakind (haid.trans (hbid.symm.trans hid))

omit [Runtime] in
/-- Two children that go with children other than networks are apart. -/
theorem covered_disjoint (hids : (children.map CleanupChild.id).Nodup) {a b : CleanupChild}
    (ha : a ∈ children) (hb : b ∈ children) (hakind : kind packageId a ≠ interfaceNetwork)
    (hbkind : kind packageId b ≠ interfaceNetwork) (hne : a.id ≠ b.id) :
    List.Disjoint (covered packageId children a) (covered packageId children b) := by
  have hapart : ∀ {c d : CleanupChild}, c ∈ children → kind packageId c ≠ interfaceNetwork →
      c.id ∉ (networksOf packageId children d).map CleanupChild.id := by
    intro c d hc hckind hmem
    obtain ⟨n, hn, hid⟩ := List.mem_map.mp hmem
    obtain ⟨hn, hnkind, -⟩ := mem_networksOf.mp hn
    exact hckind (List.inj_on_of_nodup_map hids hn hc hid ▸ hnkind)
  unfold covered
  intro id hida hidb
  rcases List.mem_cons.mp hida with rfl | hida
  · rcases List.mem_cons.mp hidb with hid | hidb
    · exact hne hid
    · split at hidb
      · exact hapart ha hakind hidb
      · cases hidb
  · split at hida
    · rcases List.mem_cons.mp hidb with rfl | hidb
      · exact hapart hb hbkind hida
      · split at hidb
        · obtain ⟨n, hn, rfl⟩ := List.mem_map.mp hida
          obtain ⟨m, hm, hid⟩ := List.mem_map.mp hidb
          obtain ⟨hn, -, hna⟩ := mem_networksOf.mp hn
          obtain ⟨hm, -, hmb⟩ := mem_networksOf.mp hm
          obtain rfl := List.inj_on_of_nodup_map hids hm hn hid
          rw [hna] at hmb
          exact hne (Json.string.inj (Option.some.inj hmb))
        · cases hidb
    · cases hida

/-! ## Plans are sound -/

omit [Runtime] in
/-- A call of a batch removes what goes with one child. -/
theorem removed_of_mem (hcollect : collect packageId children children = .ok calls)
    {call : CleanupCall} (hcall : call ∈ (calls.mergeSort eventsLast).take 16) :
    ∃ child ∈ children, kind packageId child ≠ interfaceNetwork ∧
      call.removed = covered packageId children child := by
  have hmem : call ∈ calls := List.mem_mergeSort.mp (List.mem_of_mem_take hcall)
  have hremoved : call.removed ∈ calls.map CleanupCall.removed := List.mem_map_of_mem hmem
  rw [(removed_of_collect hcollect).1] at hremoved
  obtain ⟨child, hchild, heq⟩ := List.mem_map.mp hremoved
  obtain ⟨hchild, hkind⟩ := List.mem_filter.mp hchild
  exact ⟨child, hchild, by simpa using hkind, heq.symm⟩

omit [Runtime] in
theorem covered_subset {child : CleanupChild} (h : child ∈ children) :
    ∀ id ∈ covered packageId children child, id ∈ children.map CleanupChild.id := by
  intro id hid
  rcases List.mem_cons.mp hid with rfl | hid
  · exact List.mem_map_of_mem h
  · split at hid
    · obtain ⟨n, hn, rfl⟩ := List.mem_map.mp hid
      exact List.mem_map_of_mem (mem_networksOf.mp hn).1
    · cases hid

omit [Runtime] in
theorem nodup_covered (hids : (children.map CleanupChild.id).Nodup) {child : CleanupChild}
    (h : child ∈ children) (hkind : kind packageId child ≠ interfaceNetwork) :
    (covered packageId children child).Nodup := by
  unfold covered
  split
  · refine List.nodup_cons.mpr ⟨fun hmem => ?_, hids.sublist (List.filter_sublist.map _)⟩
    obtain ⟨n, hn, hid⟩ := List.mem_map.mp hmem
    obtain ⟨hn, hnkind, -⟩ := mem_networksOf.mp hn
    exact hkind (List.inj_on_of_nodup_map hids hn h hid ▸ hnkind)
  · exact List.nodup_singleton _

omit [Runtime] in
theorem nodup_removedIds (hids : (children.map CleanupChild.id).Nodup)
    (hcollect : collect packageId children children = .ok calls) :
    (removedIds ((calls.mergeSort eventsLast).take 16)).Nodup := by
  have hall : (removedIds calls).Nodup := by
    unfold removedIds
    rw [List.flatMap_def, (removed_of_collect hcollect).1, ← List.flatMap_def, List.nodup_flatMap]
    refine ⟨fun child hchild => ?_, ?_⟩
    · obtain ⟨hchild, hkind⟩ := List.mem_filter.mp hchild
      exact nodup_covered hids hchild (by simpa using hkind)
    · have hpair : (children.filter (kind packageId · ≠ interfaceNetwork)).Pairwise
          fun a b => a.id ≠ b.id := (List.pairwise_map.mp hids).sublist List.filter_sublist
      refine List.Pairwise.imp_of_mem (fun {a b} ha hb hne => ?_) hpair
      obtain ⟨ha, hakind⟩ := List.mem_filter.mp ha
      obtain ⟨hb, hbkind⟩ := List.mem_filter.mp hb
      exact covered_disjoint hids ha hb (by simpa using hakind) (by simpa using hbkind) hne
  refine List.Nodup.sublist ((List.take_sublist _ _).flatMap _) ?_
  exact ((List.mergeSort_perm calls eventsLast).flatMap_right _).nodup_iff.mpr hall

omit [Runtime] in
theorem eventsLast_pairwise (l : List CleanupCall) :
    (l.mergeSort eventsLast).Pairwise fun a b => a.isEvent → b.isEvent := by
  have htrans : ∀ a b c : CleanupCall, eventsLast a b → eventsLast b c → eventsLast a c := by
    intro a b c hab hbc
    unfold eventsLast at *
    rw [decide_eq_true_iff] at *
    exact Nat.le_trans hab hbc
  have htotal : ∀ a b : CleanupCall, (eventsLast a b || eventsLast b a) = true := by
    intro a b
    unfold eventsLast
    rw [Bool.or_eq_true, decide_eq_true_iff, decide_eq_true_iff]
    exact Nat.le_total _ _
  refine (List.pairwise_mergeSort htrans htotal l).imp fun {a b} hab ha => ?_
  unfold eventsLast at hab
  rw [ha] at hab
  cases hb : b.isEvent with
  | true => rfl
  | false =>
    rw [hb] at hab
    exact absurd hab (by decide)

/-- Only a network refers to an interface, and it is one of the networks of the interface. -/
theorem RefersTo.mem_covered (hone : OneNetworkEach packageId children) {child p : CleanupChild}
    (hchild : child ∈ children) (hkind : kind packageId child ≠ compositionMember ∧
      kind packageId child ≠ maturityIndicator) (h : RefersTo packageId child p) :
    child.id ∈ covered packageId children p := by
  obtain ⟨key, expected, hlink, htext, hp⟩ := h
  rcases parentLink_cases hlink with ⟨hmember, -⟩ | ⟨hindicator, -⟩ | ⟨hnetwork, rfl, rfl⟩
  · exact absurd hmember hkind.1
  · exact absurd hindicator hkind.2
  · obtain ⟨id, hid, -⟩ := hone child hchild hnetwork
    have hsame : id = p.id := by
      unfold parentText at htext
      rw [hid] at htext
      exact Option.some.inj htext
    have hmem : child ∈ networksOf packageId children p :=
      mem_networksOf.mpr ⟨hchild, hnetwork, hsame ▸ hid⟩
    unfold covered
    rw [if_pos hp]
    exact List.mem_cons_of_mem _ (List.mem_map_of_mem hmem)

omit [Runtime] in
theorem removed_single {child : CleanupChild} {id : String} {name : Target}
    (hname : name = .function "cleanup_composition_member" ∨
      name = .function "cleanup_maturity_indicator") :
    CleanupCall.removed ⟨name, [id, child.id]⟩ = [child.id] := by
  unfold CleanupCall.removed
  rw [if_pos hname]
  rfl

/-- A parent is neither a member, an indicator nor a network. -/
theorem RefersTo.parent_ne {child p : CleanupChild} (h : RefersTo packageId child p) :
    kind packageId p ≠ compositionMember ∧ kind packageId p ≠ maturityIndicator ∧
      kind packageId p ≠ interfaceNetwork := by
  rcases h.kind_parent with h | h | h <;> rw [h] <;> decide

theorem collect_ne_nil (hvalid : Valid packageId children) (hne : children ≠ [])
    (hcollect : collect packageId children children = .ok calls) : calls ≠ [] := by
  obtain ⟨child, hchild, hkind⟩ : ∃ child ∈ children, kind packageId child ≠ interfaceNetwork := by
    obtain ⟨first, hfirst⟩ := List.exists_mem_of_ne_nil _ hne
    by_cases hkind : kind packageId first = interfaceNetwork
    · obtain ⟨p, hp, hrefers⟩ := hvalid.parents first hfirst (by rw [hkind]; decide)
      exact ⟨p, hp, hrefers.parent_ne.2.2⟩
    · exact ⟨first, hfirst, hkind⟩
  have hmem : covered packageId children child ∈ calls.map CleanupCall.removed := by
    rw [(removed_of_collect hcollect).1]
    exact List.mem_map_of_mem (List.mem_filter.mpr ⟨hchild, by simpa using hkind⟩)
  intro hnil
  rw [hnil] at hmem
  cases hmem

/-- Every plan that exists is sound. -/
theorem sound_of_planned (hvalid : Valid packageId children)
    (hone : OneNetworkEach packageId children) (hne : children ≠ [])
    (h : Planned packageId children calls) : Sound packageId children calls := by
  cases h with
  | @single child id name hmem hkind hname =>
    have hremoved := @removed_single child id name hname
    refine ⟨Nat.le_refl 1, by simp, ?_, ?_, ?_, List.pairwise_singleton _ _⟩
    · intro id' hid'
      rw [removedIds, List.flatMap_singleton, hremoved, List.mem_singleton] at hid'
      exact hid' ▸ List.mem_map_of_mem hmem
    · rw [removedIds, List.flatMap_singleton, hremoved]
      exact List.nodup_singleton _
    · intro call hcall p hp hpid other _ hrefers
      obtain rfl := List.mem_singleton.mp hcall
      rw [hremoved, List.mem_singleton] at hpid
      obtain rfl := List.inj_on_of_nodup_map hvalid.ids hp hmem hpid
      obtain ⟨hmember, hindicator, -⟩ := hrefers.parent_ne
      exact absurd hkind (not_or.mpr ⟨hmember, hindicator⟩)
  | @batch calls hnone hcollect =>
    have hpos : 1 ≤ calls.length :=
      List.length_pos_iff.mpr (collect_ne_nil hvalid hne hcollect)
    refine ⟨?_, ?_, ?_, nodup_removedIds hvalid.ids hcollect, ?_,
      (eventsLast_pairwise calls).sublist (List.take_sublist _ _)⟩
    · rw [List.length_take, List.length_mergeSort]
      exact Nat.le_min.mpr ⟨by decide, hpos⟩
    · rw [List.length_take]
      exact Nat.min_le_left _ _
    · intro id hid
      obtain ⟨call, hcall, hid⟩ := List.mem_flatMap.mp hid
      obtain ⟨child, hchild, -, hremoved⟩ := removed_of_mem hcollect hcall
      exact covered_subset hchild id (hremoved ▸ hid)
    · intro call hcall p hp hpid child hchild hrefers
      obtain ⟨owner, howner, -, hremoved⟩ := removed_of_mem hcollect hcall
      rw [hremoved] at hpid ⊢
      have hpowner : p = owner := by
        rcases List.mem_cons.mp hpid with hid | hid
        · exact List.inj_on_of_nodup_map hvalid.ids hp howner hid
        · split at hid
          · obtain ⟨n, hn, hnid⟩ := List.mem_map.mp hid
            obtain ⟨hn, hnkind, -⟩ := mem_networksOf.mp hn
            obtain rfl := List.inj_on_of_nodup_map hvalid.ids hn hp hnid
            exact absurd hnkind hrefers.parent_ne.2.2
          · cases hid
      exact hpowner ▸ hrefers.mem_covered hone hchild (hnone child hchild)

/-- Valid children with one network an interface have a plan. -/
theorem exists_plan (hvalid : Valid packageId children) (hone : OneNetworkEach packageId children) :
    ∃ calls, planCleanup packageId children = .ok calls := by
  have hparent {child : CleanupChild} {type key expected : String} (hchild : child ∈ children)
      (hkind : kind packageId child = type) (hlink : parentLink type = some (key, expected)) :
      ∃ id, parent packageId children child key expected = .ok id := by
    obtain ⟨p, hp, key', expected', hlink', htext, hpkind⟩ :=
      hvalid.parents child hchild (by rw [hkind, hlink]; exact Option.some_ne_none _)
    rw [hkind, hlink] at hlink'
    cases hlink'
    exact ⟨p.id, (parent_eq_ok hvalid.ids (parentLink_expected_ne hlink)).mpr
      ⟨htext, p, hp, rfl, hpkind⟩⟩
  have hvalidate := (valid_iff hvalid.ids).mpr hvalid
  cases hmember : children.find? (kind packageId · = compositionMember) with
  | some member =>
    have hkind : kind packageId member = compositionMember := by simpa using List.find?_some hmember
    obtain ⟨id, hid⟩ := hparent (List.mem_of_find?_eq_some hmember) hkind rfl
    refine ⟨[⟨.function "cleanup_composition_member", [id, member.id]⟩], ?_⟩
    simp only [planCleanup, hvalidate, hmember, hid]
    rfl
  | none =>
    cases hindicator : children.find? (kind packageId · = maturityIndicator) with
    | some indicator =>
      have hkind : kind packageId indicator = maturityIndicator := by
        simpa using List.find?_some hindicator
      obtain ⟨id, hid⟩ := hparent (List.mem_of_find?_eq_some hindicator) hkind rfl
      refine ⟨[⟨.function "cleanup_maturity_indicator", [id, indicator.id]⟩], ?_⟩
      simp only [planCleanup, hvalidate, hmember, hindicator, hid]
      rfl
    | none =>
      obtain ⟨calls, hcalls⟩ := exists_collect
        (fun child (_ : child ∈ children) _ => networksOf_length_le hvalid.ids hone child)
      refine ⟨(calls.mergeSort eventsLast).take 16, ?_⟩
      simp only [planCleanup, hvalidate, hmember, hindicator, hcalls]
      rfl

end

end Cleanup
