-- SUMMARY: Runs of cleanup plans, and exactly when cleanup never gets stuck.
import TwinServer.Base.Steps
import TwinServer.Cleanup.Plans

/-!
# Runs of cleanup plans

`cleanupTwin` plans a batch, executes it and looks at the children that are left, until
there are none. `prepare_delete_twin` is called after the first plan was found to exist, and
it cannot be undone: the plans after it must exist as well.
-/

open Js Steps

namespace Cleanup

section
variable [Runtime] (packageId : String)

/-- One batch. The children that are left may be listed in another order. -/
def Batch (children children' : List CleanupChild) : Prop :=
  children ≠ [] ∧ ∃ calls, planCleanup packageId children = .ok calls ∧
    children'.Perm (remaining calls children)

/-- Every plan along every run exists and is sound, and every run comes to an end with no
children left. -/
structure NeverStuck (children : List CleanupChild) : Prop where
  plans : ∀ n children', Run (Batch packageId) n children children' → children' ≠ [] →
    ∃ calls, planCleanup packageId children' = .ok calls ∧ Sound packageId children' calls
  bounded : ∀ n children', Run (Batch packageId) n children children' → n ≤ children.length
  empties : ∀ n children', Run (Batch packageId) n children children' →
    ∃ m, Run (Batch packageId) m children' []

variable {packageId} {children children' : List CleanupChild} {calls : List CleanupCall}

/-! ## One batch -/

/-- What a sound plan leaves is valid again. -/
theorem valid_remaining (hvalid : Valid packageId children)
    (hsound : Sound packageId children calls) (hperm : children'.Perm (remaining calls children)) :
    Valid packageId children' := by
  have hmem {child : CleanupChild} (h : child ∈ children') : child ∈ children :=
    List.mem_of_mem_filter (hperm.mem_iff.mp h)
  refine ⟨?_, fun child h => hvalid.known child (hmem h), ?_⟩
  · exact (hperm.map _).nodup_iff.mpr (hvalid.ids.sublist (List.filter_sublist.map _))
  · intro child h hlink
    obtain ⟨p, hp, hrefers⟩ := hvalid.parents child (hmem h) hlink
    refine ⟨p, hperm.mem_iff.mpr (List.mem_filter.mpr ⟨hp, ?_⟩), hrefers⟩
    rw [decide_eq_true_iff]
    intro hgone
    obtain ⟨call, hcall, hpid⟩ := List.mem_flatMap.mp hgone
    have hchild := hsound.parents call hcall p hp hpid child (hmem h) hrefers
    have hleft := (List.mem_filter.mp (hperm.mem_iff.mp h)).2
    rw [decide_eq_true_iff] at hleft
    exact hleft (List.mem_flatMap.mpr ⟨call, hcall, hchild⟩)

omit [Runtime] in
theorem oneNetworkEach_remaining (hone : OneNetworkEach packageId children)
    (hperm : children'.Perm (remaining calls children)) : OneNetworkEach packageId children' := by
  have hmem {child : CleanupChild} (h : child ∈ children') : child ∈ children :=
    List.mem_of_mem_filter (hperm.mem_iff.mp h)
  intro network h hkind
  obtain ⟨id, hid, hall⟩ := hone network (hmem h) hkind
  exact ⟨id, hid, fun other hother => hall other (hmem hother)⟩

theorem length_remaining_lt (hsound : Sound packageId children calls)
    (hperm : children'.Perm (remaining calls children)) (hremoved : removedIds calls ≠ []) :
    children'.length < children.length := by
  obtain ⟨id, hid⟩ := List.exists_mem_of_ne_nil _ hremoved
  obtain ⟨child, hchild, rfl⟩ := List.mem_map.mp (hsound.registered id hid)
  rw [hperm.length_eq]
  exact List.length_filter_lt_length_iff_exists.mpr ⟨child, hchild, by simpa using hid⟩

omit [Runtime] in
theorem removedIds_ne_nil (h : Planned packageId children calls) (hne : calls ≠ []) :
    removedIds calls ≠ [] := by
  obtain ⟨call, hcall⟩ := List.exists_mem_of_ne_nil _ hne
  have hsome : ∃ id, id ∈ call.removed := by
    cases h with
    | @single child id name _ _ hname =>
      obtain rfl := List.mem_singleton.mp hcall
      refine ⟨child.id, ?_⟩
      rw [removed_single hname]
      exact List.mem_singleton_self _
    | batch _ hcollect =>
      obtain ⟨child, -, -, hremoved⟩ := removed_of_mem hcollect hcall
      exact ⟨child.id, hremoved ▸ List.mem_cons_self⟩
  obtain ⟨id, hid⟩ := hsome
  exact List.ne_nil_of_mem (List.mem_flatMap.mpr ⟨call, hcall, hid⟩)

/-- What holds between the batches of a cleanup that is not stuck. -/
def Ready (packageId : String) (children : List CleanupChild) : Prop :=
  Valid packageId children ∧ OneNetworkEach packageId children

theorem Ready.batch (h : Ready packageId children) (hbatch : Batch packageId children children') :
    Ready packageId children' ∧ children'.length < children.length := by
  obtain ⟨hne, calls, hplan, hperm⟩ := hbatch
  have hplanned := planned_of_ok hplan
  have hsound := sound_of_planned h.1 h.2 hne hplanned
  have hcalls : calls ≠ [] := List.length_pos_iff.mp hsound.nonempty
  exact ⟨⟨valid_remaining h.1 hsound hperm, oneNetworkEach_remaining h.2 hperm⟩,
    length_remaining_lt hsound hperm (removedIds_ne_nil hplanned hcalls)⟩

theorem Ready.next (h : Ready packageId children) (hne : children ≠ []) :
    ∃ calls, planCleanup packageId children = .ok calls ∧ Sound packageId children calls := by
  obtain ⟨calls, hplan⟩ := exists_plan h.1 h.2
  exact ⟨calls, hplan, sound_of_planned h.1 h.2 hne (planned_of_ok hplan)⟩

theorem Ready.neverStuck (h : Ready packageId children) : NeverStuck packageId children := by
  have hready {n : Nat} {children' : List CleanupChild}
      (hrun : Run (Batch packageId) n children children') : Ready packageId children' :=
    hrun.invariant (fun _ _ hs hbatch => (hs.batch hbatch).1) h
  refine ⟨fun n children' hrun hne => (hready hrun).next hne, fun n children' hrun => ?_,
    fun n children' hrun => ?_⟩
  · have hle : n + children'.length ≤ children.length :=
      hrun.length_le (fun _ _ hs hbatch => hs.batch hbatch) h
    exact Nat.le_trans (Nat.le_add_right _ _) hle
  · have hnext (s : List CleanupChild) (hs : Ready packageId s) (hsize : s.length ≠ 0) :
        ∃ t, Batch packageId s t := by
      have hne : s ≠ [] := fun hnil => hsize (hnil ▸ rfl)
      obtain ⟨calls, hplan, -⟩ := hs.next hne
      exact ⟨remaining calls s, hne, calls, hplan, .refl _⟩
    obtain ⟨m, last, hlast, hzero⟩ :=
      exists_run (fun _ _ hs hbatch => hs.batch hbatch) hnext (hready hrun)
    obtain rfl := List.length_eq_zero_iff.mp hzero
    exact ⟨m, hlast⟩

/-! ## What a run to the end shows -/

omit [Runtime] in
/-- A network that is removed is the only one of its interface. -/
theorem network_removed (hids : (children.map CleanupChild.id).Nodup)
    (h : Planned packageId children calls) {network : CleanupChild} (hnetwork : network ∈ children)
    (hkind : kind packageId network = interfaceNetwork) (hgone : network.id ∈ removedIds calls) :
    ∃ id, network.fields.get? "interface_id" = some (.string id) ∧
      ∀ other ∈ children, kind packageId other = interfaceNetwork →
        other.fields.get? "interface_id" = some (.string id) → other.id = network.id := by
  cases h with
  | @single child id name hmem hchild hname =>
    rw [removedIds, List.flatMap_singleton, removed_single hname, List.mem_singleton] at hgone
    obtain rfl := List.inj_on_of_nodup_map hids hnetwork hmem hgone
    rw [hkind] at hchild
    exact absurd hchild (by decide)
  | @batch calls _ hcollect =>
    obtain ⟨call, hcall, hid⟩ := List.mem_flatMap.mp hgone
    obtain ⟨owner, howner, hownerKind, hremoved⟩ := removed_of_mem hcollect hcall
    rw [hremoved] at hid
    rcases List.mem_cons.mp hid with hid | hid
    · obtain rfl := List.inj_on_of_nodup_map hids hnetwork howner hid
      exact absurd hkind hownerKind
    · split at hid
      · next hinterface =>
        obtain ⟨n, hn, hnid⟩ := List.mem_map.mp hid
        obtain rfl := List.inj_on_of_nodup_map hids (mem_networksOf.mp hn).1 hnetwork hnid
        refine ⟨owner.id, (mem_networksOf.mp hn).2.2, fun other hother hotherKind hotherId => ?_⟩
        have hle := (removed_of_collect hcollect).2 owner howner hinterface
        have hmem := mem_networksOf.mpr ⟨hother, hotherKind, hotherId⟩
        obtain ⟨single, hsingle⟩ := List.length_eq_one_iff.mp
          (Nat.le_antisymm hle (List.length_pos_of_mem hn))
        rw [hsingle, List.mem_singleton] at hmem hn
        rw [hmem, hn]
      · cases hid

theorem oneNetworkEach_of_run {n : Nat} (hids : (children.map CleanupChild.id).Nodup)
    (hrun : Run (Batch packageId) n children []) : OneNetworkEach packageId children := by
  generalize hlast : ([] : List CleanupChild) = last at hrun
  induction hrun with
  | refl s =>
      subst hlast
      intro _ h
      cases h
  | @head n s t u hbatch hrun ih =>
      obtain ⟨-, calls, hplan, hperm⟩ := hbatch
      have hplanned := planned_of_ok hplan
      have hrest := ih ((hperm.map _).nodup_iff.mpr (hids.sublist (List.filter_sublist.map _))) hlast
      have hleft {child : CleanupChild} (hchild : child ∈ s) (hstays : child.id ∉ removedIds calls) :
          child ∈ t := hperm.mem_iff.mpr (List.mem_filter.mpr ⟨hchild, by simpa using hstays⟩)
      intro network hnetwork hkind
      by_cases hgone : network.id ∈ removedIds calls
      · exact network_removed hids hplanned hnetwork hkind hgone
      · obtain ⟨id, hid, hall⟩ := hrest network (hleft hnetwork hgone) hkind
        refine ⟨id, hid, fun other hother hotherKind hotherId => ?_⟩
        by_cases hotherGone : other.id ∈ removedIds calls
        · -- the other network leaves first: it was alone then, and this one was there
          obtain ⟨id', hid', hothers⟩ := network_removed hids hplanned hother hotherKind hotherGone
          obtain rfl := Json.string.inj (Option.some.inj (hotherId.symm.trans hid'))
          exact (hothers network hnetwork hkind hid).symm
        · exact hall other (hleft hother hotherGone) hotherKind hotherId

theorem NeverStuck.oneNetworkEach (hids : (children.map CleanupChild.id).Nodup)
    (h : NeverStuck packageId children) : OneNetworkEach packageId children := by
  obtain ⟨m, hrun⟩ := h.empties 0 children (.refl _)
  exact oneNetworkEach_of_run hids hrun

theorem valid_of_plan (hids : (children.map CleanupChild.id).Nodup)
    (h : planCleanup packageId children = .ok calls) : Valid packageId children := by
  unfold planCleanup at h
  exact (valid_iff hids).mp (Except.check_bind_eq_ok.mp h).1

/-- A cleanup that was found to have a first plan never gets stuck exactly when the
`interface_id` of every network is a string and no two networks have the same. -/
theorem planCleanup_neverStuck (hids : (children.map CleanupChild.id).Nodup)
    (hfirst : planCleanup packageId children = .ok calls) :
    NeverStuck packageId children ↔ OneNetworkEach packageId children :=
  ⟨NeverStuck.oneNetworkEach hids, fun hone => Ready.neverStuck ⟨valid_of_plan hids hfirst, hone⟩⟩

end

/-! ## Two networks of one interface -/

/-- A child of a type of the package. -/
def registered (packageId id type : String) (fields : Record Json) : CleanupChild :=
  ⟨id, packageId ++ "::oid_twin::" ++ type, fields⟩

@[simp] theorem kind_registered (packageId id type : String) (fields : Record Json) :
    kind packageId (registered packageId id type fields) = type :=
  kind_eq_of_type type _ rfl

/-- A network of the interface `f`. -/
def networkOf (packageId id : String) : CleanupChild :=
  registered packageId id interfaceNetwork [("interface_id", .string "f")]

def memberOf (packageId : String) : CleanupChild :=
  registered packageId "m" compositionMember [("composition_id", .string "c")]

/-- A composition with a member, and an interface with networks. -/
def withNetworks (packageId : String) (networks : List String) : List CleanupChild :=
  registered packageId "c" "OIDTwinComposition" [] :: memberOf packageId ::
    registered packageId "f" interface [] :: networks.map (networkOf packageId)

theorem map_id_withNetworks (packageId : String) (networks : List String) :
    (withNetworks packageId networks).map CleanupChild.id = "c" :: "m" :: "f" :: networks := by
  have hnetworks : (networks.map (networkOf packageId)).map CleanupChild.id = networks := by
    rw [List.map_map]
    exact List.map_id networks
  unfold withNetworks
  simp only [List.map_cons, hnetworks]
  rfl

theorem valid_withNetworks [Runtime] {packageId : String} {networks : List String}
    (hids : ((withNetworks packageId networks).map CleanupChild.id).Nodup) :
    Valid packageId (withNetworks packageId networks) := by
  have hchildren : ∀ child ∈ withNetworks packageId networks,
      child = registered packageId "c" "OIDTwinComposition" [] ∨ child = memberOf packageId ∨
      child = registered packageId "f" interface [] ∨ ∃ id, child = networkOf packageId id := by
    intro child hchild
    simp only [withNetworks, List.mem_cons, List.mem_map] at hchild
    rcases hchild with h | h | h | ⟨id, -, h⟩
    · exact .inl h
    · exact .inr (.inl h)
    · exact .inr (.inr (.inl h))
    · exact .inr (.inr (.inr ⟨id, h.symm⟩))
  refine ⟨hids, fun child hchild => ?_, fun child hchild hlink => ?_⟩
  · rcases hchildren child hchild with rfl | rfl | rfl | ⟨id, rfl⟩
    · exact .inl (by rw [kind_registered]; decide)
    · exact .inr (by unfold memberOf; rw [kind_registered]; decide)
    · exact .inr (by rw [kind_registered]; decide)
    · exact .inr (by unfold networkOf; rw [kind_registered]; decide)
  · rcases hchildren child hchild with rfl | rfl | rfl | ⟨id, rfl⟩
    · exact absurd (by rw [kind_registered]; decide) hlink
    · exact ⟨registered packageId "c" "OIDTwinComposition" [], List.mem_cons_self,
        "composition_id", "OIDTwinComposition", by unfold memberOf; rw [kind_registered]; decide, rfl,
        kind_registered _ _ _ _⟩
    · exact absurd (by rw [kind_registered]; decide) hlink
    · exact ⟨registered packageId "f" interface [],
        List.mem_cons_of_mem _ (List.mem_cons_of_mem _ List.mem_cons_self),
        "interface_id", interface, by unfold networkOf; rw [kind_registered]; decide, rfl,
        kind_registered _ _ _ _⟩

theorem planCleanup_withNetworks [Runtime] {packageId : String} {networks : List String}
    (hids : ((withNetworks packageId networks).map CleanupChild.id).Nodup) :
    planCleanup packageId (withNetworks packageId networks) =
      .ok [⟨.function "cleanup_composition_member", ["c", "m"]⟩] := by
  have hvalidate := (valid_iff hids).mpr (valid_withNetworks hids)
  have hparent : parent packageId (withNetworks packageId networks) (memberOf packageId)
      "composition_id" "OIDTwinComposition" = .ok "c" :=
    (parent_eq_ok hids (by decide)).mpr ⟨rfl, registered packageId "c" "OIDTwinComposition" [],
      List.mem_cons_self, rfl, kind_registered _ _ _ _⟩
  have hfind : (withNetworks packageId networks).find? (kind packageId · = compositionMember) =
      some (memberOf packageId) := by
    unfold withNetworks memberOf
    rw [List.find?_cons_of_neg (by rw [kind_registered]; decide),
      List.find?_cons_of_pos (by rw [kind_registered]; decide)]
  simp only [planCleanup, hvalidate, hfind, hparent]
  rfl

/-- With two networks of one interface the first plan exists, and a later one does not. -/
theorem cleanup_gets_stuck :
    ((withNetworks (objectId 'a') ["n", "n2"]).map CleanupChild.id).Nodup ∧
    @planCleanup Runtime.ascii (objectId 'a') (withNetworks (objectId 'a') ["n", "n2"]) =
      .ok [⟨.function "cleanup_composition_member", ["c", "m"]⟩] ∧
    ¬ @NeverStuck Runtime.ascii (objectId 'a') (withNetworks (objectId 'a') ["n", "n2"]) := by
  have hids : ((withNetworks (objectId 'a') ["n", "n2"]).map CleanupChild.id).Nodup := by
    rw [map_id_withNetworks]
    decide
  refine ⟨hids, @planCleanup_withNetworks Runtime.ascii _ _ hids, fun h => ?_⟩
  have hone := @NeverStuck.oneNetworkEach Runtime.ascii _ _ hids h
  obtain ⟨id, hid, hall⟩ := hone (networkOf (objectId 'a') "n") (by simp [withNetworks])
    (kind_registered _ _ _ _)
  obtain rfl := Json.string.inj (Option.some.inj hid)
  have hsame := hall (networkOf (objectId 'a') "n2") (by simp [withNetworks])
    (kind_registered _ _ _ _) rfl
  exact absurd hsame (by show ("n2" : String) ≠ "n"; decide)

/-- With one network it runs to its end. -/
theorem planCleanup_neverStuck_paired :
    @NeverStuck Runtime.ascii (objectId 'a') (withNetworks (objectId 'a') ["n"]) := by
  have hids : ((withNetworks (objectId 'a') ["n"]).map CleanupChild.id).Nodup := by
    rw [map_id_withNetworks]
    decide
  refine (@planCleanup_neverStuck Runtime.ascii _ _ _ hids
    (@planCleanup_withNetworks Runtime.ascii _ _ hids)).mpr fun network hnetwork hkind => ?_
  simp only [withNetworks, memberOf, List.map_cons, List.map_nil, List.mem_cons, List.not_mem_nil,
    or_false] at hnetwork
  rcases hnetwork with rfl | rfl | rfl | rfl
  · exact absurd hkind (by rw [kind_registered]; decide)
  · exact absurd hkind (by rw [kind_registered]; decide)
  · exact absurd hkind (by rw [kind_registered]; decide)
  · refine ⟨"f", rfl, fun other hother hotherKind _ => ?_⟩
    simp only [withNetworks, memberOf, List.map_cons, List.map_nil, List.mem_cons, List.not_mem_nil,
      or_false] at hother
    rcases hother with rfl | rfl | rfl | rfl
    · exact absurd hotherKind (by rw [kind_registered]; decide)
    · exact absurd hotherKind (by rw [kind_registered]; decide)
    · exact absurd hotherKind (by rw [kind_registered]; decide)
    · rfl

end Cleanup
