-- SUMMARY: Whether a created Twin is private, and what its metadata says of its origin.
import TwinServer.Plants.Creation
import TwinServer.Sharing.OwnersView

/-!
# Privacy of created Twins

The creation forces the flags of the entry `objectid`. The gate also reads the flags beside that
entry, and those are the caller's.
-/

open Js Js.Json ObjectId Sharing

namespace Plants

/-! ## Records that are written -/

theorem isPublic_written (v : Option Json) : isPublic (v.map written) = isPublic v := by
  rw [Bool.eq_iff_iff, isPublic_iff, isPublic_iff, Option.map_eq_some_iff]
  simp only [written_eq_string]
  simp

theorem isPublic_string {s : String} : isPublic (some (.string s)) ↔ s = "public" := by
  rw [isPublic_iff]
  simp

section
variable [Runtime]

theorem stringify_object_ne (m : Record Json) : stringify (.object m) ≠ "" := by
  intro h
  have htext := congrArg String.toList h
  rw [stringify, write] at htext
  simp at htext

/-! ## The metadata of the Twin -/

/-- A setting beside the entry `objectid` in the metadata that the caller gives. -/
def callerSetting (parse : String → Option Json) (input : Option Json) (k : String) : Option Json :=
  let body := asRecord input
  match metadata parse (coalesce (body.get? "mutableMetadata") (body.get? "mutable_metadata")) with
  | .ok m => m.get? k
  | .error _ => none

/-- The record says where the Twin comes from. -/
structure Names (context : CreationContext) (m : Record Json) : Prop where
  owner : m.get? "owner_did" = some (.string context.ownerDid)
  tenant : m.get? "tenant_id" = some (context.tenantId.elim .null .string)
  plant : m.get? "plant_id" = some (.string context.plantId)
  node : ∀ nodeId, context.nodeId = some nodeId →
    m.get? "nodeId" = some (.string nodeId) ∧ m.get? "twinscope_node_id" = some (.string nodeId)
  requester : m.get? "application_creator_did" = some (.string context.requesterDid)

/-- The context of a request whose assertion was verified. -/
structure CreationContext.Asserted (context : CreationContext) : Prop where
  source : context.source = .twinscope
  nodeId : ∃ nodeId, context.nodeId = some nodeId ∧ nodeId ≠ ""

/-- The Twin holds the metadata texts of the input it was created from. -/
structure Stores (fields safe : Record Json) : Prop where
  immutable : fields.get? "immutable_metadata" =
    some (.string (metadataValue (value safe ["immutableMetadata", "immutable_metadata"])))
  mutable_ : fields.get? "mutable_metadata" =
    some (.string (metadataValue (value safe ["mutableMetadata", "mutable_metadata"])))

variable {parse : String → Option Json} {body safe : Record Json} {accounting : AccountingContext}
  {context : CreationContext} {m : TwinMetadata}

omit [Runtime] in
theorem origin_nodup (context : CreationContext) : (context.origin.map Prod.fst).Nodup := by
  unfold CreationContext.origin
  split <;> simp

omit [Runtime] in
/-- What the context says is left as it is in a text. -/
theorem written_origin {e : String × Json} (he : e ∈ context.origin) : written e.2 = e.2 := by
  unfold CreationContext.origin at he
  rcases List.mem_append.mp he with hscope | hnode
  · simp only [List.mem_cons, List.not_mem_nil, or_false] at hscope
    rcases hscope with rfl | rfl | rfl | rfl | rfl
    case inr.inr.inl => cases context.tenantId <;> rfl
    all_goals rfl
  · split at hnode
    · cases hnode
    · cases hnode
    · simp only [List.mem_cons, List.not_mem_nil, or_false] at hnode
      rcases hnode with rfl | rfl <;> rfl

omit [Runtime] in
theorem names_of_origin {r : Record Json} (hasserted : context.Asserted)
    (h : ∀ e ∈ context.origin, r.get? e.1 = some e.2) : Names context r := by
  have hscope {e : String × Json} (he : e ∈ [("application_creator_did", Json.string context.requesterDid),
      ("owner_did", .string context.ownerDid), ("tenant_id", context.tenantId.elim .null .string),
      ("plant_id", .string context.plantId), ("creation_source", .string context.source.name)]) :
      r.get? e.1 = some e.2 := by
    apply h
    exact List.mem_append_left _ he
  constructor
  case owner => exact hscope (e := ("owner_did", _)) (.tail _ (.head _))
  case tenant => exact hscope (e := ("tenant_id", _)) (.tail _ (.tail _ (.head _)))
  case plant => exact hscope (e := ("plant_id", _)) (.tail _ (.tail _ (.tail _ (.head _))))
  case requester => exact hscope (e := ("application_creator_did", _)) (.head _)
  case node =>
    intro nodeId hnode
    have hne : nodeId ≠ "" := by
      obtain ⟨_, hnode', hne⟩ := hasserted.nodeId
      cases hnode.symm.trans hnode'
      exact hne
    have horigin {k : String} (hk : k ∈ ["nodeId", "twinscope_node_id"]) :
        (k, Json.string nodeId) ∈ context.origin := by
      unfold CreationContext.origin
      apply List.mem_append_right
      rw [hnode]
      simpa [hne] using hk
    exact ⟨h _ (horigin (.head _)), h _ (horigin (.tail _ (.head _)))⟩

omit [Runtime] in
/-- The immutable metadata names the context, whatever the caller's says. -/
theorem names_immutable (hasserted : context.Asserted)
    (h : twinMetadata parse body context = .ok m) : Names context (leftOf m.immutable) := by
  unfold twinMetadata at h
  obtain ⟨given, -, h⟩ := Except.bind_eq_ok.mp h
  obtain ⟨_, -, h⟩ := Except.bind_eq_ok.mp h
  obtain ⟨_, -, h⟩ := Except.bind_eq_ok.mp h
  obtain rfl := Except.ok.inj h
  apply names_of_origin hasserted
  intro e he
  rw [get?_leftOf, get?_assign_of_mem (origin_nodup context) he, Option.map_some, written_origin he]

omit [Runtime] in
/-- What the gate reads in the metadata: the flags that are forced, and the caller's beside them. -/
theorem flags_mutable {input : Option Json} (hbody : asRecord input = body)
    (h : twinMetadata parse body context = .ok m) :
    (publicFlags (leftOf m.mutable_)).twinPublic =
      (isPublic (some (.string (visibilityFor context body).visibility)) ||
        isPublic (callerSetting parse input "visibility")) ∧
    (publicFlags (leftOf m.mutable_)).dataPublic =
      ((publicFlags (leftOf m.mutable_)).twinPublic &&
        (isPublic (some (.string (visibilityFor context body).dataVisibility)) ||
          isPublic (callerSetting parse input "dataVisibility"))) := by
  unfold twinMetadata at h
  obtain ⟨_, -, h⟩ := Except.bind_eq_ok.mp h
  obtain ⟨given, hgiven, h⟩ := Except.bind_eq_ok.mp h
  obtain ⟨nested, -, h⟩ := Except.bind_eq_ok.mp h
  obtain rfl := Except.ok.inj h
  let entries := (visibilityFor context body).entries
  have hcaller (k : String) : callerSetting parse input k = given.get? k := by
    unfold callerSetting
    dsimp only
    rw [hbody, hgiven]
  have hentry (k : String) : (asRecord ((leftOf (given.set "objectid" (.object (assign nested entries)))).get?
      "objectid")).get? k = ((assign nested entries).get? k).map written := by
    rw [get?_leftOf, Record.get?_set, if_pos rfl]
    exact get?_leftOf _ k
  have hbeside {k : String} (hk : k ≠ "objectid") :
      (leftOf (given.set "objectid" (.object (assign nested entries)))).get? k =
        (given.get? k).map written := by
    rw [get?_leftOf, Record.get?_set, if_neg hk]
  have hforced {k : String} {v : Json} (hmem : (k, v) ∈ entries) :
      (assign nested entries).get? k = some v := by
    apply get?_assign_of_mem ?_ hmem
    simp [entries, Visibility.entries]
  constructor
  · unfold publicFlags
    dsimp only
    rw [hentry, hbeside (by decide), isPublic_written, isPublic_written, hcaller,
      hforced (.head _)]
  · unfold publicFlags
    dsimp only
    rw [hentry "dataVisibility", hbeside (k := "dataVisibility") (by decide), isPublic_written,
      isPublic_written (given.get? "dataVisibility"), hcaller, hforced (.tail _ (.head _))]

/-! ## The input of the Twin -/

omit [Runtime] in
theorem asRecord_of_record {input : Option Json} (h : record input = .ok body) :
    asRecord input = body := by
  unfold record at h
  split at h
  · exact Except.ok.inj h
  · cases h

/-- The created Twin holds the texts of its metadata. -/
theorem texts_of_create (h : create parse body accounting context = .ok safe) :
    ∃ m, twinMetadata parse body context = .ok m ∧
      metadataValue (value safe ["immutableMetadata", "immutable_metadata"]) =
        stringify (.object m.immutable) ∧
      metadataValue (value safe ["mutableMetadata", "mutable_metadata"]) =
        stringify (.object m.mutable_) := by
  unfold create at h
  obtain ⟨m, hm, h⟩ := Except.bind_eq_ok.mp h
  obtain rfl := Except.ok.inj h
  have hvalue {k k' : String} {s : String} (hk : k ≠ "immutable_metadata") (hk' : k ≠ "mutable_metadata")
      {entries : List (String × Json)} (hnodup : (entries.map Prod.fst).Nodup)
      (hmem : (k, Json.string s) ∈ entries) :
      metadataValue (value (((assign body entries).delete "immutable_metadata").delete
        "mutable_metadata") [k, k']) = s := by
    unfold value
    rw [List.findSome?_cons, Record.get?_delete, if_neg hk', Record.get?_delete, if_neg hk,
      get?_assign_of_mem hnodup hmem]
    rfl
  refine ⟨m, hm, ?_, ?_⟩
  · apply hvalue (by decide) (by decide) (by simp [Visibility.entries])
    simp
  · apply hvalue (by decide) (by decide) (by simp [Visibility.entries])
    simp

theorem create_of_delegated {w : Surroundings} {input : Option Json}
    {connection : Option AccountingContext} (h : delegated w input context connection = .ok safe) :
    ∃ accounting, create w.parse (asRecord input) accounting context = .ok safe := by
  unfold delegated at h
  obtain ⟨accounting, -, h⟩ := Except.bind_eq_ok.mp h
  obtain ⟨body, hbody, h⟩ := Except.bind_eq_ok.mp h
  exact ⟨accounting, asRecord_of_record hbody ▸ h⟩

theorem create_of_personal {w : Surroundings} {defaultId : String} {input : Option Json}
    {subject : Option String} {owner : Option AccountingContext}
    (h : personal w defaultId input subject owner = .ok safe) :
    ∃ accounting context, context.source = .dt ∧
      create w.parse (asRecord input) accounting context = .ok safe := by
  unfold personal at h
  split at h
  · cases h
  · rename_i accounting
    split at h
    · cases h
    · obtain ⟨_, -, h⟩ := Except.bind_eq_ok.mp h
      obtain ⟨body, hbody, h⟩ := Except.bind_eq_ok.mp h
      dsimp only at h
      split at h
      · obtain ⟨plants, -, h⟩ := Except.bind_eq_ok.mp h
        split at h
        · cases h
        · split at h
          · cases h
          · exact ⟨accounting, _, rfl, asRecord_of_record hbody ▸ h⟩
      · cases h

variable {o : SharingOptions} {twin : Json} {fields : Record Json}

/-- The readers of the created Twin find the metadata that it was created with. -/
theorem read_of_create (hreads : Reads parse) (hparse : o.parseJson = parse)
    (htwin : IsTwin o twin fields) (hstores : Stores fields safe)
    (h : create parse body accounting context = .ok safe) :
    ∃ m, twinMetadata parse body context = .ok m ∧
      objectIdTwinPublicAccess o twin = publicFlags (leftOf m.mutable_) ∧
      parseMetadata o (fields.get? "immutable_metadata") = leftOf m.immutable := by
  obtain ⟨m, hm, himmutable, hmutable⟩ := texts_of_create h
  have hread (r : Record Json) : o.parseJson (stringify (.object r)) = some (.object (leftOf r)) := by
    rw [hparse, hreads]
    rfl
  refine ⟨m, hm, ?_, ?_⟩
  · apply objectIdTwinPublicAccess_eq htwin
    rw [hstores.mutable_, hmutable]
    exact .text (stringify_object_ne _) (hread _)
  · rw [hstores.immutable, himmutable]
    simp [parseMetadata, hread, asRecord]

/-! ## Privacy -/

/-- The Twin is public only when the body asks for it, and so is its data. -/
structure AsAsked (body : Record Json) (access : PublicAccess) : Prop where
  twin : access.twinPublic → isPublic (body.get? "visibility")
  data : access.dataPublic → isPublic (body.get? "visibility") ∧ isPublic (body.get? "dataVisibility")

omit [Runtime] in
theorem visibilityFor_delegated (hsource : context.source = .twinscope) (body : Record Json) :
    visibilityFor context body = ⟨"private", "private", "private"⟩ := by
  simp [visibilityFor, hsource]

omit [Runtime] in
theorem visibilityFor_personal (hsource : context.source = .dt) (body : Record Json) :
    (isPublic (some (.string (visibilityFor context body).visibility)) =
      isPublic (body.get? "visibility")) ∧
    (isPublic (some (.string (visibilityFor context body).dataVisibility)) =
      (isPublic (body.get? "visibility") && isPublic (body.get? "dataVisibility"))) := by
  have hprivate : isPublic (some (.string "private")) = false := by decide
  have hpublic : isPublic (some (.string "public")) = true := by decide
  unfold visibilityFor
  rw [hsource]
  cases isPublic (body.get? "visibility") with
  | false => simp [hprivate]
  | true => cases isPublic (body.get? "dataVisibility") <;> simp [hprivate, hpublic]

/-- A Twin that was created on the delegated path is private, and its metadata names the context,
exactly when the caller's metadata does not say `public` beside the entry `objectid`. One of the
personal path is as public as the body asks exactly when those settings ask for no more. -/
theorem created_asAsked {w : Surroundings} {input : Option Json} (hreads : Reads w.parse)
    (hparse : o.parseJson = w.parse) (htwin : IsTwin o twin fields) (hstores : Stores fields safe) :
    (∀ {connection}, context.Asserted → delegated w input context connection = .ok safe →
      (objectIdTwinPublicAccess o twin = .none ∧
          Names context (parseMetadata o (fields.get? "immutable_metadata")) ↔
        ¬ isPublic (callerSetting w.parse input "visibility"))) ∧
    (∀ {defaultId subject owner}, personal w defaultId input subject owner = .ok safe →
      (AsAsked (asRecord input) (objectIdTwinPublicAccess o twin) ↔
        (isPublic (callerSetting w.parse input "visibility") →
          isPublic ((asRecord input).get? "visibility")) ∧
        (isPublic ((asRecord input).get? "visibility") →
          isPublic (callerSetting w.parse input "dataVisibility") →
          isPublic ((asRecord input).get? "dataVisibility")))) := by
  constructor
  · intro connection hasserted h
    obtain ⟨accounting, h⟩ := create_of_delegated h
    obtain ⟨m, hm, haccess, himmutable⟩ := read_of_create hreads hparse htwin hstores h
    have hnames : Names context (parseMetadata o (fields.get? "immutable_metadata")) :=
      himmutable ▸ names_immutable hasserted hm
    have hflag := (flags_mutable rfl hm).1
    rw [visibilityFor_delegated hasserted.source] at hflag
    have hprivate : isPublic (some (.string "private")) = false := by decide
    rw [hprivate, Bool.false_or] at hflag
    rw [haccess, ← hflag]
    constructor
    · rintro ⟨hnone, -⟩
      rw [hnone]
      exact Bool.false_ne_true
    · intro hflag
      refine ⟨?_, hnames⟩
      -- without the first flag there is no other
      have htwin : (publicFlags (leftOf m.mutable_)).twinPublic = false := Bool.eq_false_of_not_eq_true hflag
      unfold publicFlags at htwin ⊢
      dsimp only at htwin ⊢
      rw [htwin]
      rfl
  · intro defaultId subject owner h
    obtain ⟨accounting, context, hsource, h⟩ := create_of_personal h
    obtain ⟨m, hm, haccess, -⟩ := read_of_create hreads hparse htwin hstores h
    obtain ⟨hvisible, hdata⟩ := flags_mutable rfl hm
    obtain ⟨hasked, haskedData⟩ := visibilityFor_personal hsource (asRecord input)
    rw [hasked] at hvisible
    rw [haskedData, hvisible] at hdata
    rw [haccess]
    constructor
    · rintro ⟨htwin, hdata'⟩
      rw [hvisible] at htwin
      rw [hdata] at hdata'
      constructor
      · intro hcaller
        apply htwin
        simp [hcaller]
      · intro hbody hcaller
        refine (hdata' ?_).2
        simp [hbody, hcaller]
    · rintro ⟨htwin, hdata'⟩
      constructor
      · intro hpublic
        rw [hvisible, Bool.or_eq_true] at hpublic
        exact hpublic.elim id htwin
      · intro hpublic
        rw [hdata] at hpublic
        simp only [Bool.and_eq_true, Bool.or_eq_true] at hpublic
        have hbody := hpublic.1.elim id htwin
        exact ⟨hbody, hpublic.2.elim And.right (hdata' hbody)⟩

end

/-! ## A sample -/

noncomputable def sampleSurroundings : Surroundings where
  parse := @readBack Runtime.exact
  accounting := some sampleAccounting
  subscription := some (.ok sampleSubscription)
  plants := .ok [samplePlant]

/-- A request with the metadata. -/
def sampleRequest (mutable_ : Record Json) : Option Json :=
  some (.object [("name", .string "pump"), ("mutableMetadata", .object mutable_)])

/-- The metadata of a Twin that holds the texts of the input. -/
def storedFields (safe : Record Json) : Record Json :=
  [("immutable_metadata", .string (@metadataValue Runtime.exact
      (value safe ["immutableMetadata", "immutable_metadata"]))),
    ("mutable_metadata", .string (@metadataValue Runtime.exact
      (value safe ["mutableMetadata", "mutable_metadata"])))]

def storedTwin (safe : Record Json) : Json :=
  .object [("data", .object [("type", .string "0x2::oid_twin::OIDTwin"),
    ("content", .object [("fields", .object (storedFields safe))])])]

noncomputable def storedOptions : SharingOptions where
  network := "testnet"
  packageId := "0x2"
  accessPackageId := none
  publicUrl := ""
  parseJson := @readBack Runtime.exact

theorem isTwin_stored (safe : Record Json) :
    @IsTwin Runtime.exact storedOptions (storedTwin safe) (storedFields safe) := by
  let runtime : Runtime := Runtime.exact
  exact ⟨⟨_, rfl, by decide, by decide, rfl⟩, rfl⟩

theorem stores_stored (safe : Record Json) : @Stores Runtime.exact (storedFields safe) safe := by
  let runtime : Runtime := Runtime.exact
  exact ⟨rfl, rfl⟩

theorem asserted_sample : sampleContext.Asserted := ⟨rfl, "n1", rfl, by decide⟩

/-- A request passes the checks, whatever the metadata are. -/
theorem delegated_sample (mutable_ : Record Json) :
    @delegated Runtime.exact sampleSurroundings (sampleRequest mutable_) sampleContext none =
      @create Runtime.exact sampleSurroundings.parse [("name", .string "pump"), ("mutableMetadata", .object mutable_)]
        sampleAccounting sampleContext :=
  @delegated_of_checks Runtime.exact _ _ _ _ _ _ _ rfl (@subscription_sample Runtime.exact) rfl checkPlant_sample rfl

/-- The Twin of a request with a setting in the entry is private. -/
theorem created_asAsked_nested :
    ∃ safe, @delegated Runtime.exact sampleSurroundings
      (sampleRequest [("objectid", .object [("visibility", .string "public")])]) sampleContext none =
        .ok safe ∧
      @objectIdTwinPublicAccess Runtime.exact storedOptions (storedTwin safe) = .none := by
  let runtime : Runtime := Runtime.exact
  let numbers : @NumberText Runtime.exact := numberText_exact
  obtain ⟨safe, hsafe⟩ : ∃ safe, delegated sampleSurroundings
      (sampleRequest [("objectid", .object [("visibility", .string "public")])]) sampleContext none = .ok safe :=
    ⟨_, (delegated_sample _).trans rfl⟩
  refine ⟨safe, hsafe, ?_⟩
  have hiff := (created_asAsked reads_readBack rfl (isTwin_stored safe) (stores_stored safe)).1
    asserted_sample hsafe
  exact (hiff.mpr (by decide)).1

/-- The Twin of a request with the setting beside the entry is public. -/
theorem created_public_beside :
    ∃ safe, @delegated Runtime.exact sampleSurroundings
      (sampleRequest [("visibility", .string "public")]) sampleContext none = .ok safe ∧
      (@objectIdTwinPublicAccess Runtime.exact storedOptions (storedTwin safe)).twinPublic := by
  let runtime : Runtime := Runtime.exact
  let numbers : @NumberText Runtime.exact := numberText_exact
  obtain ⟨safe, hsafe⟩ : ∃ safe, delegated sampleSurroundings (sampleRequest [("visibility", .string "public")])
      sampleContext none = .ok safe :=
    ⟨_, (delegated_sample _).trans rfl⟩
  refine ⟨safe, hsafe, ?_⟩
  obtain ⟨accounting, hcreate⟩ := create_of_delegated hsafe
  obtain ⟨m, hm, haccess, -⟩ :=
    read_of_create reads_readBack rfl (isTwin_stored safe) (stores_stored safe) hcreate
  rw [haccess, (flags_mutable rfl hm).1]
  exact Bool.or_eq_true_iff.mpr (.inr (by decide))

end Plants
