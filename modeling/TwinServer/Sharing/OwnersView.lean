-- SUMMARY: When the sharing that the owner is shown is the sharing that anonymous requests are given.
import TwinServer.Base.Serial
import TwinServer.Sharing.PublicAccess

/-!
# The owner's view

The gate takes a setting for public when it is public in the entry `objectid` or beside it. The
owner's view reads the visibility and the location from the entry alone, and the data mode from the
entry before it looks beside it.
-/

open Js Js.Json

namespace Sharing

/-! ## Twins and their metadata -/

section
variable [Runtime] (o : SharingOptions)

/-- The object of a Twin of the package, with its fields. -/
structure IsTwin (twin : Json) (fields : Record Json) : Prop where
  type : ∃ t, (twin.get? "data").bind (·.get? "type") = some (.string t) ∧ trim t = t ∧ t ≠ "" ∧
    toLowerCase t = toLowerCase (o.packageId ++ "::oid_twin::OIDTwin")
  fields : ((twin.get? "data").bind (·.get? "content")).bind (·.get? "fields") = some (.object fields)

omit [Runtime] in
/-- The field holds a metadata object, as a text or as such. -/
inductive Carries : Option Json → Record Json → Prop
  | object (m : Record Json) : Carries (some (.object m)) m
  | text {s : String} {m : Record Json} (hs : s ≠ "") (hparse : o.parseJson s = some (.object m)) :
    Carries (some (.string s)) m
  | empty (hempty : o.parseJson "" = none) (hparse : o.parseJson "\x7b\x7d" = some (.object [])) :
    Carries (some (.string "")) []

end

/-- The entry `objectid`. -/
def nestedOf (m : Record Json) : Record Json := asRecord (m.get? "objectid")

/-- The property is missing or `null`. -/
def unset (v : Option Json) : Bool := (coalesce v none).isNone

/-- The location policy that counts, when there is one. -/
def locationSetting (m : Record Json) : Option Json :=
  coalesce ((nestedOf m).get? "liveLocationVisibility") (m.get? "liveLocationVisibility")

/-- The entry says that the Twin is public and does not keep the data back. -/
def DataAgrees (m : Record Json) : Prop :=
  isPublic ((nestedOf m).get? "visibility") ∧
    (unset ((nestedOf m).get? "dataVisibility") ∨ isPublic ((nestedOf m).get? "dataVisibility"))

/-- The entry says that the Twin is public, and it decides about the location, unless nothing does and
the data is public. -/
def LocationAgrees (m : Record Json) : Prop :=
  isPublic ((nestedOf m).get? "visibility") ∧
    (isPublic ((nestedOf m).get? "liveLocationVisibility") ∨ unset (locationSetting m) ∧ DataAgrees m)

/-- The metadata is a record whose entry `objectid` is one, if it is there. -/
def NestedRecord (m : Record Json) : Prop :=
  unset (m.get? "objectid") ∨ ∃ fields, m.get? "objectid" = some (.object fields)

theorem isPublic_iff {v : Option Json} : isPublic v ↔ v = some (.string "public") := by
  unfold isPublic
  cases v with
  | none => simp
  | some v =>
    cases v with
    | string s => simp [strictEq]
    | null => simp [strictEq]
    | bool b => simp [strictEq]
    | number x => simp [strictEq]
    | array items => simp [strictEq]
    | object fields => simp [strictEq]

theorem coalesce_of_unset {v w : Option Json} (h : unset v) : coalesce v w = w := by
  unfold unset at h
  cases v with
  | none => rfl
  | some v =>
    cases v with
    | null => rfl
    | bool b => cases h
    | number x => cases h
    | string s => cases h
    | array items => cases h
    | object fields => cases h

theorem coalesce_of_set {v w : Option Json} (h : unset v = false) : coalesce v w = v := by
  unfold unset at h
  cases v with
  | none => cases h
  | some v =>
    cases v with
    | null => cases h
    | bool b => rfl
    | number x => rfl
    | string s => rfl
    | array items => rfl
    | object fields => rfl

theorem coalesce_object (fields : Record Json) (w : Option Json) :
    coalesce (some (.object fields)) w = some (.object fields) := rfl

theorem unset_of_isPublic {v : Option Json} (h : isPublic v) : unset v = false := by
  rw [isPublic_iff.mp h]
  rfl

/-- An entry with a property is a record. -/
theorem nestedRecord_of_isPublic {m : Record Json} {k : String}
    (h : isPublic ((nestedOf m).get? k)) : NestedRecord m := by
  unfold nestedOf asRecord at h
  split at h
  · rename_i fields hfields
    exact .inr ⟨fields, hfields⟩
  · cases h

/-- The owner is told `public` exactly for that mode. -/
theorem modeName_iff (v : Option Json) :
    (match asString? v with
      | some mode => if mode = "public" ∨ mode = "restricted" then mode else "private"
      | none => "private") = "public" ↔ v = some (.string "public") := by
  have hprivate : ¬ "private" = "public" := by decide
  cases v with
  | none => exact iff_of_false hprivate fun h => by cases h
  | some v =>
    cases v with
    | string s =>
      simp only [asString?, Option.some.injEq, Json.string.injEq]
      split
      case isTrue => exact Iff.rfl
      case isFalse hneither => exact iff_of_false hprivate fun h => hneither (.inl h)
    | _ => exact iff_of_false hprivate fun h => by cases h

theorem publicOrPrivate_iff {v : Option Json} : publicOrPrivate v = "public" ↔ isPublic v := by
  unfold publicOrPrivate
  split <;> simp [*]

section
variable [Runtime] {o : SharingOptions} {twin : Json} {fields m : Record Json}
  {answer content : Option Json} {did : String}

/-! ## What the gate reads -/

omit [Runtime] in
theorem Carries.parseMetadata {v : Option Json} (h : Carries o v m) (w : Option Json) :
    parseMetadata o (coalesce v w) = m := by
  cases h with
  | object => rfl
  | text hs hparse => simp [coalesce, Sharing.parseMetadata, hparse, asRecord]
  | empty hempty hparse => simp [coalesce, Sharing.parseMetadata, hempty, asRecord]

omit [Runtime] in
theorem bind_get? (v : Option Json) (k : String) : v.bind (·.get? k) = (asRecord v).get? k := by
  cases v with
  | none => rfl
  | some v => cases v <;> rfl

/-- The gate reads the flags of the metadata. -/
theorem objectIdTwinPublicAccess_eq (htwin : IsTwin o twin fields)
    (hcarries : Carries o (fields.get? "mutable_metadata") m) :
    objectIdTwinPublicAccess o twin = publicFlags m := by
  have hdata (k : String) : (twin.get? "data").bind (·.get? k) =
      (asRecord ((asRecord (some twin)).get? "data")).get? k := by
    rw [bind_get?, ← bind_get? (some twin)]
    rfl
  obtain ⟨t, ht, htrim, hne, hname⟩ := htwin.type
  obtain ⟨content, hcontent, hfields⟩ := Option.bind_eq_some_iff.mp htwin.fields
  have hcoalesce : coalesce (some content) ((asRecord (some twin)).get? "content") = some content := by
    cases content with
    | null => cases hfields
    | _ => rfl
  have hget : (asRecord (some content)).get? "fields" = some (.object fields) := by
    rw [← bind_get?]
    exact hfields
  have htype (w : Option Json) : trimmedString (coalesce (some (.string t)) w) = t := htrim
  unfold objectIdTwinPublicAccess
  dsimp only
  rw [← hdata, ← hdata, ht, htype, if_neg (by simp [hne, hname]), hcontent, hcoalesce, hget,
    coalesce_object]
  exact congrArg publicFlags (hcarries.parseMetadata _)

theorem twinFields_of_isTwin (htwin : IsTwin o twin fields) : twinFields o twin = .ok (.object fields) := by
  obtain ⟨t, ht, -, -, hname⟩ := htwin.type
  have hfields : fieldsOf twin = .object fields := by
    unfold fieldsOf
    dsimp only
    rw [htwin.fields]
    rfl
  unfold twinFields
  dsimp only
  rw [ht]
  simp only [coalesce, stringOf, toString?, conversion, hfields]
  show (if toLowerCase t = _ then _ else _) = _
  rw [if_pos hname]
  rfl

theorem chainAccess_eq_none (htwin : IsTwin o twin fields)
    (hchain : chainPolicy o (.object fields) answer = .ok none) :
    chainAccess o twin answer = .ok none := by
  have hfields : fieldsOf twin = .object fields := by
    unfold fieldsOf
    dsimp only
    rw [htwin.fields]
    rfl
  have hpolicy : chainPolicyOf o twin answer = .ok none := by
    unfold chainPolicyOf
    cases o.accessPackageId with
    | none =>
      show chainPolicy o (fieldsOf twin) answer = _
      rw [hfields, hchain]
    | some id =>
      show (twinFields o twin >>= fun fields => chainPolicy o fields answer) = _
      rw [twinFields_of_isTwin htwin]
      exact hchain
  unfold chainAccess
  rw [hpolicy]
  rfl

/-- The gate admits only what it reads in the metadata. -/
theorem admits_of_assert (htwin : IsTwin o twin fields)
    (hcarries : Carries o (fields.get? "mutable_metadata") m)
    (hchain : chainPolicy o (.object fields) answer = .ok none) {rawTwinId : Option Json}
    {kind : AccessKind} {twinId : String}
    (h : assertPublicTwinAccess o rawTwinId kind twin answer content none = .ok twinId) :
    (publicFlags m).admits kind ∧ ∃ saved, stored content = .ok saved := by
  unfold assertPublicTwinAccess at h
  obtain ⟨text, -, h⟩ := Except.bind_eq_ok.mp h
  obtain ⟨_, -, h⟩ := Except.bind_eq_ok.mp h
  rw [chainAccess_eq_none htwin hchain] at h
  obtain ⟨chain, hnone, h⟩ := Except.bind_eq_ok.mp h
  obtain rfl := Except.ok.inj hnone
  obtain ⟨blocked, hblocked, h⟩ := Except.bind_eq_ok.mp h
  obtain ⟨_, -, h⟩ := Except.bind_eq_ok.mp h
  obtain ⟨_, hadmits, -⟩ := Except.bind_eq_ok.mp h
  rw [throwIf_eq_ok, Bool.not_eq_false', Option.getD_none,
    objectIdTwinPublicAccess_eq htwin hcarries] at hadmits
  constructor
  · exact hadmits
  · unfold blocksPublic at hblocked
    rw [chainAccess_eq_none htwin hchain] at hblocked
    obtain ⟨chain, hnone, hblocked⟩ := Except.bind_eq_ok.mp hblocked
    obtain rfl := Except.ok.inj hnone
    obtain ⟨saved, hsaved, -⟩ := Except.bind_eq_ok.mp hblocked
    exact ⟨saved, hsaved⟩

/-! ## What the owner is told -/

omit [Runtime] in
/-- What `metadata` makes of a metadata object. -/
theorem metadata_of_carries {v : Option Json} (h : Carries o v m) :
    metadata o v = match coalesce (m.get? "objectid") none with
      | none | some (.object _) => .ok (.object m)
      | some _ => fail "Invalid Twin metadata" 422 := by
  unfold metadata
  cases h with
  | object => rfl
  | text hs hparse =>
    dsimp only
    rw [if_neg hs, hparse] <;> rfl
  | empty hempty hparse =>
    dsimp only
    rw [if_pos rfl, hparse] <;> rfl

omit [Runtime] in
theorem metadata_of_nestedRecord {v : Option Json} (h : Carries o v m) (hm : NestedRecord m) :
    metadata o v = .ok (.object m) := by
  rw [metadata_of_carries h]
  rcases hm with hunset | ⟨nested, hnested⟩
  · rw [coalesce_of_unset hunset]
  · rw [hnested, coalesce_object]

omit [Runtime] in
theorem nestedRecord_of_metadata {v : Option Json} {x : Json} (h : Carries o v m)
    (hx : metadata o v = .ok x) : NestedRecord m := by
  rw [metadata_of_carries h] at hx
  cases hunset : unset (m.get? "objectid") with
  | true => exact .inl hunset
  | false =>
    rw [coalesce_of_set hunset] at hx
    split at hx
    · rename_i hnone
      rw [hnone] at hunset
      cases hunset
    · rename_i fields hfields
      exact .inr ⟨fields, hfields⟩
    · cases hx

/-- The owner's view is refused when the entry is there and no record. -/
theorem nestedRecord_of_policy (htwin : IsTwin o twin fields)
    (hcarries : Carries o (fields.get? "mutable_metadata") m)
    (hchain : chainPolicy o (.object fields) answer = .ok none) {view : PolicyView}
    (h : policy o did twin answer content = .ok view) : NestedRecord m := by
  unfold policy at h
  rw [twinFields_of_isTwin htwin] at h
  obtain ⟨_, hfields, h⟩ := Except.bind_eq_ok.mp h
  obtain rfl := Except.ok.inj hfields
  obtain ⟨_, -, h⟩ := Except.bind_eq_ok.mp h
  rw [hchain] at h
  obtain ⟨_, hnone, h⟩ := Except.bind_eq_ok.mp h
  obtain rfl := Except.ok.inj hnone
  obtain ⟨x, hx, -⟩ := Except.bind_eq_ok.mp h
  exact nestedRecord_of_metadata hcarries hx

/-- The owner's view of metadata with a record as its entry. -/
theorem policy_of_nestedRecord (htwin : IsTwin o twin fields)
    (hcarries : Carries o (fields.get? "mutable_metadata") m) (hm : NestedRecord m)
    (hchain : chainPolicy o (.object fields) answer = .ok none)
    (howner : manage o did (.object fields) = .ok ()) {saved : Option StoredPolicy}
    (hsaved : stored content = .ok saved) :
    ∃ view, policy o did twin answer content = .ok view ∧
      view.visibility = publicOrPrivate ((nestedOf m).get? "visibility") ∧
      view.liveLocationVisibility = publicOrPrivate ((nestedOf m).get? "liveLocationVisibility") ∧
      (view.mode = "public" ↔ isPublic (coalesce ((nestedOf m).get? "dataVisibility")
        (m.get? "dataVisibility"))) := by
  obtain ⟨owner, howner'⟩ : ∃ owner, lowerField (.object fields) "owner_did" = .ok owner := by
    unfold manage at howner
    obtain ⟨text, htext, -⟩ := Except.bind_eq_ok.mp howner
    have hstring : ∃ s, stringOf ((Json.object fields).get? "owner_did") = some s := by
      unfold stringOf
      split
      · exact ⟨_, rfl⟩
      · rename_i v hv
        rw [hv, conversion_eq_ok] at htext
        cases v with
        | null => exact ⟨_, rfl⟩
        | _ => exact ⟨text, htext⟩
    obtain ⟨s, hs⟩ := hstring
    exact ⟨toLowerCase s, by rw [lowerField, hs]; rfl⟩
  have hmode : dataVisibility (.object m) =
      coalesce ((nestedOf m).get? "dataVisibility") (m.get? "dataVisibility") := by
    unfold dataVisibility
    rw [bind_get?]
    rfl
  have hmetadata : metadata o ((Json.object fields).get? "mutable_metadata") = .ok (.object m) :=
    metadata_of_nestedRecord hcarries hm
  simp only [policy, twinFields_of_isTwin htwin, howner, hchain, hmetadata, hsaved, storedView, howner',
    bind, Except.bind, hmode]
  refine ⟨_, rfl, rfl, rfl, ?_⟩
  rw [isPublic_iff]
  exact modeName_iff _

/-! ## Agreement -/

/-- The owner is told that the Twin and its data are public. -/
def TellsData (o : SharingOptions) (did : String) (twin : Json) (answer content : Option Json) : Prop :=
  ∃ view, policy o did twin answer content = .ok view ∧ view.visibility = "public" ∧
    view.mode = "public"

/-- The owner is told that the Twin is public, and that its location is, or that its data is when the
metadata has no setting of the location. -/
def TellsLocation (o : SharingOptions) (did : String) (twin : Json) (answer content : Option Json)
    (m : Record Json) : Prop :=
  ∃ view, policy o did twin answer content = .ok view ∧ view.visibility = "public" ∧
    (view.liveLocationVisibility = "public" ∨ unset (locationSetting m) ∧ view.mode = "public")

variable {rawTwinId : Option Json} {twinId : String}

omit [Runtime] in
theorem dataAgrees_of_public (hvisibility : isPublic ((nestedOf m).get? "visibility"))
    (hdata : isPublic (coalesce ((nestedOf m).get? "dataVisibility") (m.get? "dataVisibility"))) :
    DataAgrees m := by
  refine ⟨hvisibility, ?_⟩
  cases hunset : unset ((nestedOf m).get? "dataVisibility") with
  | true => exact .inl rfl
  | false =>
    rw [coalesce_of_set hunset] at hdata
    exact .inr hdata

omit [Runtime] in
/-- The mode of the entry counts, and the one beside it when the entry has none. -/
theorem public_of_dataAgrees (h : DataAgrees m) (hdata : (publicFlags m).dataPublic) :
    isPublic (coalesce ((nestedOf m).get? "dataVisibility") (m.get? "dataVisibility")) := by
  rcases h.2 with hunset | hpublic
  · rw [coalesce_of_unset hunset]
    simp only [publicFlags, Bool.and_eq_true, Bool.or_eq_true] at hdata
    rcases hdata.2 with hnested | hbeside
    · have hset : unset ((nestedOf m).get? "dataVisibility") = false := unset_of_isPublic hnested
      rw [hset] at hunset
      cases hunset
    · exact hbeside
  · rw [coalesce_of_set (unset_of_isPublic hpublic)]
    exact hpublic

omit [Runtime] in
/-- Without a setting, a location is public because the data is. -/
theorem dataPublic_of_unset (hlocation : (publicFlags m).liveLocationPublic)
    (hunset : unset (locationSetting m)) : (publicFlags m).dataPublic := by
  have hlive : (publicFlags m).liveLocationPublic = ((publicFlags m).twinPublic &&
      (isPublic (locationSetting m) || (unset (locationSetting m) && (publicFlags m).dataPublic))) := rfl
  rw [hlive, hunset, Bool.and_eq_true, Bool.or_eq_true, Bool.true_and] at hlocation
  rcases hlocation.2 with hpublic | hdata
  · have hset := unset_of_isPublic hpublic
    rw [hunset] at hset
    cases hset
  · exact hdata

/-- When the gate admits a request to the data, the owner is told so exactly when the entry of the
metadata says that the Twin is public and does not keep the data back; when it admits one to the
location, exactly when the entry says that the Twin is public and decides about the location. -/
theorem ownersView_agrees (htwin : IsTwin o twin fields)
    (hcarries : Carries o (fields.get? "mutable_metadata") m)
    (hchain : chainPolicy o (.object fields) answer = .ok none)
    (howner : manage o did (.object fields) = .ok ()) :
    (assertPublicTwinAccess o rawTwinId .data twin answer content none = .ok twinId →
      (TellsData o did twin answer content ↔ DataAgrees m)) ∧
    (assertPublicTwinAccess o rawTwinId .location twin answer content none = .ok twinId →
      (TellsLocation o did twin answer content m ↔ LocationAgrees m)) := by
  constructor
  · intro hadmitted
    obtain ⟨hflags, saved, hsaved⟩ := admits_of_assert htwin hcarries hchain hadmitted
    have hdata : (publicFlags m).dataPublic := by
      simp only [PublicAccess.admits, Bool.and_eq_true, Bool.or_eq_true] at hflags
      simpa using hflags.1.2
    constructor
    · rintro ⟨view, hview, hvisibility, hmode⟩
      have hm := nestedRecord_of_policy htwin hcarries hchain hview
      obtain ⟨view', hview', hvisible, -, hpublic⟩ :=
        policy_of_nestedRecord htwin hcarries hm hchain howner hsaved
      obtain rfl := Except.ok.inj (hview.symm.trans hview')
      apply dataAgrees_of_public
      · exact publicOrPrivate_iff.mp (hvisible.symm.trans hvisibility)
      · exact hpublic.mp hmode
    · intro hagrees
      have hm := nestedRecord_of_isPublic hagrees.1
      obtain ⟨view, hview, hvisible, -, hpublic⟩ :=
        policy_of_nestedRecord htwin hcarries hm hchain howner hsaved
      refine ⟨view, hview, ?_, ?_⟩
      · exact hvisible.trans (publicOrPrivate_iff.mpr hagrees.1)
      · exact hpublic.mpr (public_of_dataAgrees hagrees hdata)
  · intro hadmitted
    obtain ⟨hflags, saved, hsaved⟩ := admits_of_assert htwin hcarries hchain hadmitted
    have hlocation : (publicFlags m).liveLocationPublic := by
      simp only [PublicAccess.admits, Bool.and_eq_true, Bool.or_eq_true] at hflags
      simpa using hflags.2
    constructor
    · rintro ⟨view, hview, hvisibility, hlive⟩
      have hm := nestedRecord_of_policy htwin hcarries hchain hview
      obtain ⟨view', hview', hvisible, hlocated, hpublic⟩ :=
        policy_of_nestedRecord htwin hcarries hm hchain howner hsaved
      obtain rfl := Except.ok.inj (hview.symm.trans hview')
      have hentry : isPublic ((nestedOf m).get? "visibility") :=
        publicOrPrivate_iff.mp (hvisible.symm.trans hvisibility)
      refine ⟨hentry, hlive.imp (fun h => ?_) fun ⟨hunset, hmode⟩ => ⟨hunset, ?_⟩⟩
      · exact publicOrPrivate_iff.mp (hlocated.symm.trans h)
      · exact dataAgrees_of_public hentry (hpublic.mp hmode)
    · rintro ⟨hentry, hlive⟩
      have hm := nestedRecord_of_isPublic hentry
      obtain ⟨view, hview, hvisible, hlocated, hpublic⟩ :=
        policy_of_nestedRecord htwin hcarries hm hchain howner hsaved
      refine ⟨view, hview, hvisible.trans (publicOrPrivate_iff.mpr hentry),
        hlive.imp (fun h => ?_) fun ⟨hunset, hagrees⟩ => ⟨hunset, ?_⟩⟩
      · exact hlocated.trans (publicOrPrivate_iff.mpr h)
      · apply hpublic.mpr
        apply public_of_dataAgrees hagrees
        exact dataPublic_of_unset hlocation hunset

end

/-! ## A sample -/

/-- The settings of an older Twin, beside the entry. -/
def legacySettings : Record Json :=
  [("visibility", .string "public"), ("dataVisibility", .string "public")]

/-- The same settings in the entry. -/
def nestedSettings : Record Json := [("objectid", .object legacySettings)]

def sampleOwner : String := "did:iota:testnet:" ++ objectId '1'

def sampleFields (m : Record Json) : Record Json :=
  [("owner_did", .string sampleOwner),
    ("mutable_metadata", .string (@stringify Runtime.ascii (.object m)))]

def sampleTwin (m : Record Json) : Json :=
  .object [("data", .object [("type", .string "0x2::oid_twin::OIDTwin"),
    ("content", .object [("fields", .object (sampleFields m))])])]

/-- The options of a server whose parser knows the text of the metadata. -/
def sampleOptions (m : Record Json) : SharingOptions where
  network := "testnet"
  packageId := "0x2"
  accessPackageId := none
  publicUrl := ""
  parseJson s := if s = @stringify Runtime.ascii (.object m) then some (.object m) else none

theorem isTwin_sample (m : Record Json) :
    @IsTwin Runtime.ascii (sampleOptions m) (sampleTwin m) (sampleFields m) := by
  let runtime : Runtime := Runtime.ascii
  exact ⟨⟨_, rfl, by decide, by decide, rfl⟩, rfl⟩

theorem carries_sample (m : Record Json) (h : @stringify Runtime.ascii (.object m) ≠ "") :
    Carries (sampleOptions m) ((sampleFields m).get? "mutable_metadata") m :=
  .text h (if_pos rfl)

theorem manage_sample [Runtime] (m : Record Json) :
    manage (sampleOptions m) sampleOwner (.object (sampleFields m)) = .ok () := by
  have hid : isObjectId (objectId '1') := isObjectId_objectId rfl
  have hnetwork : ∀ c ∈ (sampleOptions m).network.toList, isAscii c ∧ c.toLower = c :=
    ascii_of_all (s := "testnet") (by decide)
  have howner : sampleOwner = didPrefix (sampleOptions m).network ++ objectId '1' := by
    have hprefix : didPrefix "testnet" = "did:iota:testnet:" := by decide
    exact congrArg (· ++ objectId '1') hprefix.symm
  have hdid := didOf_append (sampleOptions m) hid hnetwork
  have hlower := toLowerCase_did hid hnetwork
  rw [← howner] at hdid hlower
  exact manage_owner hdid hlower rfl

/-- An object id in lower case is none that is refused. -/
theorem assertPublicTwinAccess_objectId [Runtime] {o : SharingOptions} {id : String} {kind : AccessKind} {twin : Json}
    (hid : isObjectId id) (hchain : chainAccess o twin none = .ok none)
    (hblocks : blocksPublic o twin none none kind = .ok false) (hadmits : (objectIdTwinPublicAccess o twin).admits kind) :
    assertPublicTwinAccess o (some (.string id)) kind twin none none none = .ok id := by
  have htext : conversion (textOf? (some (.string id))) = .ok id := rfl
  simp [assertPublicTwinAccess, htext, toLowerCase_of_ascii (ascii_of_isObjectId hid), hid, hchain, hblocks, hadmits,
    throwIf, bind, Except.bind, pure, Except.pure]

/-- What an owner is told of a Twin without a policy on the chain and without a file. -/
theorem policy_eq_ok_of_metadata [Runtime] {o : SharingOptions} {did : String} {twin fields m : Json} {view : PolicyView}
    (htwin : twinFields o twin = .ok fields) (hmanage : manage o did fields = .ok ())
    (hchain : chainPolicy o fields none = .ok none) (hmetadata : metadata o (fields.get? "mutable_metadata") = .ok m)
    (hview : storedView fields m none = .ok view) : policy o did twin none none = .ok view := by
  simp [policy, htwin, hmanage, hchain, hmetadata, stored, hview, bind, Except.bind]

/-- The owner of a public Twin is told so when the settings stand in the entry. -/
theorem ownersView_agrees_nested :
    @TellsData Runtime.ascii (sampleOptions nestedSettings) sampleOwner (sampleTwin nestedSettings)
      none none := by
  let runtime : Runtime := Runtime.ascii
  have hadmitted := @assertPublicTwinAccess_objectId runtime (sampleOptions nestedSettings) (objectId '2') .data
    (sampleTwin nestedSettings) (isObjectId_objectId rfl) rfl rfl (by decide)
  have hcarries := carries_sample nestedSettings (by decide)
  have howner : manage (sampleOptions nestedSettings) sampleOwner
      (.object (sampleFields nestedSettings)) = .ok () := manage_sample nestedSettings
  apply ((ownersView_agrees (isTwin_sample nestedSettings) hcarries rfl howner).1 hadmitted).mpr
  exact ⟨by decide, .inr (by decide)⟩

/-- A Twin whose settings stand beside the entry is open to everybody, and its owner is told that it
is private. -/
theorem ownersView_differs_legacy :
    (∃ twinId, @assertPublicTwinAccess Runtime.ascii (sampleOptions legacySettings)
      (some (.string (objectId '2'))) .data (sampleTwin legacySettings) none none none = .ok twinId) ∧
    ∃ view, @policy Runtime.ascii (sampleOptions legacySettings) sampleOwner
      (sampleTwin legacySettings) none none = .ok view ∧ view.visibility = "private" := by
  let runtime : Runtime := Runtime.ascii
  constructor
  · exact ⟨_, assertPublicTwinAccess_objectId (isObjectId_objectId rfl) rfl rfl (by decide)⟩
  · have htwin : twinFields (sampleOptions legacySettings) (sampleTwin legacySettings) =
        .ok (.object (sampleFields legacySettings)) := rfl
    have hview : ∃ view, storedView (.object (sampleFields legacySettings)) (.object legacySettings) none = .ok view ∧
        view.visibility = "private" := ⟨_, rfl, rfl⟩
    obtain ⟨view, hview, hprivate⟩ := hview
    refine ⟨view, ?_, hprivate⟩
    have hmetadata := metadata_of_carries (carries_sample legacySettings (by decide))
    exact policy_eq_ok_of_metadata htwin (manage_sample legacySettings) rfl hmetadata hview

end Sharing
