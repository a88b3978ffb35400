-- SUMMARY: Pages of a directory that grows: what a listing returns, and that a client who follows the cursors sees each file once.
import TwinServer.Base.Records
import TwinServer.Files.Reading

/-!
# Listing

The ids of a folder in order are cut at the cursor. While nobody takes files away, what a client has seen are ids in order,
and what was there when it began is among them as far as the cursor has come.
-/

open Js Js.Json Async Storage

namespace Files

/-! ## Cursors -/

section
variable {α : Type} [LinearOrder α] {l : List α} {n : Nat} {a c : α}

/-- The elements that a page leaves out are behind its last one. -/
theorem mem_take_or_lt (h : l.Pairwise (· < ·)) (hc : (l.take n).getLast? = some c) (ha : a ∈ l) :
    a ∈ l.take n ∨ c < a := by
  rw [← List.take_append_drop n l] at h ha
  rcases List.mem_append.mp ha with ha | ha
  · exact .inl ha
  · exact .inr ((List.pairwise_append.mp h).2.2 c (List.mem_of_getLast? hc) a ha)

theorem le_of_mem_take (h : l.Pairwise (· < ·)) (hc : (l.take n).getLast? = some c) (ha : a ∈ l.take n) : a ≤ c := by
  have hpage : (l.take n).Pairwise (· < ·) := h.sublist (List.take_sublist n l)
  obtain ⟨front, hfront⟩ := List.getLast?_eq_some_iff.mp hc
  rw [hfront] at hpage ha
  rcases List.mem_append.mp ha with ha | ha
  · exact le_of_lt ((List.pairwise_append.mp hpage).2.2 a ha c List.mem_cons_self)
  · exact le_of_eq (List.mem_singleton.mp ha)

theorem nodup_of_increasing (h : l.Pairwise (· < ·)) : l.Nodup := h.imp fun hlt => ne_of_lt hlt

end

/-! ## The ids of a folder -/

/-- The names of a folder; there are none in a folder that is missing. -/
def World.names (w : World) (folder : String) : List String := (w.folders folder).elim [] (·.keys)

section
variable {w : World} {folder name id : String} {names : List String} {after : Option String}

theorem nodup_names (w : World) (folder : String) : (w.names folder).Nodup := by
  unfold World.names
  cases w.folders folder with
  | none => exact List.nodup_nil
  | some files => exact files.nodup

theorem mem_names_iff : name ∈ w.names folder ↔ (w.file? folder name).isSome := by
  unfold World.names World.file?
  cases w.folders folder with
  | none => simp
  | some files =>
    change name ∈ files.entries.map Prod.fst ↔ (files.entries.get? name).isSome
    rw [Option.isSome_iff_ne_none, ne_eq, Record.get?_eq_none, not_not]

theorem mem_listedIds_iff :
    id ∈ listedIds names after ↔ (validId id ∧ indexName id ∈ names) ∧ ∀ c, after = some c → c < id := by
  have hids : id ∈ names.filterMap indexId? ↔ validId id ∧ indexName id ∈ names := by
    rw [List.mem_filterMap]
    constructor
    · rintro ⟨name, hname, hid⟩
      obtain ⟨rfl, hvalid⟩ := indexId?_eq_some_iff.mp hid
      exact ⟨hvalid, hname⟩
    · rintro ⟨hvalid, hname⟩
      exact ⟨indexName id, hname, indexId?_eq_some_iff.mpr ⟨rfl, hvalid⟩⟩
  rw [listedIds, List.mem_filter, List.mem_mergeSort, hids]
  cases after with
  | none => simp
  | some c => simp

theorem increasing_listedIds (h : names.Nodup) : (listedIds names after).Pairwise (· < ·) := by
  have hnodup : (names.filterMap indexId?).Nodup := by
    refine h.filterMap fun name name' id hid hid' => ?_
    rw [(indexId?_eq_some_iff.mp hid).1, (indexId?_eq_some_iff.mp hid').1]
  have hsorted := List.pairwise_mergeSort' (fun a b : String => a ≤ b) (names.filterMap indexId?)
  have hdistinct := (List.mergeSort_perm (names.filterMap indexId?) fun a b => decide (a ≤ b)).nodup_iff.mpr hnodup
  exact (hsorted.and hdistinct).imp (fun h => lt_of_le_of_ne h.1 h.2) |>.filter _

end

/-! ## Pages -/

/-- The id of metadata. -/
def idOf (metadata : Json) : Option String := asString? (metadata.get? "id")

section
variable [Platform]

/-- The ids of the files of a tenant. -/
def World.storedIds (w : World) (tenant : String) : List String := listedIds (w.names (tenantDigest tenant)) none

theorem mem_storedIds_iff {w : World} {tenant id : String} :
    id ∈ w.storedIds tenant ↔ validId id ∧ (w.file? (tenantDigest tenant) (indexName id)).isSome := by
  rw [World.storedIds, mem_listedIds_iff, mem_names_iff]
  simp

/-- Ids behind the cursor in order, all that were there at first and only what is there. -/
structure Seen (w : World) (tenant : String) (after : Option String) (ids : List String) (S : State) : Prop where
  increasing : ids.Pairwise (· < ·)
  behind : ∀ id ∈ ids, ∀ c, after = some c → c < id
  present : ∀ id ∈ ids, id ∈ S.state.storedIds tenant
  complete : ∀ id ∈ w.storedIds tenant, (∀ c, after = some c → c < id) → id ∈ ids

/-- The page is the beginning of the list. -/
structure IsPage (limit : Int) (ids : List String) (page : Page) : Prop where
  files : page.files.map idOf = (ids.take limit.toNat).map some
  nextCursor : page.nextCursor = if ids.length > limit.toNat then (ids.take limit.toNat).getLast? else none

/-- The last page leads to no other. -/
def finished (pages : List Page) : Bool := pages.getLast?.any (·.nextCursor.isNone)

/-- The pages hold ids behind the cursor in order: all that were there at first, or at least one a page. -/
structure Enumerated (w : World) (tenant : String) (after : Option String) (limits : List Int) (pages : List Page)
    (ids : List String) (S : State) : Prop where
  increasing : ids.Pairwise (· < ·)
  behind : ∀ id ∈ ids, ∀ c, after = some c → c < id
  present : ∀ id ∈ ids, id ∈ S.state.storedIds tenant
  complete : finished pages → ∀ id ∈ w.storedIds tenant, (∀ c, after = some c → c < id) → id ∈ ids
  files : (pages.flatMap (·.files)).map idOf = ids.map some
  unfinished : ¬ finished pages → limits.length ≤ ids.length

variable {s : FileService} {C : Cipher} {names : Set String} {S S' : State} {t : Nat} {w : World} {tenant id c : String}
  {after : Option String} {limit : Int} {limits : List Int} {page : Page} {pages : List Page} {ids ids' : List String}
  {parse : Bytes → Option Json} {post : Nat → Except Failure Outcome → State → Prop}

/-- What was stored in the beginning is there. -/
def Covers (w : World) (tenant : String) (S : State) : Prop := ∀ id ∈ w.storedIds tenant, id ∈ S.state.storedIds tenant

theorem stored_of_leaves (h : id ∈ S.state.storedIds tenant) (hleaves : Leaves false t S S') :
    id ∈ S'.state.storedIds tenant := by
  obtain ⟨hvalid, hpresent⟩ := mem_storedIds_iff.mp h
  exact mem_storedIds_iff.mpr ⟨hvalid, hleaves.grows rfl _ _ hpresent⟩

theorem kept_storedIds : Kept false t fun S => ∀ id ∈ ids, id ∈ S.state.storedIds tenant :=
  fun _ _ h hleaves id hid => stored_of_leaves (h id hid) hleaves

theorem kept_seen : Kept false t (Seen w tenant after ids) :=
  fun _ _ h hleaves => { h with present := fun id hid => stored_of_leaves (h.present id hid) hleaves }

theorem kept_enumerated : Kept false t (Enumerated w tenant after limits pages ids) :=
  fun _ _ h hleaves => { h with present := fun id hid => stored_of_leaves (h.present id hid) hleaves }

/-! ### One page after the other -/

omit [Platform] in
/-- A page without a cursor is the whole list. -/
theorem IsPage.last (h : IsPage limit ids page) (hlimit : 1 ≤ limit) (hlast : page.nextCursor = none) :
    ids.take limit.toNat = ids := by
  rw [h.nextCursor] at hlast
  split at hlast
  · next hlength =>
    have hnil := List.getLast?_eq_none_iff.mp hlast
    rw [List.take_eq_nil_iff] at hnil
    rcases hnil with hzero | hnil
    · omega
    · rw [hnil, List.take_nil]
  · next hlength => exact List.take_of_length_le (Nat.le_of_not_lt hlength)

omit [Platform] in
theorem IsPage.cursor (h : IsPage limit ids page) (hcursor : page.nextCursor = some c) :
    (ids.take limit.toNat).getLast? = some c := by
  rw [h.nextCursor] at hcursor
  exact (Option.ite_none_right_eq_some.mp hcursor).2

omit [Platform] in
theorem finished_cons (hcursor : page.nextCursor = some c) : finished (page :: pages) = finished pages := by
  cases pages with
  | nil =>
    change page.nextCursor.isNone = false
    rw [hcursor]
    rfl
  | cons page' pages => rw [finished, List.getLast?_cons_cons, finished]

/-- The last page holds the rest. -/
theorem Enumerated.last (hseen : Seen w tenant after ids S) (hpage : IsPage limit ids page) (hlimit : 1 ≤ limit)
    (hlast : page.nextCursor = none) : Enumerated w tenant after (limit :: limits) [page] ids S where
  increasing := hseen.increasing
  behind := hseen.behind
  present := hseen.present
  complete _ := hseen.complete
  files := by
    rw [List.flatMap_singleton, hpage.files, hpage.last hlimit hlast]
  unfinished h := by
    refine absurd ?_ h
    change page.nextCursor.isNone = true
    rw [hlast]
    rfl

/-- A page, and then what is behind its last id. -/
theorem Enumerated.next (hseen : Seen w tenant after ids S) (hpage : IsPage limit ids page)
    (hcursor : page.nextCursor = some c) (h : Enumerated w tenant (some c) limits pages ids' S) :
    Enumerated w tenant after (limit :: limits) (page :: pages) (ids.take limit.toNat ++ ids') S := by
  have hlast := hpage.cursor hcursor
  have hmem : ∀ id ∈ ids.take limit.toNat, id ∈ ids := fun id hid => List.mem_of_mem_take hid
  have hle : ∀ id ∈ ids.take limit.toNat, id ≤ c := fun id hid => le_of_mem_take hseen.increasing hlast hid
  have hlt : ∀ id ∈ ids', c < id := fun id hid => h.behind id hid c rfl
  refine ⟨?_, ?_, ?_, ?_, ?_, ?_⟩
  · refine List.pairwise_append.mpr ⟨hseen.increasing.sublist (List.take_sublist _ _), h.increasing, ?_⟩
    exact fun id hid id' hid' => lt_of_le_of_lt (hle id hid) (hlt id' hid')
  · intro id hid c' hc'
    rcases List.mem_append.mp hid with hid | hid
    · exact hseen.behind id (hmem id hid) c' hc'
    · have hc : c' < c := hseen.behind c (hmem c (List.mem_of_getLast? hlast)) c' hc'
      exact lt_trans hc (hlt id hid)
  · intro id hid
    rcases List.mem_append.mp hid with hid | hid
    · exact hseen.present id (hmem id hid)
    · exact h.present id hid
  · intro hfinished id hid hbehind
    rw [finished_cons hcursor] at hfinished
    -- what the page leaves out is behind its cursor
    rcases mem_take_or_lt hseen.increasing hlast (hseen.complete id hid hbehind) with htake | hlater
    · exact List.mem_append_left _ htake
    · refine List.mem_append_right _ (h.complete hfinished id hid fun c' hc' => ?_)
      obtain rfl := Option.some.inj hc'
      exact hlater
  · rw [List.flatMap_cons, List.map_append, List.map_append, hpage.files, h.files]
  · intro hunfinished
    rw [finished_cons hcursor] at hunfinished
    have hone : 1 ≤ (ids.take limit.toNat).length := List.length_pos_of_mem (List.mem_of_getLast? hlast)
    have hrest := h.unfinished hunfinished
    rw [List.length_cons, List.length_append]
    omega

/-! ### The steps of a listing -/

/-- The folder is read; one that is missing is empty. -/
theorem spec_readFolder : Spec s C names false parse post t (Covers w tenant) (readFolder (tenantDigest tenant))
    (fun listed => Seen w tenant after (listedIds listed after)) (Excused s True t) := by
  have hseen {S : State} (hS : Covers w tenant S) :
      Seen w tenant after (listedIds (S.state.names (tenantDigest tenant)) after) S := by
    refine ⟨increasing_listedIds (nodup_names _ _), fun id hid => (mem_listedIds_iff.mp hid).2, fun id hid => ?_,
      fun id hid hbehind => ?_⟩
    · obtain ⟨hname, -⟩ := mem_listedIds_iff.mp hid
      exact mem_listedIds_iff.mpr ⟨hname, fun c hc => by cases hc⟩
    · exact mem_listedIds_iff.mpr ⟨(mem_listedIds_iff.mp (hS id hid)).1, hbehind⟩
  refine Logic.Triple.handle (G := fun listed => Seen w tenant after (listedIds listed after))
    (F := fun e S => (e = .noEntry → Seen w tenant after (listedIds [] after) S) ∧ (e ≠ .noEntry → Excused s True t e S))
    ?_ (fun _ => ?_) fun e => ?_
  · refine spec_still (r := fun w => (w.folders (tenantDigest tenant)).elim (.error .noEntry) (.ok ·.keys))
      (fun _ _ => rfl) kept_storedIds (fun S _ hS => ?_) fun _ _ _ _ hfailed =>
        ⟨(fun h => by cases h), fun _ _ => .inl hfailed⟩
    have hids := hseen hS
    unfold World.names at hids
    cases hfolder : S.state.folders (tenantDigest tenant) with
    | none =>
      rw [hfolder] at hids
      exact ⟨fun _ => hids, fun hne => absurd rfl hne⟩
    | some files =>
      rw [hfolder] at hids
      exact hids
  · exact Logic.Triple.pure fun _ _ hS => hS
  · cases e with
    | noEntry => exact Logic.Triple.pure fun _ _ hS => hS.1 rfl
    | thrown thrown => exact Logic.Triple.raise fun _ _ hS => hS.2 (by simp)
    | other => exact Logic.Triple.raise fun _ _ hS => hS.2 (by simp)

section
variable [NumberText] (hideal : C.Ideal) (hreads : ReadsUtf8 parse)
include hideal hreads

/-- The metadata of ids that are there. -/
theorem spec_metadataOfAll (ids : List String) : Spec s C names false parse post t
    (fun S => ∀ id ∈ ids, id ∈ S.state.storedIds tenant) (metadataOfAll C parse tenant ids)
    (fun files _ => files.map idOf = ids.map some) (Excused s True t) := by
  induction ids with
  | nil => exact Logic.Triple.pure fun _ _ _ => rfl
  | cons id ids ih =>
    by_cases hvalid : validId id
    · have hfirst : Spec s C names false parse post t
          (fun S => (True → Present (tenantDigest tenant) id S) ∧ ∀ id' ∈ ids, id' ∈ S.state.storedIds tenant)
          (metadata C parse tenant id)
          (fun j S => (∀ id' ∈ ids, id' ∈ S.state.storedIds tenant) ∧ idOf j = some id) (Excused s True t) := by
        refine ((spec_metadata hideal hreads (fun _ => rfl) fun _ => hvalid).frame fun u => kept_storedIds).mono
          (fun _ _ hS => hS) (fun j S hj => ⟨hj.2, ?_⟩) fun _ _ hE => hE
        obtain ⟨⟨m, data, ⟨u, tenant', bytes, -, hid, -⟩, rfl⟩, -⟩ := hj
        exact (asString?_id m).trans (congrArg some hid)
      refine Logic.Triple.bind (hfirst.weaken fun S _ hS => ⟨fun _ => ?_, fun id' hid' => ?_⟩) fun j =>
        Logic.Triple.extract fun hj => ?_
      · exact (mem_storedIds_iff.mp (hS id List.mem_cons_self)).2
      · exact hS id' (List.mem_cons_of_mem _ hid')
      refine Logic.Triple.bind ih fun files => Logic.Triple.pure fun S _ hfiles => ?_
      rw [List.map_cons, List.map_cons, hj, hfiles]
    · exact fun S _ hS => absurd (mem_storedIds_iff.mp (hS id List.mem_cons_self)).1 hvalid

/-- A page behind a valid cursor, of any length that is allowed. -/
theorem spec_list (hafter : ∀ c, after = some c → validId c) (hlimit : 1 ≤ limit ∧ limit ≤ 100) :
    Spec s C names false parse post t (Covers w tenant) (list C parse tenant after limit)
      (fun page S => ∃ ids, Seen w tenant after ids S ∧ IsPage limit ids page) (Excused s True t) := by
  have hfilter : after.filter (· != "") = after := by
    cases after with
    | none => rfl
    | some c =>
      refine Option.filter_eq_some_iff.mpr ⟨rfl, bne_iff_ne.mpr ?_⟩
      rintro rfl
      exact absurd (hafter "" rfl) (by decide)
  have hallowed : (after.any (!validId ·) || decide (limit < 1) || decide (limit > 100)) = false := by
    have hcursor : after.any (!validId ·) = false := by
      cases after with
      | none => rfl
      | some c => simp [hafter c rfl]
    simp [hcursor, hlimit.1, hlimit.2]
  unfold list
  dsimp only
  rw [hfilter, hallowed]
  refine Logic.Triple.bind (spec_refuseIf fun hc => by cases hc) fun _ => Logic.Triple.extract fun _ => ?_
  refine Logic.Triple.bind (spec_key kept_storedIds (fun _ _ _ _ hfailed _ => .inl hfailed)
    fun hnone _ _ _ _ => .inr hnone) fun key => Logic.Triple.extract fun _ => ?_
  refine Logic.Triple.bind (G := fun listed => Seen w tenant after (listedIds listed after)) spec_readFolder
    fun listed => ?_
  have hpage : Spec s C names false parse post t (Seen w tenant after (listedIds listed after))
      (metadataOfAll C parse tenant ((listedIds listed after).take limit.toNat))
      (fun files S => files.map idOf = ((listedIds listed after).take limit.toNat).map some ∧
        Seen w tenant after (listedIds listed after) S) (Excused s True t) :=
    ((spec_metadataOfAll hideal hreads _).frame fun _ => kept_seen).weaken fun S _ hS =>
      ⟨fun id hid => hS.present id (List.mem_of_mem_take hid), hS⟩
  refine Logic.Triple.bind hpage fun files => Logic.Triple.pure fun S _ hS => ?_
  exact ⟨listedIds listed after, hS.2, hS.1, rfl⟩

/-- A client who follows the cursors. -/
theorem spec_enumerate (limits : List Int) (hlimits : ∀ limit ∈ limits, 1 ≤ limit ∧ limit ≤ 100)
    (hafter : ∀ c, after = some c → validId c) :
    Spec s C names false parse post t (Covers w tenant) (enumerate C parse tenant after limits)
      (fun pages S => ∃ ids, Enumerated w tenant after limits pages ids S) (Excused s True t) := by
  induction limits generalizing after with
  | nil =>
    refine Logic.Triple.pure fun S _ _ => ⟨[], .nil, ?_, ?_, ?_, rfl, fun _ => Nat.le_refl 0⟩
    · exact fun id hid => by cases hid
    · exact fun id hid => by cases hid
    · exact fun h => by cases h
  | cons limit limits ih =>
    obtain ⟨hlimit, hrest⟩ := List.forall_mem_cons.mp hlimits
    have hlist : Spec s C names false parse post t (Covers w tenant) (list C parse tenant after limit)
        (fun page S => (∃ ids, Seen w tenant after ids S ∧ IsPage limit ids page) ∧ Covers w tenant S)
        (Excused s True t) :=
      ((spec_list hideal hreads hafter hlimit).frame fun _ => kept_storedIds).weaken fun S _ hS => ⟨hS, hS⟩
    refine Logic.Triple.bind hlist fun page => ?_
    cases hcursor : page.nextCursor with
    | none =>
      refine Logic.Triple.pure fun S _ hS => ?_
      obtain ⟨⟨ids, hseen, hpage⟩, -⟩ := hS
      exact ⟨ids, .last hseen hpage hlimit.1 hcursor⟩
    | some c =>
      refine Logic.Triple.weaken (P := fun S => ∃ ids, (Covers w tenant S ∧ Seen w tenant after ids S) ∧
        IsPage limit ids page ∧ validId c) (Logic.Triple.exists_pre fun ids => Logic.Triple.extract fun h => ?_)
        fun S _ hS => ?_
      · obtain ⟨hpage, hvalid⟩ := h
        have hnext : Spec s C names false parse post t
            (fun S => Covers w tenant S ∧ Seen w tenant after ids S) (enumerate C parse tenant (some c) limits)
            (fun pages S => (∃ ids', Enumerated w tenant (some c) limits pages ids' S) ∧ Seen w tenant after ids S)
            (Excused s True t) :=
          (ih hrest fun c' hc' => Option.some.inj hc' ▸ hvalid).frame fun _ => kept_seen
        refine Logic.Triple.bind hnext fun pages => Logic.Triple.pure fun S _ hS => ?_
        obtain ⟨⟨ids', hids'⟩, hseen⟩ := hS
        exact ⟨_, .next hseen hpage hcursor hids'⟩
      · obtain ⟨⟨ids, hseen, hpage⟩, hcovers⟩ := hS
        have hmem : c ∈ ids := List.mem_of_mem_take (List.mem_of_getLast? (hpage.cursor hcursor))
        exact ⟨ids, ⟨hcovers, hseen⟩, hpage, (mem_storedIds_iff.mp (hseen.present c hmem)).1⟩

end

end

end Files
