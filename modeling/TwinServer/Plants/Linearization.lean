-- SUMMARY: The puts of plants are linearizable: the catalog is the replay of the committed puts, and a list reads it at one moment.
import TwinServer.Plants.Service

/-!
# Linearization

A put takes effect with the rename of the catalog, a list when it reads the catalog. The lock keeps
the catalog as the put has read it, so the catalog is always the one of the committed puts.
-/

open Js Js.Json Thread Async

namespace Plants.Service

/-! ## Histories and catalogs -/

/-- The last blob of each plant. -/
def current (history : List Blob) : List Blob :=
  history.foldl (fun bs b => bs.filter (·.plant.key ≠ b.plant.key) ++ [b]) []

variable {history : List Blob} {b b' : Blob} {names : List String} {tenantId id : String}

theorem current_snoc (history : List Blob) (b : Blob) :
    current (history ++ [b]) = (current history).filter (·.plant.key ≠ b.plant.key) ++ [b] := by
  unfold current
  rw [List.foldl_append]
  rfl

theorem map_plant_current (history : List Blob) :
    (current history).map Blob.plant = (replay (history.map Blob.plant)).records := by
  induction history using List.reverseRecOn with
  | nil => rfl
  | append_singleton history b ih =>
      have hput : ((replay (history.map Blob.plant)).put b.plant).records =
          (replay (history.map Blob.plant)).records.filter (·.key ≠ b.plant.key) ++ [b.plant] := rfl
      rw [current_snoc, List.map_append, List.map_append, List.map_singleton, replay_snoc, hput, ← ih,
        List.filter_map]
      rfl

theorem mem_of_mem_current (h : b ∈ current history) : b ∈ history := by
  induction history using List.reverseRecOn with
  | nil => cases h
  | append_singleton history c ih =>
      rw [current_snoc] at h
      rcases List.mem_append.mp h with h | h
      · exact List.mem_append_left _ (ih (List.mem_filter.mp h).1)
      · exact List.mem_append_right _ h

/-- The digests of the tenant and of the plant are those of names in use. -/
def Known (names : List String) (p : Stored) : Prop := p.scope ∈ names ∧ p.id ∈ names

section
variable [Services] (hnames : ∀ a ∈ names, ∀ b ∈ names, sha256 a = sha256 b → a = b)

include hnames in
theorem digests_iff (htenant : tenantId ∈ names) (hid : id ∈ names) (hb : Known names b.plant) :
    b.pointer.scope = sha256 tenantId ∧ b.pointer.plant = sha256 id ↔ b.plant.key = (tenantId, id) := by
  constructor
  · rintro ⟨hscope, hplant⟩
    exact Prod.ext (hnames _ hb.1 _ htenant hscope) (hnames _ hb.2 _ hid hplant)
  · intro hkey
    exact ⟨congrArg (fun k => sha256 k.1) hkey, congrArg (fun k => sha256 k.2) hkey⟩

include hnames in
theorem replaced_current (hhistory : ∀ b ∈ history, Known names b.plant) (hb : Known names b.plant) :
    replaced ((current history).map Blob.pointer) b.pointer =
      (current (history ++ [b])).map Blob.pointer := by
  rw [current_snoc, List.map_append, List.map_singleton, replaced, List.filter_map]
  congr 2
  apply List.filter_congr
  intro c hc
  have hiff := digests_iff hnames hb.1 hb.2 (hhistory c (mem_of_mem_current hc))
  rw [Bool.eq_iff_iff]
  simp only [Function.comp_apply, Bool.or_eq_true, bne_iff_ne, decide_eq_true_eq]
  rw [← not_and_or]
  exact not_congr hiff

include hnames in
theorem catalogRevision_current (hhistory : ∀ b ∈ history, Known names b.plant)
    (htenant : tenantId ∈ names) (hid : id ∈ names) :
    catalogRevision ((current history).map Blob.pointer) tenantId id =
      (replay (history.map Blob.plant)).revision (tenantId, id) := by
  unfold catalogRevision Store.revision Store.find?
  rw [← map_plant_current, List.find?_map, List.find?_map]
  have hfind : (current history).find? ((fun p : Pointer => p.scope == sha256 tenantId && p.plant == sha256 id) ∘
      Blob.pointer) = (current history).find? ((fun p => decide (p.key = (tenantId, id))) ∘ Blob.plant) := by
    rw [← List.head?_filter, ← List.head?_filter]
    congr 1
    apply List.filter_congr
    intro c hc
    have hiff := digests_iff hnames htenant hid (hhistory c (mem_of_mem_current hc))
    rw [Bool.eq_iff_iff]
    simpa using hiff
  rw [hfind]
  cases (current history).find? _ <;> rfl

include hnames in
theorem nodup_pointers (hhistory : ∀ b ∈ history, Known names b.plant) :
    (((current history).map Blob.pointer).map Pointer.key).Nodup := by
  have hkeyed := (replay (history.map Blob.plant)).keyed
  rw [← map_plant_current, List.map_map] at hkeyed
  rw [List.map_map]
  apply List.Nodup.map_on _ hkeyed.of_map
  intro c hc d hd heq
  have hd' := hhistory d (mem_of_mem_current hd)
  have hkey := (digests_iff hnames hd'.1 hd'.2 (hhistory c (mem_of_mem_current hc))).mp
    ⟨congrArg Prod.fst heq, congrArg Prod.snd heq⟩
  exact List.inj_on_of_nodup_map hkeyed hc hd hkey

/-! ## Blobs that a reader accepts -/

structure Blob.Sound (names : List String) (b : Blob) : Prop where
  known : Known names b.plant
  id : isValidId b.plant.id
  revision : 1 ≤ b.plant.revision ∧ b.plant.revision ≤ Number.maxSafe
  publication : ∀ p, b.plant.publication = some p → p.Valid
  uri : b.uri ≠ ""

variable {parse : String → Option Json}

omit [Services] in
theorem Blob.Sound.pointer [Services] (hhex : ∀ s, isHex64 (sha256 s).toList) (h : b.Sound names) :
    b.pointer.Valid where
  scope := hhex _
  plant := hhex _
  revision := h.revision
  uri := h.uri
  publication := by
    intro q hq
    obtain ⟨p, hp, rfl⟩ := Option.map_eq_some_iff.mp hq
    exact ⟨h.id, rfl, h.publication p hp⟩

include hnames in
/-- The catalog of a history is accepted. -/
theorem catalog_current (hreads : Reads parse) (hhex : ∀ s, isHex64 (sha256 s).toList)
    (hhistory : ∀ b ∈ history, b.Sound names) :
    catalog parse (some (catalogText ((current history).map Blob.pointer))) =
      .ok ((current history).map Blob.pointer) := by
  have hread : readCatalog parse (catalogText ((current history).map Blob.pointer)) =
      some ((current history).map Blob.pointer) := by
    apply readCatalog_catalogText hreads
    · intro p hp
      obtain ⟨c, hc, rfl⟩ := List.mem_map.mp hp
      exact (hhistory c (mem_of_mem_current hc)).pointer hhex
    · exact nodup_pointers hnames fun c hc => (hhistory c hc).known
  simp only [catalog, hread]

/-! ## The invariant -/

/-- The catalog is the one of the history, and every blob was stored under its own URI. -/
structure Disk.Sound (parse : String → Option Json) (names : List String) (s : Disk) : Prop where
  catalog : catalog parse s.file = .ok ((current s.history).map Blob.pointer)
  numbered : Numbered (s.history.map Blob.plant)
  stored : ∀ b ∈ s.history, b ∈ s.blobs
  blobs : ∀ b ∈ s.blobs, b.Sound names
  uris : (s.blobs.map Blob.uri).Nodup

structure Request.Sound (names : List String) (r : Request) : Prop where
  known : Known names r.plant
  id : isValidId r.id
  revision : r.update.revision < Number.maxSafe
  publication : ∀ p, r.update.publication = some p → p.Valid

/-- The put has read the current catalog and found the revision that it presents. -/
structure Latest (history : List Blob) (r : Request) (plants : List Pointer) : Prop where
  plants : plants = (current history).map Blob.pointer
  revision : (replay (history.map Blob.plant)).revision r.plant.key = r.update.revision

/-- A put that succeeds took effect after its call. -/
def Committed (history : List Blob) (r : Request) (called : List Blob) : Except Thrown Blob → Prop
  | .ok b => b.plant = r.plant ∧ ∃ before after, called <+: before ∧ history = before ++ b :: after
  | .error _ => True

@[local grind] def PutStage.Sound (s : Disk) (r : Request) (called : List Blob) : PutStage → Prop
  | .key | .directory | .lock => True
  | .catalog => s.locked
  | .validation plants => s.locked ∧ Latest s.history r plants
  | .storage plants _ => s.locked ∧ Latest s.history r plants
  | .temporary plants b => s.locked ∧ Latest s.history r plants ∧ b ∈ s.blobs ∧ b.plant = r.plant
  | .rename plants b => s.locked ∧ Latest s.history r plants ∧ b ∈ s.blobs ∧ b.plant = r.plant
  | .unlock outcome => s.locked ∧ Committed s.history r called outcome
  | .done outcome => Committed s.history r called outcome

/-- A list reads the catalog of one moment after its call. -/
@[local grind] def ListStage.Sound (s : Disk) (tenantId : String) (called : List Blob) : ListStage → Prop
  | .key | .catalog => True
  | .blobs pointers seen => called <+: seen ∧ seen <+: s.history ∧
      pointers = ((current seen).filter (·.plant.scope = tenantId)).map Blob.pointer
  | .done seen outcome => outcome.isOk → called <+: seen ∧ seen <+: s.history

@[local grind] def Task.Sound (names : List String) (s : Disk) : Task → Prop
  | .put r called stage => r.Sound names ∧ called <+: s.history ∧ stage.Sound s r called
  | .list tenantId called stage =>
    tenantId ∈ names ∧ called <+: s.history ∧ stage.Sound s tenantId called
  | .refused _ => True

/-- The task holds the lock. -/
def Task.holds : Task → Bool
  | .put _ _ stage => stage.holds
  | _ => false

/-- One task at most holds the lock. -/
def Apart (t u : Task) : Prop := t.holds → u.holds = false

variable {s s' : Disk} {r : Request} {t t' : PutStage} {u : Task} {called : List Blob}

omit [Services] in
theorem PutStage.holds_of_waits (h : t.waits) : t.holds = false := by
  cases t with
  | key | directory | lock => rfl
  | _ => cases h

omit [Services] in
theorem Moves.same [Services] (h : Moves parse s r t s' t') (ht : t.holds = false)
    (hlocked : s.locked) : s' = s := by
  cases h with
  | acquire h =>
    rw [h] at hlocked
    cases hlocked
  | wait | give_up | read | validated | written | failed | abandoned => rfl
  | stored | orphaned | renamed | released => cases ht

theorem Moves.holds (h : Moves parse s r t s' t') (ht' : t'.holds) : t.holds ∨ s.locked = false := by
  cases h with
  | acquire h => exact .inr h
  | wait ht hwaits =>
    rw [PutStage.holds_of_waits hwaits] at ht'
    cases ht'
  | failed ht hnone => exact .inl ht
  | read | validated | stored | orphaned | written | renamed => exact .inl rfl
  | give_up | released | abandoned => cases ht'

theorem Moves.prefix (h : Moves parse s r t s' t') : s.history <+: s'.history := by
  cases h with
  | renamed => exact List.prefix_append _ _
  | wait | give_up | acquire | read | validated | stored | orphaned | written | failed | released
  | abandoned => exact List.prefix_refl _

theorem PutStage.locked_of_holds (h : t.Sound s r called) (ht : t.holds) : s.locked := by
  cases t with
  | key | directory | lock | done => cases ht
  | catalog => exact h
  | validation | storage | temporary | rename | unlock => exact h.1

theorem Task.locked_of_holds (h : u.Sound names s) (hu : u.holds) : s.locked := by
  cases u with
  | put r called stage => exact PutStage.locked_of_holds h.2.2 hu
  | list | refused => cases hu

/-- The task relies on the directory only while it holds the lock. -/
theorem Task.Sound.frame (h : u.Sound names s) (hidle : u.holds = false)
    (hlonger : s.history <+: s'.history) : u.Sound names s' := by
  cases u with
  | refused e => trivial
  | put r called stage =>
    obtain ⟨hr, hcalled, hstage⟩ := h
    refine ⟨hr, hcalled.trans hlonger, ?_⟩
    cases stage with
    | key | directory | lock => trivial
    | done outcome =>
      cases outcome with
      | error e => trivial
      | ok b =>
        obtain ⟨hb, before, after, hbefore, hhistory⟩ := hstage
        obtain ⟨new, hnew⟩ := hlonger
        refine ⟨hb, before, after ++ new, hbefore, ?_⟩
        rw [← hnew, hhistory, List.append_assoc, List.cons_append]
    | catalog | validation | storage | temporary | rename | unlock => cases hidle
  | list tenantId called stage =>
    obtain ⟨htenant, hcalled, hstage⟩ := h
    refine ⟨htenant, hcalled.trans hlonger, ?_⟩
    cases stage with
    | key | catalog => trivial
    | blobs pointers seen => exact ⟨hstage.1, hstage.2.1.trans hlonger, hstage.2.2⟩
    | done seen outcome => exact fun hok => ⟨(hstage hok).1, (hstage hok).2.trans hlonger⟩

variable (hreads : Reads parse) (hhex : ∀ s, isHex64 (sha256 s).toList)

omit [Services] in
theorem Request.Sound.blob (hr : r.Sound names) {nonce : Nonce} {uri : String} (hfree : s.Free uri) :
    Blob.Sound names ⟨r.plant, nonce, uri⟩ where
  known := hr.known
  id := hr.id
  revision := ⟨Nat.succ_pos _, hr.revision⟩
  publication := hr.publication
  uri := hfree.1

theorem Disk.Sound.store (hs : s.Sound parse names) {b : Blob} (hb : b.Sound names)
    (hfree : s.Free b.uri) : Disk.Sound parse names { s with blobs := b :: s.blobs } where
  catalog := hs.catalog
  numbered := hs.numbered
  stored := fun c hc => List.mem_cons_of_mem _ (hs.stored c hc)
  blobs := by
    intro c hc
    rcases List.mem_cons.mp hc with rfl | hc
    · exact hb
    · exact hs.blobs c hc
  uris := by
    rw [List.map_cons, List.nodup_cons]
    refine ⟨fun hmem => ?_, hs.uris⟩
    obtain ⟨c, hc, huri⟩ := List.mem_map.mp hmem
    exact hfree.2 c hc huri

include hnames hreads hhex in
/-- A segment of a put keeps the directory sound, and the put. -/
theorem Moves.sound (h : Moves parse s r t s' t') (hs : s.Sound parse names) (hr : r.Sound names)
    (hcalled : called <+: s.history) (ht : t.Sound s r called) :
    s'.Sound parse names ∧ t'.Sound s' r called := by
  cases h with
  | wait _ hwaits =>
    refine ⟨hs, ?_⟩
    cases t' with
    | key | directory | lock => trivial
    | _ => cases hwaits
  | give_up => exact ⟨hs, trivial⟩
  | acquire => exact ⟨⟨hs.catalog, hs.numbered, hs.stored, hs.blobs, hs.uris⟩, rfl⟩
  | read hcatalog hrevision =>
    rw [hs.catalog] at hcatalog
    obtain rfl := Except.ok.inj hcatalog
    have hcurrent := catalogRevision_current hnames (fun b hb => (hs.blobs b (hs.stored b hb)).known)
      hr.known.1 hr.known.2
    exact ⟨hs, ht, rfl, hcurrent.symm.trans hrevision⟩
  | validated => exact ⟨hs, ht⟩
  | stored hfree =>
    exact ⟨hs.store (hr.blob hfree) hfree, ht.1, ht.2, List.mem_cons_self, rfl⟩
  | orphaned hfree => exact ⟨hs.store (hr.blob hfree) hfree, ht.1, trivial⟩
  | written => exact ⟨hs, ht⟩
  | @renamed plants b =>
    obtain ⟨hlocked, hlatest, hb, hplant⟩ := ht
    have hsound := hs.blobs b hb
    have hknown : ∀ c ∈ s.history, Known names c.plant := fun c hc => (hs.blobs c (hs.stored c hc)).known
    have hall : ∀ c ∈ s.history ++ [b], c.Sound names := by
      intro c hc
      rcases List.mem_append.mp hc with hc | hc
      · exact hs.blobs c (hs.stored c hc)
      · rw [List.mem_singleton.mp hc]
        exact hsound
    refine ⟨⟨?_, ?_, ?_, hs.blobs, hs.uris⟩, hlocked, hplant, s.history, [], hcalled, rfl⟩
    · rw [hlatest.plants, replaced_current hnames hknown hsound.known]
      exact catalog_current hnames hreads hhex hall
    · rw [List.map_append]
      apply Numbered.snoc hs.numbered
      rw [hplant, hlatest.revision]
      rfl
    · intro c hc
      rcases List.mem_append.mp hc with hc | hc
      · exact hs.stored c hc
      · rw [List.mem_singleton.mp hc]
        exact hb
  | failed hholds hnone => exact ⟨hs, PutStage.locked_of_holds ht hholds, trivial⟩
  | @released outcome =>
    refine ⟨⟨hs.catalog, hs.numbered, hs.stored, hs.blobs, hs.uris⟩, ?_⟩
    cases outcome with
    | error e => trivial
    | ok b => exact ht.2
  | abandoned => exact ⟨hs, trivial⟩

/-! ## Runs -/

variable {A : Aead} {key : List Nat}

omit [Services] in
theorem publication_valid {v : Option Json} {q : Publication} (h : publication v = .ok (some q)) :
    q.Valid := by
  unfold publication at h
  split at h
  · cases h
  · split at h
    · split at h
      · split at h
        case isTrue hvalid =>
          cases h
          simp only [Bool.and_eq_true] at hvalid
          exact ⟨hvalid.1.1, hvalid.1.2, hvalid.2⟩
        case isFalse => cases h
      · cases h
    · cases h
  · cases h

omit [Services] in
theorem Request.sound_of_checkUpdate {input : Option Json} {update : Update}
    (h : checkUpdate id input = .ok update) (htenant : tenantId ∈ names) (hid : id ∈ names) :
    Request.Sound names ⟨tenantId, id, update⟩ := by
  unfold checkUpdate at h
  split at h
  · split at h
    case isTrue hkeys =>
      split at h
      · split at h
        case isTrue hrevision =>
          obtain ⟨published, hpublished, h⟩ := Except.bind_eq_ok.mp h
          obtain rfl := Except.pure_eq_ok.mp h
          simp only [Bool.and_eq_true] at hkeys
          refine ⟨⟨htenant, hid⟩, hkeys.1, hrevision, ?_⟩
          rintro q rfl
          exact publication_valid hpublished
        case isFalse => cases h
      · cases h
    case isFalse => cases h
  · cases h

include hnames in
theorem list_pointers {history : List Blob} (hhistory : ∀ b ∈ history, Known names b.plant)
    (htenant : tenantId ∈ names) :
    ((current history).map Blob.pointer).filter (·.scope == sha256 tenantId) =
      ((current history).filter (·.plant.scope = tenantId)).map Blob.pointer := by
  rw [List.filter_map]
  congr 1
  apply List.filter_congr
  intro b hb
  have hb := hhistory b (mem_of_mem_current hb)
  rw [Bool.eq_iff_iff]
  simp only [Function.comp_apply, beq_iff_eq, decide_eq_true_eq]
  exact ⟨fun hscope => hnames _ hb.1 _ htenant hscope, fun hscope => congrArg sha256 hscope⟩

include hnames in
theorem list_sound {stage stage' : ListStage} {i : Answer} (hs : s.Sound parse names)
    (htenant : tenantId ∈ names) (hcalled : called <+: s.history)
    (hstage : stage.Sound s tenantId called)
    (h : listStep A key parse s tenantId stage i = some stage') : stage'.Sound s tenantId called := by
  unfold listStep at h
  split at h
  case h_1 => cases h; trivial
  case h_2 => cases h; intro hok; cases hok
  case h_3 =>
    rw [hs.catalog] at h
    cases h
    have hknown : ∀ b ∈ s.history, Known names b.plant := fun b hb => (hs.blobs b (hs.stored b hb)).known
    exact ⟨hcalled, List.prefix_refl _, list_pointers hnames hknown htenant⟩
  case h_4 => cases h; intro hok; cases hok
  case h_5 => cases h; exact fun _ => ⟨hstage.1, hstage.2.1⟩
  case h_6 => cases h

include hnames hreads hhex in
theorem service_modular :
    Modular (machineFor A key parse names) freshUris (Disk.Sound parse names) (Task.Sound names) Apart where
  symm := by
    intro t u h hu
    by_contra ht
    rw [Bool.not_eq_false] at ht
    rw [h ht] at hu
    cases hu
  call := by
    intro s k s' t hs h
    unfold machineFor Machine.only at h
    dsimp only at h
    split at h
    case isFalse => cases h
    case isTrue hnames =>
      cases k with
      | put tenantId id input =>
        obtain ⟨rfl, rfl⟩ := Prod.mk.inj (Option.some.inj h)
        simp only [Call.names, List.all_cons, List.all_nil, Bool.and_true, Bool.and_eq_true,
          List.contains_iff_mem] at hnames
        split
        case h_1 update hupdate =>
          have hr := Request.sound_of_checkUpdate hupdate hnames.1 hnames.2
          exact ⟨hs, ⟨hr, List.prefix_refl _, trivial⟩, fun u hu => ⟨hu, fun ht => by cases ht⟩⟩
        case h_2 => exact ⟨hs, trivial, fun u hu => ⟨hu, fun ht => by cases ht⟩⟩
      | list tenantId =>
        obtain ⟨rfl, rfl⟩ := Prod.mk.inj (Option.some.inj h)
        simp only [Call.names, List.all_cons, List.all_nil, Bool.and_true, List.contains_iff_mem] at hnames
        exact ⟨hs, ⟨hnames, List.prefix_refl _, trivial⟩, fun u hu => ⟨hu, fun ht => by cases ht⟩⟩
  resume := by
    intro s t i s' t' others hs ht hothers hfresh h
    cases t with
    | refused e => cases h
    | list tenantId called stage =>
      obtain ⟨stage', hstage, heq⟩ := Option.map_eq_some_iff.mp h
      obtain ⟨rfl, rfl⟩ := Prod.mk.inj heq
      obtain ⟨htenant, hcalled, hsound⟩ := ht
      refine ⟨hs, ⟨htenant, hcalled, list_sound hnames hs htenant hcalled hsound hstage⟩, ?_⟩
      exact fun u hu => ⟨(hothers u hu).1, fun ht => by cases ht⟩
    | put r called stage =>
      obtain ⟨⟨s₁, stage'⟩, hstage, heq⟩ := Option.map_eq_some_iff.mp h
      obtain ⟨rfl, rfl⟩ := Prod.mk.inj heq
      obtain ⟨hr, hcalled, hsound⟩ := ht
      have hmoves := moves_of_putStep hfresh hstage
      obtain ⟨hs', hsound'⟩ := hmoves.sound hnames hreads hhex hs hr hcalled hsound
      refine ⟨hs', ⟨hr, hcalled.trans hmoves.prefix, hsound'⟩, fun u hu => ?_⟩
      obtain ⟨husound, hapart⟩ := hothers u hu
      cases hholds : u.holds with
      | false => exact ⟨husound.frame hholds hmoves.prefix, fun _ => hholds⟩
      | true =>
        -- the put does not hold the lock, so it leaves the directory alone
        have hlocked : s.locked := Task.locked_of_holds husound hholds
        have hidle : stage.holds = false := by
          by_contra hstage
          rw [Bool.not_eq_false] at hstage
          rw [hapart hstage] at hholds
          cases hholds
        obtain rfl := hmoves.same hidle hlocked
        refine ⟨husound, fun ht' => ?_⟩
        rcases hmoves.holds ht' with hstage | hfree
        · rw [hstage] at hidle
          cases hidle
        · rw [hfree] at hlocked
          cases hlocked
  env := by
    intro s e s' hs h
    obtain rfl := Option.some.inj h
    refine ⟨⟨hs.catalog, hs.numbered, hs.stored, hs.blobs, hs.uris⟩, fun u hu => ?_⟩
    cases u with
    | put r called stage => exact ⟨hu.1, hu.2.1, by cases stage <;> exact hu.2.2⟩
    | list tenantId called stage => exact ⟨hu.1, hu.2.1, by cases stage <;> exact hu.2.2⟩
    | refused e => trivial

/-! ## What a list returns -/

omit [Services] in
theorem list_replay (history : List Blob) (tenantId : String) :
    (replay (history.map Blob.plant)).list tenantId =
      ((current history).filter (·.plant.scope = tenantId)).map Blob.plant := by
  unfold Store.list
  rw [← map_plant_current, List.filter_map]
  rfl

omit [Services] in
/-- What a list of the history returns. -/
def listing (history : List Blob) (tenantId : String) : List Plant :=
  ((replay (history.map Blob.plant)).list tenantId).map listed

omit [Services] in
theorem eq_map_of_forall₂ {α β : Type} {R : α → β → Prop} {f : α → β} {l : List α} {m : List β}
    (h : List.Forall₂ R l m) (hf : ∀ a ∈ l, ∀ b, R a b → b = f a) : m = l.map f := by
  induction h with
  | nil => rfl
  | @cons a b l m hab _ ih =>
      rw [List.map_cons, hf a List.mem_cons_self b hab, ← ih fun c hc => hf c (List.mem_cons_of_mem _ hc)]

include hreads in
theorem openBlob_bytes (hideal : A.Ideal) (hb : b.Sound names) :
    openBlob A parse key b.pointer (b.bytes A key) = some (listed b.plant) := by
  unfold Blob.bytes
  rw [openBlob_envelope hreads hideal hb.id rfl]
  unfold listed Blob.pointer
  cases b.plant.publication <;> rfl

theorem content_of_mem (hs : s.Sound parse names) (hb : b ∈ s.blobs) :
    s.content A key b.uri = some (b.bytes A key) := by
  unfold Disk.content
  cases hfind : s.blobs.find? (·.uri = b.uri) with
  | none =>
    have hnone := List.find?_eq_none.mp hfind b hb
    simp at hnone
  | some c =>
    have huri : c.uri = b.uri := by simpa using List.find?_some hfind
    rw [List.inj_on_of_nodup_map hs.uris (List.mem_of_find?_eq_some hfind) hb huri]
    rfl

/-- The blobs that a list reads are stored. -/
theorem mem_blobs_of_seen (hs : s.Sound parse names) {seen : List Blob} (hseen : seen <+: s.history)
    (hb : b ∈ (current seen).filter (·.plant.scope = tenantId)) : b ∈ s.blobs :=
  hs.stored b (hseen.subset (mem_of_mem_current (List.mem_filter.mp hb).1))

include hreads in
/-- A list whose reads are faithful returns what the history that it has seen says. -/
theorem readPlants_of_faithful (hideal : A.Ideal) (hs : s.Sound parse names) {seen : List Blob}
    (hseen : seen <+: s.history) {content : String → Option (List Nat)}
    (hfaithful : ∀ uri bytes, content uri = some bytes → s.content A key uri = some bytes)
    {plants : List Plant}
    (h : readPlants A key parse content
      (((current seen).filter (·.plant.scope = tenantId)).map Blob.pointer) = .ok plants) :
    plants = listing seen tenantId := by
  rw [readPlants_ok_iff, List.forall₂_map_left_iff] at h
  rw [listing, list_replay, List.map_map]
  apply eq_map_of_forall₂ h
  intro b hb plant hplant
  obtain ⟨bytes, hbytes, hopen⟩ := Option.bind_eq_some_iff.mp hplant
  have hmem := mem_blobs_of_seen hs hseen hb
  have hcontent := hfaithful _ _ hbytes
  rw [show b.pointer.uri = b.uri from rfl, content_of_mem hs hmem] at hcontent
  obtain rfl := Option.some.inj hcontent
  rw [openBlob_bytes hreads hideal (hs.blobs b hmem)] at hopen
  exact (Option.some.inj hopen).symm

include hreads in
/-- A list that reads everything returns. -/
theorem readPlants_content (hideal : A.Ideal) (hs : s.Sound parse names) {seen : List Blob}
    (hseen : seen <+: s.history) :
    readPlants A key parse (s.content A key)
      (((current seen).filter (·.plant.scope = tenantId)).map Blob.pointer) =
        .ok (listing seen tenantId) := by
  rw [readPlants_ok_iff, List.forall₂_map_left_iff, listing, list_replay, List.map_map,
    List.forall₂_map_right_iff, List.forall₂_same]
  intro b hb
  have hmem := mem_blobs_of_seen hs hseen hb
  rw [show b.pointer.uri = b.uri from rfl, content_of_mem hs hmem, Option.bind_some]
  exact openBlob_bytes hreads hideal (hs.blobs b hmem)

/-- What a list has returned. -/
def Task.Listed : Task → Prop
  | .list tenantId _ (.done seen (.ok plants)) => plants = listing seen tenantId
  | _ => True

include hreads in
theorem listed_extends (hideal : A.Ideal) :
    Extends (machineFor A key parse names) (freshUris.and (faithful A key)) (Disk.Sound parse names)
      (Task.Sound names) Apart (fun _ => True) (fun _ t => t.Listed) (fun _ _ => True) where
  symm _ := trivial
  call := by
    intro s k s' t _ _ h
    refine ⟨trivial, ?_, fun u _ hu => ⟨hu, trivial⟩⟩
    unfold machineFor Machine.only at h
    dsimp only at h
    split at h
    case isFalse => cases h
    case isTrue =>
      cases k with
      | put tenantId id input =>
        obtain ⟨rfl, rfl⟩ := Prod.mk.inj (Option.some.inj h)
        split <;> trivial
      | list tenantId =>
        obtain ⟨rfl, rfl⟩ := Prod.mk.inj (Option.some.inj h)
        trivial
  resume := by
    intro s t i s' t' others hs _ ht _ hothers hguard h
    refine ⟨trivial, ?_, fun u hu => ⟨(hothers u hu).2.1, trivial⟩⟩
    cases t with
    | refused e => cases h
    | put r called stage =>
      obtain ⟨_, -, heq⟩ := Option.map_eq_some_iff.mp h
      obtain ⟨rfl, rfl⟩ := Prod.mk.inj heq
      trivial
    | list tenantId called stage =>
      obtain ⟨stage', hstage, heq⟩ := Option.map_eq_some_iff.mp h
      obtain ⟨rfl, rfl⟩ := Prod.mk.inj heq
      unfold listStep at hstage
      split at hstage
      case h_3 =>
        obtain rfl := Option.some.inj hstage
        split <;> trivial
      case h_5 pointers seen content _ =>
        obtain ⟨-, -, -, hseen, rfl⟩ := ht
        obtain rfl := Option.some.inj hstage
        cases hread : readPlants A key parse content
            (((current seen).filter (·.plant.scope = tenantId)).map Blob.pointer) with
        | error e => trivial
        | ok plants => exact readPlants_of_faithful hreads hideal hs hseen hguard.2 hread
      case h_6 => cases hstage
      all_goals cases hstage; trivial
  env := by
    intro s e s' _ _ _
    exact ⟨trivial, fun u _ hu => hu⟩

/-! ## Linearizability -/

/-- The names in the calls of a run. -/
def namesOf (es : List (Event Call Answer (List Nat))) : List String :=
  es.flatMap fun e => match e with
    | .call k => k.names
    | _ => []

/-- The digests of the names in a run do not collide. -/
def CollisionFree (es : List (Event Call Answer (List Nat))) : Prop :=
  ∀ a ∈ namesOf es, ∀ b ∈ namesOf es, sha256 a = sha256 b → a = b

variable {es : List (Event Call Answer (List Nat))} {c : Config Disk Task}

omit [Services] in
theorem names_of_call {k : Call} (hk : .call k ∈ es) : k.names.all ((namesOf es).contains ·) := by
  rw [List.all_eq_true]
  intro name hname
  rw [List.contains_iff_mem]
  exact List.mem_flatMap.mpr ⟨_, hk, hname⟩

/-- A run whose calls are about the names is one of the service for the names. -/
theorem run_machineFor (hcalls : ∀ k, .call k ∈ es → k.names.all (names.contains ·)) :
    (machineFor A key parse names).run ⟨.empty, []⟩ es = (machine A key parse).run ⟨.empty, []⟩ es :=
  (machine A key parse).run_only hcalls

theorem Disk.sound_empty : Disk.Sound parse names .empty where
  catalog := rfl
  numbered := .nil
  stored := fun _ h => by cases h
  blobs := fun _ h => by cases h
  uris := List.nodup_nil

include hnames hreads hhex in
/-- What holds of the directory and of the tasks at the end of a run. -/
theorem holds_of_run (hcalls : ∀ k, .call k ∈ es → k.names.all (names.contains ·))
    (hmeets : (machine A key parse).Meets freshUris ⟨.empty, []⟩ es)
    (hrun : (machine A key parse).run ⟨.empty, []⟩ es = some c) :
    Holds (Disk.Sound parse names) (Task.Sound names) Apart c := by
  apply (service_modular hnames hreads hhex).run (Holds.init Disk.sound_empty)
    ((machine A key parse).meets_only hcalls hmeets)
  exact (run_machineFor hcalls).trans hrun

omit [Services] in
theorem PutStage.committed_of_waits (h : t.waits) : t.committed = none := by
  cases t with
  | key | directory | lock => rfl
  | _ => cases h

/-- A segment of a put leaves the history alone, or it commits. -/
theorem Moves.commits (h : Moves parse s r t s' t') :
    (t'.committed = t.committed ∧ s'.history = s.history) ∨
      ∃ b, t.committed = none ∧ t'.committed = some b ∧ s'.history = s.history ++ [b] := by
  cases h with
  | renamed => exact .inr ⟨_, rfl, rfl, rfl⟩
  | wait ht ht' =>
    exact .inl ⟨(PutStage.committed_of_waits ht').trans (PutStage.committed_of_waits ht).symm, rfl⟩
  | give_up ht => exact .inl ⟨(PutStage.committed_of_waits ht).symm, rfl⟩
  | failed _ hnone => exact .inl ⟨hnone.symm, rfl⟩
  | @released outcome => cases outcome <;> exact .inl ⟨rfl, rfl⟩
  | acquire | read | validated | stored | orphaned | written | abandoned => exact .inl ⟨rfl, rfl⟩

include hreads hhex in
theorem history_linearize (hcollision : CollisionFree es)
    (hmeets : (machine A key parse).Meets freshUris ⟨.empty, []⟩ es)
    (hrun : (machine A key parse).run ⟨.empty, []⟩ es = some c) :
    ∃ log, (c.tasks.filterMap Task.committed).Perm log ∧
      c.shared.history = log.foldl (fun history b => history ++ [b]) [] := by
  refine (service_modular hcollision hreads hhex).linearize Task.committed
    Disk.history (fun history b => history ++ [b]) (c := ⟨.empty, []⟩) ?_ ?_ ?_
    (Holds.init Disk.sound_empty) ((machine A key parse).meets_only (fun _ => names_of_call) hmeets)
    ((run_machineFor fun _ => names_of_call).trans hrun)
  · intro s k s' t _ h
    unfold machineFor Machine.only at h
    dsimp only at h
    split at h
    case isFalse => cases h
    case isTrue =>
      cases k with
      | put tenantId id input =>
        obtain ⟨rfl, rfl⟩ := Prod.mk.inj (Option.some.inj h)
        refine ⟨?_, rfl⟩
        split <;> rfl
      | list tenantId =>
        obtain ⟨rfl, rfl⟩ := Prod.mk.inj (Option.some.inj h)
        exact ⟨rfl, rfl⟩
  · intro s t i s' t' others _ _ _ hfresh h
    cases t with
    | refused e => cases h
    | list tenantId called stage =>
      obtain ⟨stage', -, heq⟩ := Option.map_eq_some_iff.mp h
      obtain ⟨rfl, rfl⟩ := Prod.mk.inj heq
      exact .inl ⟨rfl, rfl⟩
    | put r called stage =>
      obtain ⟨⟨s₁, stage'⟩, hstage, heq⟩ := Option.map_eq_some_iff.mp h
      obtain ⟨rfl, rfl⟩ := Prod.mk.inj heq
      exact (moves_of_putStep hfresh hstage).commits
  · intro s e s' _ h
    obtain rfl := Option.some.inj h
    rfl

include hreads hhex in
/-- The puts that have committed are the ones of the history. -/
theorem committed_perm (hcollision : CollisionFree es)
    (hmeets : (machine A key parse).Meets freshUris ⟨.empty, []⟩ es)
    (hrun : (machine A key parse).run ⟨.empty, []⟩ es = some c) :
    (c.tasks.filterMap Task.committed).Perm c.shared.history := by
  obtain ⟨log, hperm, hlog⟩ := history_linearize hreads hhex hcollision hmeets hrun
  have hfold : ∀ history : List Blob, log.foldl (fun history b => history ++ [b]) history =
      history ++ log := by
    clear hperm hlog
    induction log with
    | nil => simp
    | cons b log ih => simp [ih]
  rw [hlog, hfold]
  exact hperm

/-- What the tasks of a run have returned is what the history of the commits says. -/
structure Linearized (A : Aead) (key : List Nat) (parse : String → Option Json)
    (c : Config Disk Task) : Prop where
  /-- The catalog is accepted again. -/
  accepted : ∃ plants, catalog parse c.shared.file = .ok plants
  /-- The history consists of the puts that have committed. -/
  committed : (c.tasks.filterMap Task.committed).Perm c.shared.history
  /-- The puts of a plant have the revisions from 1 on. -/
  revisions : ∀ key, ∃ n, ((c.shared.history.map Blob.plant).filter (·.key = key)).map Stored.revision =
    List.range' 1 n
  /-- A put that succeeds returns what it was given, and it commits after its call. -/
  returned : ∀ r called b, .put r called (.done (.ok b)) ∈ c.tasks →
    b.plant = r.plant ∧ ∃ before after, called <+: before ∧ c.shared.history = before ++ b :: after
  /-- Of the puts that present a revision of a plant, one succeeds at most. -/
  once : ∀ (m n : Nat) (r r' : Request) called called' b b',
    c.tasks[m]? = some (Task.put r called (.done (.ok b))) →
    c.tasks[n]? = some (Task.put r' called' (.done (.ok b'))) → r.plant.key = r'.plant.key →
    r.update.revision = r'.update.revision → m = n
  /-- A list returns the plants of a moment between its call and its return. -/
  lists : ∀ tenantId called seen plants, .list tenantId called (.done seen (.ok plants)) ∈ c.tasks →
    called <+: seen ∧ seen <+: c.shared.history ∧ plants = listing seen tenantId
  /-- A list returns when its blobs are read. -/
  read : ∀ tenantId called pointers seen, .list tenantId called (.blobs pointers seen) ∈ c.tasks →
    readPlants A key parse (c.shared.content A key) pointers = .ok (listing seen tenantId)

omit [Services] in
theorem eq_of_pairwise {α : Type} {R : α → α → Prop} {l : List α} (h : l.Pairwise R) {m n : Nat} {a b : α}
    (ha : l[m]? = some a) (hb : l[n]? = some b) (hab : ¬ R a b) (hba : ¬ R b a) : m = n := by
  obtain ⟨hm, rfl⟩ := List.getElem?_eq_some_iff.mp ha
  obtain ⟨hn, rfl⟩ := List.getElem?_eq_some_iff.mp hb
  rw [List.pairwise_iff_getElem] at h
  rcases Nat.lt_trichotomy m n with hlt | heq | hlt
  · exact absurd (h m n hm hn hlt) hab
  · exact heq
  · exact absurd (h n m hn hm hlt) hba

theorem once_of_perm (hs : c.shared.Sound parse names)
    (hperm : (c.tasks.filterMap Task.committed).Perm c.shared.history) {m n : Nat} {t u : Task} {b b' : Blob}
    (ht : c.tasks[m]? = some t) (hu : c.tasks[n]? = some u) (hb : t.committed = some b)
    (hb' : u.committed = some b') (hkey : b.plant.key = b'.plant.key)
    (hrevision : b.plant.revision = b'.plant.revision) : m = n := by
  have hnodup := hs.numbered.nodup
  rw [List.map_map, ← (hperm.map _).nodup_iff, List.Nodup, List.pairwise_map, List.pairwise_filterMap]
    at hnodup
  apply eq_of_pairwise hnodup ht hu
  · intro hne
    exact hne b hb b' hb' (Prod.ext hkey hrevision)
  · intro hne
    exact hne b' hb' b hb (Prod.ext hkey.symm hrevision.symm)

/-- A put that fails has left the catalog alone. -/
theorem file_of_failed {after : List (Event Call Answer (List Nat))} {n : Nat} {i : Answer}
    {c₁ c₂ : Config Disk Task} (hstep : (machine A key parse).step c₁ (.resume n i) = some c₂)
    (hafter : (machine A key parse).run c₂ after = some c) {e : Thrown}
    (ht : c.tasks[n]? = some (.put r called (.done (.error e)))) : c₂.shared.file = c₁.shared.file := by
  obtain ⟨u, s₁, u', hu, hresume, rfl⟩ := (machine A key parse).step_resume hstep
  by_contra hfile
  cases u with
  | refused e => cases hresume
  | list tenantId called stage =>
    obtain ⟨stage', -, heq⟩ := Option.map_eq_some_iff.mp hresume
    obtain ⟨rfl, rfl⟩ := Prod.mk.inj heq
    exact hfile rfl
  | put r called stage =>
    obtain ⟨⟨s₂, stage'⟩, hstage, heq⟩ := Option.map_eq_some_iff.mp hresume
    obtain ⟨rfl, rfl⟩ := Prod.mk.inj heq
    rcases file_putStep hstage with hsame | ⟨b, rfl⟩
    · exact hfile hsame
    · have hlt : n < c₁.tasks.length := (List.getElem?_eq_some_iff.mp hu).1
      obtain ⟨u, hu, hcommitted⟩ := (machine A key parse).run_task
        (P := fun u => u.committed = some b)
        (fun {s u i s' u'} hP h => by
          cases u with
          | put r called stage =>
            obtain ⟨⟨s₃, stage'⟩, hstage, heq⟩ := Option.map_eq_some_iff.mp h
            obtain ⟨rfl, rfl⟩ := Prod.mk.inj heq
            exact committed_putStep hP hstage
          | list | refused => cases hP)
        (List.getElem?_set_self hlt) rfl hafter
      rw [ht] at hu
      obtain rfl := Option.some.inj hu
      cases hcommitted

end

section
variable [Services] {A : Aead} {key : List Nat} {parse : String → Option Json}
  {es : List (Event Call Answer (List Nat))} {c : Config Disk Task}

/-- Every run of puts and lists is linearizable, and a put that fails never changes the catalog. -/
theorem puts_linearizable (hreads : Reads parse) (hideal : A.Ideal)
    (hhex : ∀ s, isHex64 (sha256 s).toList) (hcollision : CollisionFree es)
    (hmeets : (machine A key parse).Meets (freshUris.and (faithful A key)) ⟨.empty, []⟩ es)
    (hrun : (machine A key parse).run ⟨.empty, []⟩ es = some c) :
    Linearized A key parse c ∧
    ∀ before n i after c₁ c₂, es = before ++ .resume n i :: after →
      (machine A key parse).run ⟨.empty, []⟩ before = some c₁ →
      (machine A key parse).step c₁ (.resume n i) = some c₂ →
      ∀ r called e, c.tasks[n]? = some (.put r called (.done (.error e))) →
        c₂.shared.file = c₁.shared.file := by
  have hmodular : Modular (machineFor A key parse (namesOf es)) freshUris _ _ _ :=
    service_modular hcollision hreads hhex
  have hboth := (hmodular.weaken fun h => h.1).extend (listed_extends hreads hideal)
  have hholds := hboth.run (Holds.init ⟨Disk.sound_empty, trivial⟩)
    ((machine A key parse).meets_only (fun _ => names_of_call) hmeets)
    ((run_machineFor fun _ => names_of_call).trans hrun)
  have hs := hholds.shared.1
  have hperm := committed_perm hreads hhex hcollision (hmeets.weaken fun h => h.1) hrun
  have hreturned : ∀ r called b, .put r called (.done (.ok b)) ∈ c.tasks → b.plant = r.plant ∧
      ∃ before after, called <+: before ∧ c.shared.history = before ++ b :: after :=
    fun r called b ht => (hholds.tasks _ ht).1.2.2
  constructor
  · constructor
    case accepted => exact ⟨_, hs.catalog⟩
    case committed => exact hperm
    case revisions => exact fun key => ⟨_, hs.numbered.revisions key⟩
    case returned => exact hreturned
    case once =>
      intro m n r r' called called' b b' ht hu hkey hrevision
      have hb := (hreturned r called b (List.mem_of_getElem? ht)).1
      have hb' := (hreturned r' called' b' (List.mem_of_getElem? hu)).1
      apply once_of_perm hs hperm ht hu rfl rfl
      · rw [hb, hb', hkey]
      · rw [hb, hb']
        exact congrArg Nat.succ hrevision
    case lists =>
      intro tenantId called seen plants ht
      obtain ⟨hsound, hlisted⟩ := hholds.tasks _ ht
      obtain ⟨hcalled, hseen⟩ := hsound.2.2 rfl
      exact ⟨hcalled, hseen, hlisted⟩
    case read =>
      intro tenantId called pointers seen ht
      obtain ⟨-, hseen, rfl⟩ := (hholds.tasks _ ht).1.2.2
      exact readPlants_content hreads hideal hs hseen
  · rintro before n i after c₁ c₂ rfl hbefore hstep r called e ht
    rw [(machine A key parse).run_append hbefore, (machine A key parse).run_cons hstep] at hrun
    exact file_of_failed hstep hrun ht

end

/-! ## A sample -/

/-- Digests that tell the tenant of the sample from its plant. -/
@[reducible] def sampleServices : Services :=
  { Services.plain with
    toRuntime := Runtime.exact
    sha256 := fun s => .ofList (.replicate 64 (if s = "acme" then 'a' else 'b')) }

def sampleRequest (document : Record Json) : Request := ⟨"acme", "p1", ⟨0, document, none⟩⟩

def sampleNonce : Nonce := ⟨List.replicate 12 0, rfl⟩

def sampleBlob (document : Record Json) (uri : String) : Blob :=
  ⟨(sampleRequest document).plant, sampleNonce, uri⟩

/-- The first put of a plant, up to its seal; the put has the number. -/
def sampleSealed (n : Nat) (document : Record Json) : List (Event Call Answer (List Nat)) :=
  Event.alone n (.put "acme" "p1" (some (.object [("revision", .number 0),
    ("document", .object document), ("publication", .null)])))
    [.answer (.ok ()), .answer (.ok ()), .answer (.ok ()), .answer (.ok ()),
      .validation (.ok ()) sampleNonce]

/-- The rest of the put, when nothing fails. -/
def sampleStored (n : Nat) (uri : String) : List (Event Call Answer (List Nat)) :=
  [.stored uri, .answer (.ok ()), .answer (.ok ()), .unlock true].map (.resume n)

def samplePutRun (document : Record Json) : List (Event Call Answer (List Nat)) :=
  sampleSealed 0 document ++ sampleStored 0 "file:///1.bin"

/-- The directory after the put. -/
def sampleDisk (document : Record Json) : Disk :=
  let _ : Services := sampleServices
  let b := sampleBlob document "file:///1.bin"
  ⟨some (catalogText [b.pointer]), false, [b], [], [b]⟩

/-- The put, and then a list that reads everything. -/
def sampleListRun (A : Aead) (key : List Nat) (document : Record Json) :
    List (Event Call Answer (List Nat)) :=
  let _ : Services := sampleServices
  samplePutRun document ++ Event.alone 1 (.list "acme")
    [.answer (.ok ()), .answer (.ok ()), .blobs ((sampleDisk document).content A key)]

section
variable (A : Aead) (key : List Nat) (parse : String → Option Json) (document : Record Json)

theorem meets_sampleSealed (g : Guard Disk Task Answer) (c : Config Disk Task) (n : Nat)
    (hg : ∀ s t others a, g s t others (.answer a))
    (hg' : ∀ s t others a nonce, g s t others (.validation a nonce)) : let _ : Services := sampleServices
    (machine A key parse).Meets g c (sampleSealed n document) := by
  intro _
  apply Machine.meets_of_inputs
  intro m i hi s t others
  simp only [sampleSealed, Event.alone, List.map_cons, List.map_nil, List.mem_cons, reduceCtorEq,
    Event.resume.injEq, List.not_mem_nil, or_false, false_or] at hi
  rcases hi with ⟨-, rfl⟩ | ⟨-, rfl⟩ | ⟨-, rfl⟩ | ⟨-, rfl⟩ | ⟨-, rfl⟩
  iterate 4 exact hg s t others _
  exact hg' s t others _ _

theorem meets_sampleStored (g : Guard Disk Task Answer) (c : Config Disk Task) (n : Nat) (uri : String)
    (hg : ∀ s t others a, g s t others (.answer a))
    (hg' : ∀ s t others removed, g s t others (.unlock removed))
    (hstored : ∀ t, g c.shared t (c.tasks.eraseIdx n) (.stored uri)) : let _ : Services := sampleServices
    (machine A key parse).Meets g c (sampleStored n uri) := by
  intro _
  refine ⟨fun t _ => hstored t, fun d _ => ?_⟩
  apply Machine.meets_of_inputs
  intro m i hi s t others
  simp only [List.map_cons, List.map_nil, List.mem_cons, Event.resume.injEq, List.not_mem_nil,
    or_false] at hi
  rcases hi with ⟨-, rfl⟩ | ⟨-, rfl⟩ | ⟨-, rfl⟩
  iterate 2 exact hg s t others _
  exact hg' s t others _

theorem run_sampleSealed (blobs : List Blob) (tasks : List Task) : let _ : Services := sampleServices
    (machine A key parse).run ⟨⟨none, false, blobs, [], []⟩, tasks⟩ (sampleSealed tasks.length document) =
      some ⟨⟨none, true, blobs, [], []⟩,
        tasks ++ [.put (sampleRequest document) [] (.storage [] sampleNonce)]⟩ :=
  Machine.run_call rfl rfl tasks

theorem run_sampleStored (blobs : List Blob) (tasks : List Task) (uri : String) :
    let _ : Services := sampleServices
    let b := sampleBlob document uri
    (machine A key parse).run ⟨⟨none, true, blobs, [], []⟩,
        tasks ++ [.put (sampleRequest document) [] (.storage [] sampleNonce)]⟩
        (sampleStored tasks.length uri) =
      some ⟨⟨some (catalogText [b.pointer]), false, b :: blobs, [], [b]⟩,
        tasks ++ [.put (sampleRequest document) [] (.done (.ok b))]⟩ :=
  Machine.run_thread rfl tasks

theorem run_samplePutRun : let _ : Services := sampleServices
    (machine A key parse).run ⟨.empty, []⟩ (samplePutRun document) =
      some ⟨sampleDisk document,
        [.put (sampleRequest document) [] (.done (.ok (sampleBlob document "file:///1.bin")))]⟩ := by
  intro _
  have hsealed := run_sampleSealed A key parse document [] []
  exact ((machine A key parse).run_append hsealed _).trans
    (run_sampleStored A key parse document [] [] "file:///1.bin")

theorem meets_samplePutRun : let _ : Services := sampleServices
    (machine A key parse).Meets (freshUris.and (faithful A key)) ⟨.empty, []⟩ (samplePutRun document) := by
  intro _
  apply Machine.Meets.append _ (run_sampleSealed A key parse document [] [])
  · apply meets_sampleStored
    · exact fun _ _ _ _ => ⟨trivial, trivial⟩
    · exact fun _ _ _ _ => ⟨trivial, trivial⟩
    · exact fun t => ⟨⟨by simp, fun b hb => by cases hb⟩, trivial⟩
  · apply meets_sampleSealed
    · exact fun _ _ _ _ => ⟨trivial, trivial⟩
    · exact fun _ _ _ _ _ => ⟨trivial, trivial⟩

theorem hex_sampleServices : let _ : Services := sampleServices
    ∀ s, isHex64 (sha256 s).toList := by
  intro _ s
  show isHex64 (String.ofList (.replicate 64 (if s = "acme" then 'a' else 'b'))).toList
  rw [String.toList_ofList]
  split <;> decide

theorem collisionFree_sample {es : List (Event Call Answer (List Nat))}
    (hes : ∀ name ∈ namesOf es, name = "acme" ∨ name = "p1") : let _ : Services := sampleServices
    CollisionFree es := by
  intro _ a ha b hb hab
  rcases hes a ha with rfl | rfl <;> rcases hes b hb with rfl | rfl
  · rfl
  · exact absurd hab (by decide)
  · exact absurd hab (by decide)
  · rfl

theorem names_samplePutRun : ∀ name ∈ namesOf (samplePutRun document), name = "acme" ∨ name = "p1" := by
  intro name hname
  simpa [namesOf, samplePutRun, sampleSealed, sampleStored, Event.alone, Call.names] using hname

end

/-- One put runs alone: its blob is the history. -/
theorem puts_linearizable_sample : let _ : Services := sampleServices
    ∃ c, (machine Aead.labelled [] readBack).run ⟨.empty, []⟩ (samplePutRun []) = some c ∧
      Linearized Aead.labelled [] readBack c ∧ c.shared.history.length = 1 := by
  intro _
  have hnumbers : NumberText := numberText_exact
  refine ⟨_, run_samplePutRun Aead.labelled [] readBack [], ?_, rfl⟩
  exact (puts_linearizable reads_readBack Aead.ideal_labelled hex_sampleServices
    (collisionFree_sample (names_samplePutRun [])) (meets_samplePutRun Aead.labelled [] readBack [])
    (run_samplePutRun Aead.labelled [] readBack [])).1

/-- A list does not return the document that was put, when a number of it is not finite. -/
theorem list_returns_other : let _ : Services := sampleServices
    let document : Record Json := [("level", .number (.infinity false))]
    let es := sampleListRun Aead.labelled [] document
    ∃ c called seen plants, CollisionFree es ∧
      (machine Aead.labelled [] readBack).Meets (freshUris.and (faithful Aead.labelled [])) ⟨.empty, []⟩ es ∧
      (machine Aead.labelled [] readBack).run ⟨.empty, []⟩ es = some c ∧
      .list "acme" called (.done seen (.ok plants)) ∈ c.tasks ∧
      plants ≠ [⟨"p1", 1, document, none⟩] := by
  intro _ document es
  have hnumbers : NumberText := numberText_exact
  have hput := run_samplePutRun Aead.labelled [] readBack document
  have hmeets := meets_samplePutRun Aead.labelled [] readBack document
  have hsound : (sampleDisk document).Sound readBack (namesOf (samplePutRun document)) :=
    (holds_of_run (collisionFree_sample (names_samplePutRun document)) reads_readBack hex_sampleServices
      (fun _ => names_of_call) (hmeets.weaken fun h => h.1) hput).shared
  have hread : readPlants Aead.labelled [] readBack ((sampleDisk document).content Aead.labelled []) _ =
      .ok (listing (sampleDisk document).history "acme") :=
    readPlants_content reads_readBack Aead.ideal_labelled hsound (List.prefix_refl _)
  have hcall : (machine Aead.labelled [] readBack).call (sampleDisk document) (.list "acme") =
      some (sampleDisk document, .list "acme" (sampleDisk document).history .key) := rfl
  have hcalled := thread_list Aead.labelled [] "acme" (sampleDisk document).history hsound.catalog
  rw [list_pointers (collisionFree_sample (names_samplePutRun document))
    (fun b hb => (hsound.blobs b (hsound.stored b hb)).known) (by decide)] at hcalled
  have hwaiting := Machine.run_call hcall hcalled
    [.put (sampleRequest document) [] (.done (.ok (sampleBlob document "file:///1.bin")))]
  have hlist := Machine.run_call hcall ((Machine.thread_append hcalled _).trans (thread_blobs hread))
    [.put (sampleRequest document) [] (.done (.ok (sampleBlob document "file:///1.bin")))]
  refine ⟨_, _, _, _, ?_, ?_, ((machine Aead.labelled [] readBack).run_append hput _).trans hlist,
    List.mem_cons_of_mem _ List.mem_cons_self, ?_⟩
  · apply collisionFree_sample
    intro name hname
    have hnames : namesOf es = namesOf (samplePutRun document) ++ ["acme"] := rfl
    rw [hnames, List.mem_append, List.mem_singleton] at hname
    exact hname.elim (names_samplePutRun document name) .inl
  · apply hmeets.append hput
    have hbefore : (machine Aead.labelled [] readBack).Meets (freshUris.and (faithful Aead.labelled []))
        ⟨sampleDisk document, [.put (sampleRequest document) [] (.done (.ok (sampleBlob document "file:///1.bin")))]⟩
        (Event.alone 1 (.list "acme") [.answer (.ok ()), .answer (.ok ())]) := by
      apply Machine.meets_of_inputs
      intro n i hi s t others
      simp only [Event.alone, List.map_cons, List.map_nil, List.mem_cons, reduceCtorEq,
        Event.resume.injEq, List.not_mem_nil, or_false, false_or] at hi
      rcases hi with ⟨-, rfl⟩ | ⟨-, rfl⟩ <;> exact ⟨trivial, trivial⟩
    exact hbefore.append hwaiting ⟨fun t _ => ⟨trivial, fun uri bytes h => h⟩, fun d _ => trivial⟩
  · intro h
    have hdocument : some (leftOf document) = some document :=
      congrArg (fun plants => plants.head?.map Plant.document) h
    simp [document, leftOf, writtenMembers, written, Number.isFinite] at hdocument

end Plants.Service
