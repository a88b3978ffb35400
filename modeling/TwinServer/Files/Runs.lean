-- SUMMARY: The calls of the file service and of an adversary together, in any order of their steps.
import TwinServer.Files.Listing

/-!
# Runs

Each call ends as its specification says while the others take their steps, and so do the calls of a whole run. The
adversary may be among the callers.
-/

open Js Js.Json Async Storage

namespace Files

section
variable [Platform] {s : FileService} {C : Cipher} {names : Set String} {tampers : Bool} {S S' : State} {t : Nat}
  {tenant id : String} {parse : Bytes → Option Json} {post : Nat → Except Failure Outcome → State → Prop} {α : Type}

/-! ## Programs that read -/

def Query.reads : Query → Bool
  | credential | readFile _ _ | readdir _ | readBlob _ => true
  | _ => false

/-- What only reads may be called at any time. -/
theorem spec_of_reads {p : Act α} (h : p.Asks (·.reads)) :
    Spec s C names tampers parse post t (fun _ => True) p (fun _ _ => True) fun _ _ => True := by
  refine Logic.Triple.of_asks (kept_true t) (fun q hq S hinv _ f => ?_) h
  have hsame : Change s C tampers t S (serve s S.state t q f).2 := by
    have hstill {β : Type} (r : Except Failure β) : Change s C tampers t S (S.state.ending t (r, S.state) f.ending).2 :=
      Change.ending hinv (change_same hinv rfl rfl rfl rfl (List.prefix_refl _)) f.ending
    cases q with
    | credential | readFile folder name | readdir folder | readBlob uri => exact hstill _
    | randomUUID | now | randomBytes | storeBlob input | mkdir folder | openNew folder name
    | writeFile folder name bytes | settle | rename folder name name' | unlink folder name | tamper deed => cases hq
  obtain ⟨hinv', hothers⟩ := hsame.keeps hinv
  exact ⟨⟨hinv', hothers⟩, trivial⟩

omit [Platform] in
theorem reads_key : key.Asks (·.reads) := by
  refine Program.Asks.bind (Program.asks_query rfl) fun value => ?_
  cases value.filter (· != "") with
  | none => exact trivial
  | some encoded =>
    dsimp only
    cases fileKey encoded with
    | none => exact trivial
    | some key => exact trivial

theorem reads_record (C : Cipher) (parse : Bytes → Option Json) (tenant id : String) :
    (record C parse tenant id).Asks (·.reads) := by
  refine Program.Asks.bind trivial fun _ => Program.Asks.bind ?_ fun bytes => Program.Asks.bind reads_key fun key => ?_
  · refine Program.Asks.handle (Program.asks_query rfl) fun r => ?_
    cases r with
    | ok bytes => exact trivial
    | error e => cases e <;> exact trivial
  · cases (decrypt C bytes key (aad tenant id .index)).bind (readIndex parse id) with
    | none => exact trivial
    | some record => exact trivial

theorem reads_metadataOfAll (C : Cipher) (parse : Bytes → Option Json) (tenant : String) (ids : List String) :
    (metadataOfAll C parse tenant ids).Asks (·.reads) := by
  induction ids with
  | nil => exact trivial
  | cons id ids ih =>
    refine Program.Asks.bind ?_ fun j => Program.Asks.bind ih fun files => trivial
    exact Program.Asks.bind (reads_record C parse tenant id) fun _ => trivial

theorem reads_list (C : Cipher) (parse : Bytes → Option Json) (tenant : String) (after : Option String) (limit : Int) :
    (list C parse tenant after limit).Asks (·.reads) := by
  refine Program.Asks.bind trivial fun _ => Program.Asks.bind reads_key fun _ => Program.Asks.bind ?_ fun listed => ?_
  · refine Program.Asks.handle (Program.asks_query rfl) fun r => ?_
    cases r with
    | ok listed => exact trivial
    | error e => cases e <;> exact trivial
  · exact Program.Asks.bind (reads_metadataOfAll C parse tenant _) fun _ => trivial

theorem reads_enumerate (C : Cipher) (parse : Bytes → Option Json) (tenant : String) (after : Option String)
    (limits : List Int) : (enumerate C parse tenant after limits).Asks (·.reads) := by
  induction limits generalizing after with
  | nil => exact trivial
  | cons limit limits ih =>
    refine Program.Asks.bind (reads_list C parse tenant after limit) fun page => ?_
    cases page.nextCursor with
    | none => exact trivial
    | some c => exact Program.Asks.bind (ih (some c)) fun _ => trivial

/-! ## The adversary -/

def Deed.source : Deed → Option Source
  | index _ _ source | blob _ source => source

variable {deed : Deed}

/-- What the adversary puts somewhere was written by a call, or opens for no file. -/
theorem held_of_source {source : Source} {bytes : Bytes} (h : S.state.source source = some bytes)
    (hown : ∀ bytes, source = .own bytes → Foreign s C bytes) : Held s C S.state bytes := by
  cases source with
  | own bytes' => exact .inr (Option.some.inj h ▸ hown bytes' rfl)
  | written k =>
    obtain ⟨⟨u, bytes'⟩, hk, rfl⟩ := Option.map_eq_some_iff.mp h
    exact .inl ⟨u, List.mem_of_getElem? hk⟩

theorem change_tamper (hinv : Orderly s C names true S) (hown : ∀ bytes, deed.source = some (.own bytes) → Foreign s C bytes) :
    Change s C true t S (S.state.tamper deed) := by
  have hheld {bytes : Bytes} (h : deed.source.bind S.state.source = some bytes) : Held s C S.state bytes := by
    obtain ⟨source, hsource, hbytes⟩ := Option.bind_eq_some_iff.mp h
    exact held_of_source hbytes fun bytes hown' => hown bytes (hown' ▸ hsource)
  cases deed with
  | index folder id source =>
    have hfile (folder' name : String) : (S.state.tamper (.index folder id source)).file? folder' name =
        if folder' = folder ∧ name = indexName id then source.bind S.state.source else S.state.file? folder' name := by
      unfold World.tamper
      dsimp only
      cases source.bind S.state.source with
      | none => exact file?_delete
      | some bytes => exact file?_set bytes
    refine ⟨List.prefix_refl _, fun _ hu => .inl hu, hinv.distinct, List.prefix_refl _, List.prefix_refl _, fun _ he => .inl he, ?_, ?_,
      (fun h => by cases h), fun _ _ h => .inl h⟩
    · intro u n folder' _ _
      rw [hfile, if_neg fun h => indexName_ne_temporaryName _ _ h.2.symm]
    · intro folder' id' bytes h
      rw [hfile] at h
      split at h
      · exact .inr ⟨hheld h, fun h => by cases h⟩
      · exact .inl h
  | blob location source =>
    refine ⟨List.prefix_refl _, fun _ hu => .inl hu, hinv.distinct, List.prefix_refl _, List.prefix_refl _, fun _ he => .inl he,
      fun _ _ _ _ _ => rfl, fun _ _ _ h => .inl h, (fun h => by cases h), ?_⟩
    intro location' bytes h
    by_cases hlocation : location' = location
    · subst hlocation
      have h : (S.state.storage.set location' (source.bind S.state.source)) location' = some bytes := h
      rw [Storage.World.set, Function.update_self] at h
      exact .inr (hheld h)
    · have h : (S.state.storage.set location (source.bind S.state.source)) location' = some bytes := h
      rw [Storage.World.set, Function.update_of_ne hlocation] at h
      exact .inl h

theorem spec_tamper (hown : ∀ bytes, deed.source = some (.own bytes) → Foreign s C bytes) :
    Spec s C names true parse post t (fun _ => True) (Program.query (Query.tamper deed)) (fun _ _ => True)
      fun _ _ => True := by
  refine Logic.Triple.query (kept_true t) fun S hinv _ f => ?_
  obtain ⟨hinv', hothers⟩ := (change_tamper (t := t) hinv hown).keeps hinv
  exact ⟨⟨hinv', hothers⟩, trivial⟩

/-! ## What a call ends with -/

variable (s C tampers) in
/-- What holds from when a call has ended that was made in `w`. Without an adversary, an enumeration says why it fails. -/
def Call.Ended (t : Nat) (w : World) (r : Except Failure Outcome) (S : State) : Call → Prop
  | store tenant _ _ _ data => ∀ o, r = .ok o → ∃ d m, o = .stored m ∧ Stored s C tampers t d tenant m data S
  | metadata tenant id => ∀ o, r = .ok o → ∃ m data, o = .metadata m.json ∧ Genuine s C tenant id m data S
  | read tenant id => ∀ o, r = .ok o → ∃ m data, o = .file m.json data ∧ Genuine s C tenant id m data S
  | enumerate tenant limits => (∀ m, r ≠ .ok (.stored m)) ∧
    (tampers = false → (∀ limit ∈ limits, 1 ≤ limit ∧ limit ≤ 100) →
      (∀ o, r = .ok o → ∃ pages ids, o = .pages pages ∧ Enumerated w tenant none limits pages ids S) ∧
        ∀ e, r = .error e → Failed t S ∨ s.key? = none)
  | list _ _ _ | tamper _ => ∀ m, r ≠ .ok (.stored m)

variable {k : Call} {w : World} {r : Except Failure Outcome}

theorem kept_ended : Kept tampers t (fun S => k.Ended s C tampers t w r S) := by
  intro S S' h hleaves
  cases k with
  | store tenant subject name contentType data =>
    intro o ho
    obtain ⟨d, m, rfl, hstored⟩ := h o ho
    exact ⟨d, m, rfl, kept_stored S S' hstored hleaves⟩
  | metadata tenant id =>
    intro o ho
    obtain ⟨m, data, rfl, hgenuine⟩ := h o ho
    exact ⟨m, data, rfl, kept_genuine S S' hgenuine hleaves⟩
  | read tenant id =>
    intro o ho
    obtain ⟨m, data, rfl, hgenuine⟩ := h o ho
    exact ⟨m, data, rfl, kept_genuine S S' hgenuine hleaves⟩
  | enumerate tenant limits =>
    refine ⟨h.1, fun ht hlimits => ?_⟩
    subst ht
    obtain ⟨hok, herror⟩ := h.2 rfl hlimits
    refine ⟨fun o ho => ?_, fun e he => (herror e he).imp_left fun hfailed => kept_failed t S S' hfailed hleaves⟩
    obtain ⟨pages, ids, rfl, hpages⟩ := hok o ho
    exact ⟨pages, ids, rfl, kept_enumerated S S' hpages hleaves⟩
  | list tenant after limit => exact h
  | tamper deed => exact h

variable (s C tampers) in
/-- What holds from when the call with a number has ended. -/
def ended (t : Nat) (r : Except Failure Outcome) (S : State) : Prop :=
  ∃ k w, S.calls[t]? = some (k, w) ∧ k.Ended s C tampers t w r S

/-- What may be called: for a tenant of the list, and with the adversary only what is not forged. -/
structure Call.Allowed (s : FileService) (C : Cipher) (names : Set String) (tampers : Bool) (k : Call) : Prop where
  tenant : ∀ tenant, k.tenant? = some tenant → tenant ∈ names
  tampers : ∀ deed, k = .tamper deed → tampers = true
  own : ∀ deed bytes, k = .tamper deed → deed.source = some (.own bytes) → Foreign s C bytes

variable [NumberText] (hideal : C.Ideal) (hreads : ReadsUtf8 parse)
include hideal hreads

/-- Every call ends as it should. -/
theorem spec_program (hk : k.Allowed s C names tampers) : Spec s C names tampers parse post t
    (fun S => S.calls[t]? = some (k, w) ∧ S.state = w ∧ ∀ bytes, (t, bytes) ∉ S.state.written) (k.program s C parse)
    (fun o S => k.Ended s C tampers t w (.ok o) S) fun e S => k.Ended s C tampers t w (.error e) S := by
  cases k with
  | store tenant subject name contentType data =>
    refine Logic.Triple.mono ((spec_store hideal hreads).map (f := Outcome.stored)
      (R := fun o S => ∃ d m, o = .stored m ∧ Stored s C tampers t d tenant m data S) ?_) ?_ ?_ ?_
    · exact fun m S ⟨d, hstored⟩ => ⟨d, m, rfl, hstored⟩
    · exact fun S _ hS => ⟨⟨w, hS.1⟩, hS.2.2⟩
    · exact fun o S hS o' ho => Except.ok.inj ho ▸ hS
    · exact fun e S _ o ho => by cases ho
  | metadata tenant id =>
    refine Logic.Triple.mono ((spec_metadata (H := False) hideal hreads False.elim False.elim).map
      (f := Outcome.metadata) (R := fun o S => ∃ m data, o = .metadata m.json ∧ Genuine s C tenant id m data S) ?_)
      ?_ ?_ ?_
    · rintro j S ⟨m, data, hgenuine, rfl⟩
      exact ⟨m, data, rfl, hgenuine⟩
    · exact fun S _ _ h => h.elim
    · exact fun o S hS o' ho => Except.ok.inj ho ▸ hS
    · exact fun e S _ o ho => by cases ho
  | read tenant id =>
    refine Logic.Triple.mono ((spec_read hideal hreads).map (f := fun r => Outcome.file r.1 r.2)
      (R := fun o S => ∃ m data, o = .file m.json data ∧ Genuine s C tenant id m data S) ?_) ?_ ?_ ?_
    · rintro r S ⟨m, data, hgenuine, rfl⟩
      exact ⟨m, data, rfl, hgenuine⟩
    · exact fun S _ _ => trivial
    · exact fun o S hS o' ho => Except.ok.inj ho ▸ hS
    · exact fun e S _ o ho => by cases ho
  | list tenant after limit =>
    refine Logic.Triple.mono ((spec_of_reads (reads_list C parse tenant after limit)).map
      (f := fun page => Outcome.pages [page]) (R := fun o _ => ∀ m, o ≠ .stored m) fun _ _ _ m h => by cases h) ?_ ?_ ?_
    · exact fun S _ _ => trivial
    · exact fun o S hS m h => hS m (Except.ok.inj h)
    · exact fun e S _ m h => by cases h
  | enumerate tenant limits =>
    by_cases hordinary : tampers = false ∧ ∀ limit ∈ limits, 1 ≤ limit ∧ limit ≤ 100
    · obtain ⟨rfl, hlimits⟩ := hordinary
      have henumerate : Spec s C names false parse post t (Covers w tenant) (enumerate C parse tenant none limits)
          (fun pages S => ∃ ids, Enumerated w tenant none limits pages ids S) (Excused s True t) :=
        spec_enumerate hideal hreads limits hlimits fun c hc => by cases hc
      refine Logic.Triple.mono (henumerate.map (f := Outcome.pages) (R := fun o S => ∃ pages ids, o = .pages pages ∧
        Enumerated w tenant none limits pages ids S) ?_) ?_ ?_ ?_
      · exact fun pages S ⟨ids, hids⟩ => ⟨pages, ids, rfl, hids⟩
      · rintro S - ⟨-, rfl, -⟩ id hid
        exact hid
      · intro o S hS
        refine ⟨fun m h => ?_, fun _ _ => ⟨fun o' ho => Except.ok.inj ho ▸ hS, fun e he => by cases he⟩⟩
        obtain ⟨pages, ids, rfl, -⟩ := hS
        cases h
      · exact fun e S hS => ⟨fun m h => (by cases h), fun _ _ => ⟨fun o ho => (by cases ho), fun _ _ => hS trivial⟩⟩
    · -- nothing is said of an enumeration beside an adversary, or with a limit that is refused
      refine Logic.Triple.mono ((spec_of_reads (reads_enumerate C parse tenant none limits)).map
        (f := Outcome.pages) (R := fun o _ => ∀ m, o ≠ .stored m) fun _ _ _ m h => by cases h) ?_ ?_ ?_
      · exact fun S _ _ => trivial
      · exact fun o S hS => ⟨fun m h => hS m (Except.ok.inj h), fun ht hlimits => absurd ⟨ht, hlimits⟩ hordinary⟩
      · exact fun e S _ => ⟨fun m h => (by cases h), fun ht hlimits => absurd ⟨ht, hlimits⟩ hordinary⟩
  | tamper deed =>
    obtain rfl := hk.tampers deed rfl
    refine Logic.Triple.mono ((spec_tamper fun bytes => hk.own deed bytes rfl).map (f := fun _ => Outcome.tampered)
      (R := fun o _ => ∀ m, o ≠ .stored m) fun _ _ _ m h => by cases h) ?_ ?_ ?_
    · exact fun S _ _ => trivial
    · exact fun o S hS m h => hS m (Except.ok.inj h)
    · exact fun e S _ m h => by cases h

/-- The calls that are allowed end as they should, whatever the order of their steps. -/
theorem sound {takes : Call → Bool} (htakes : ∀ k, takes k → k.Allowed s C names tampers) :
    (fileLogic s C names tampers (ended s C tampers)).Sound (service s C parse) takes where
  refl := Leaves.refl
  trans := Leaves.trans
  post t r S S' h hleaves := by
    obtain ⟨k, w, hcall, hended⟩ := h
    exact ⟨k, w, getElem?_of_prefix hleaves.calls hcall, kept_ended S S' hended hleaves⟩
  call {S k} hinv hk := by
    have hcalls : S.calls <+: (S.called k).calls := List.prefix_append _ _
    constructor
    · refine ⟨fun e he => ?_, fun e he => ?_, hinv.distinct, fun e he => ?_, hinv.index, hinv.blobs, hinv.intact⟩
      · rcases List.mem_append.mp he with he | he
        · exact hinv.tenants e he
        · rw [List.mem_singleton.mp he]
          exact (htakes k hk).tenant
      · exact Nat.lt_of_lt_of_le (hinv.drawn e he) hcalls.length_le
      · exact (hinv.written e he).mono hcalls (List.prefix_refl _)
    · exact fun t => ⟨hcalls, List.prefix_refl _, List.prefix_refl _, List.prefix_refl _, fun _ h => h,
        fun _ _ _ => rfl, fun _ _ _ h => h⟩
  program {S k} hinv hk := by
    rintro S' hinv' rfl
    have hcall : (S.called k).calls[S.calls.length]? = some (k, S.state) := List.getElem?_concat_length
    have hunwritten : ∀ bytes, (S.calls.length, bytes) ∉ S.state.written := by
      intro bytes hbytes
      obtain ⟨tenant, m, data, ⟨subject, name, contentType, w, d, createdAt, hcall, -⟩, -⟩ := hinv.wrote hbytes
      exact Nat.lt_irrefl _ (List.getElem?_eq_some_iff.mp hcall).1
    have hprogram : Spec s C names tampers parse (ended s C tampers) S.calls.length _ (k.program s C parse) _ _ :=
      spec_program (w := S.state) hideal hreads (htakes k hk)
    have hvalid := hprogram _ hinv' ⟨hcall, rfl, hunwritten⟩
    have hkept (u : Nat) : (fileLogic s C names tampers (ended s C tampers)).Stable u
        fun S' => S'.calls[S.calls.length]? = some (k, S.state) :=
      fun _ _ h hleaves => getElem?_of_prefix hleaves.calls h
    refine (Logic.Valid.frame hkept hvalid hcall).mono fun r S' hr => ?_
    cases r with
    | ok o => exact ⟨k, S.state, hr.2, hr.1⟩
    | error e => exact ⟨k, S.state, hr.2, hr.1⟩

end

/-! ## Whole runs -/

section
variable [Platform] {s : FileService} {C : Cipher} {names : Set String} {tampers : Bool} {parse : Bytes → Option Json}
  {takes : Call → Bool} {es : List (Event Call Fate Empty)} {c : Moment} {u : Running Query Query.Answer Failure Outcome}
  {tenant : String}

theorem orderly_start : Orderly s C names tampers start.shared where
  tenants _ h := by cases h
  drawn _ h := by cases h
  distinct := List.nodup_nil
  written _ h := by cases h
  index _ _ _ h := by cases h
  blobs _ _ h := by cases h
  intact _ _ _ _ h := by cases h

/-- The tenants that something is called for. -/
def tenantsOf (takes : Call → Bool) : Set String := {tenant | ∃ k, takes k ∧ k.tenant? = some tenant}

/-- Without an adversary every call is allowed. -/
theorem allowed_of_intact (hintact : ∀ deed, ¬ takes (.tamper deed)) (k : Call) (hk : takes k) :
    k.Allowed s C (tenantsOf takes) false where
  tenant _ htenant := ⟨k, hk, htenant⟩
  tampers deed h := absurd (h ▸ hk) (hintact deed)
  own deed _ h := absurd (h ▸ hk) (hintact deed)

/-- Only a store returns the metadata of a stored file. -/
theorem stored_of_ended {t : Nat} {m : FileMetadata} {S : State} (h : ended s C tampers t (.ok (.stored m)) S) :
    ∃ tenant d data, Stored s C tampers t d tenant m data S := by
  obtain ⟨k, w, -, hended⟩ := h
  cases k with
  | store tenant subject name contentType data =>
    obtain ⟨d, m', hm, hstored⟩ := hended _ rfl
    obtain rfl := Outcome.stored.inj hm
    exact ⟨tenant, d, data, hstored⟩
  | metadata tenant id =>
    obtain ⟨m', data, hm, -⟩ := hended _ rfl
    cases hm
  | read tenant id =>
    obtain ⟨m', data, hm, -⟩ := hended _ rfl
    cases hm
  | enumerate tenant limits => exact absurd rfl (hended.1 m)
  | list tenant after limit => exact absurd rfl (hended m)
  | tamper deed => exact absurd rfl (hended m)

variable [NumberText]

/-- A file is listed from when its store has returned. -/
theorem listed_of_stored (hideal : C.Ideal) (hreads : ReadsUtf8 parse) (hintact : ∀ deed, ¬ takes (.tamper deed))
    (hrun : ((service s C parse).machine takes).run start es = some c) (hu : u ∈ c.tasks) {m : FileMetadata}
    (hdone : u.program = .done (.ok (.stored m))) :
    ∃ tenant data, Made c.shared u.id tenant m data ∧ m.id ∈ c.shared.state.storedIds tenant := by
  have hsound : (fileLogic s C (tenantsOf takes) false (ended s C false)).Sound (service s C parse) takes :=
    sound hideal hreads (allowed_of_intact hintact)
  obtain ⟨tenant, d, data, hstored⟩ := stored_of_ended (hsound.run_post orderly_start hrun hu hdone)
  refine ⟨tenant, data, hstored.storing.made, mem_storedIds_iff.mpr ⟨?_, hstored.present rfl⟩⟩
  rw [hstored.storing.id]
  exact d.2

/-- **A client who follows the cursors sees every file once.** Without an adversary, an enumeration that has ended holds
ids in order, only of files that are there, and, when the last page leads to no other, each file that was there when it
began once. It comes to such a page when it may ask for more pages than there are files. It fails only with an operation
of its own, or when the service has no key. -/
theorem enumerated_once (hideal : C.Ideal) (hreads : ReadsUtf8 parse) (hintact : ∀ deed, ¬ takes (.tamper deed))
    (hrun : ((service s C parse).machine takes).run start es = some c) (hu : u ∈ c.tasks) {limits : List Int} {w : World}
    (hcall : c.shared.calls[u.id]? = some (.enumerate tenant limits, w))
    (hlimits : ∀ limit ∈ limits, 1 ≤ limit ∧ limit ≤ 100) {r : Except Failure Outcome} (hdone : u.program = .done r) :
    (∃ (pages : List Page) (ids : List String), r = .ok (.pages pages) ∧ (pages.flatMap (·.files)).map idOf = ids.map some ∧
      ids.Pairwise (· < ·) ∧ (∀ id ∈ ids, id ∈ c.shared.state.storedIds tenant) ∧
      (finished pages → ∀ id ∈ w.storedIds tenant, ids.count id = 1) ∧
      ((c.shared.state.storedIds tenant).length < limits.length → finished pages)) ∨
    ((∃ e, r = .error e) ∧ (u.id ∈ c.shared.state.failures ∨ s.key? = none)) := by
  have hsound : (fileLogic s C (tenantsOf takes) false (ended s C false)).Sound (service s C parse) takes :=
    sound hideal hreads (allowed_of_intact hintact)
  obtain ⟨k, w', hcall', hended⟩ := hsound.run_post orderly_start hrun hu hdone
  obtain ⟨rfl, rfl⟩ := Prod.mk.inj (Option.some.inj (hcall.symm.trans hcall'))
  obtain ⟨hok, herror⟩ := hended.2 rfl hlimits
  cases r with
  | error e => exact .inr ⟨⟨e, rfl⟩, herror e rfl⟩
  | ok o =>
    obtain ⟨pages, ids, rfl, hpages⟩ := hok o rfl
    have hnodup := nodup_of_increasing hpages.increasing
    refine .inl ⟨pages, ids, rfl, hpages.files, hpages.increasing, hpages.present, fun hfinished id hid => ?_, fun hfew => ?_⟩
    · have hmem := hpages.complete hfinished id hid fun c hc => by cases hc
      exact List.count_eq_one_of_mem hnodup hmem
    · by_contra hunfinished
      have hsubset : ids ⊆ c.shared.state.storedIds tenant := fun id hid => hpages.present id hid
      have hlength := (List.subperm_of_subset hnodup hsubset).length_le
      have hmany := hpages.unfinished hunfinished
      omega

end

/-! ## A sample -/

/-- A platform whose numbers have texts of their own. -/
@[reducible] def exactPlatform : Platform := { Platform.plain with toRuntime := Runtime.exact }

def bucketRouter : StorageRouter where
  config := { defaultProvider := "a", providers := [("a", .s3 (bucketAt "http://a:9000"))], routes := [] }
  providers := [("a", .s3 (bucketAt "http://a:9000"))]

/-- The key consists of 32 zeros. -/
def sampleService : FileService where
  storage := bucketRouter
  credential := some "AAAAAAAAAAAAAAAAAAAAAAAAAAAAAAAAAAAAAAAAAAA="
  windows := false

theorem key?_sampleService : sampleService.key? = some (List.replicate 32 0) := by decide

def sampleUuid : Uuid := ⟨"00000000-0000-4000-8000-000000000000", by decide⟩

/-- Everything is done. -/
def sampleFate : Fate where
  ending := .done
  uuid := sampleUuid
  createdAt := "2026-01-01T00:00:00.000Z"
  nonce := ⟨List.replicate 12 0, rfl⟩
  count := 0

/-- A greeting is stored, and then two pages of one file are asked for. -/
theorem enumerated_once_hello :
    letI := exactPlatform
    letI S := service sampleService .labelled parseUtf8
    ∃ es c, (S.machine fun k => k.tenant?.isSome).run start es = some c ∧
      ∃ u ∈ c.tasks, ∃ w r, c.shared.calls[u.id]? = some (.enumerate "hello" [1, 1], w) ∧ u.program = .done r ∧
        ((∃ (pages : List Page) (ids : List String), r = .ok (.pages pages) ∧
          (pages.flatMap (·.files)).map idOf = ids.map some ∧ ids.Pairwise (· < ·) ∧
          (∀ id ∈ ids, id ∈ c.shared.state.storedIds "hello") ∧
          (finished pages → ∀ id ∈ w.storedIds "hello", ids.count id = 1) ∧
          ((c.shared.state.storedIds "hello").length < 2 → finished pages)) ∨
        ((∃ e, r = .error e) ∧ (u.id ∈ c.shared.state.failures ∨ sampleService.key? = none))) := by
  let _ := exactPlatform
  let _ : NumberText := numberText_exact
  let S := service sampleService .labelled parseUtf8
  let T : Call → Bool := fun k => k.tenant?.isSome
  have hintact : ∀ deed, ¬ T (.tamper deed) := fun _ h => by cases h
  have hstored : T (.store "hello" "me" "a.txt" "text/plain" hello) := rfl
  have hasked : T (.enumerate "hello" [1, 1]) := rfl
  obtain ⟨es, hstore⟩ := S.run_alone hstored start fun _ => sampleFate
  obtain ⟨es', henumerate⟩ := S.run_alone hasked _ fun _ => sampleFate
  have hrun := ((S.machine T).run_append hstore es').trans henumerate
  refine ⟨es ++ es', _, hrun, _, List.mem_append_right _ List.mem_cons_self, _, _, rfl, rfl, ?_⟩
  refine enumerated_once Cipher.ideal_labelled reads_parseUtf8 hintact hrun
    (List.mem_append_right _ List.mem_cons_self) rfl ?_ rfl
  intro limit hlimit
  have hone : limit = 1 := by simpa using hlimit
  omega

end Files
