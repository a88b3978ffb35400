-- SUMMARY: Round trips of files, and that an adversary who moves index files and contents makes no other file of an id.
import TwinServer.Files.Integrity

/-!
# Binding

A file is read back as it was stored. Whatever index files and contents are copied, swapped or deleted, the metadata and
the bytes of an id are those of the one store that drew it, or there are none.
-/

open Js Js.Json Async Storage

namespace Files

section
variable [Platform] {s : FileService} {C : Cipher} {parse : Bytes → Option Json} {takes : Call → Bool}

/-- The index file of the id is as it was, and what was stored is stored. -/
structure Undisturbed (tenant id : String) (w w' : World) : Prop where
  file : w'.file? (tenantDigest tenant) (indexName id) = w.file? (tenantDigest tenant) (indexName id)
  storage : ∀ location bytes, w.storage location = some bytes → w'.storage location = some bytes

/-- The metadata and the data are those of the one store for the tenant that drew the id. If a store has returned metadata
with the id, it is this one, and it has returned these. -/
def Original (c : Moment) (tenant id : String) (m : FileMetadata) (data : Bytes) : Prop :=
  m.id = id ∧ ∃ v, Made c.shared v tenant m data ∧ ∀ z ∈ c.tasks, ∀ m',
    z.program = .done (.ok (.stored m')) → m'.id = id → z.id = v ∧ m' = m

/-- What the adversary makes up opens for no file. -/
theorem allowed_of_moves (hown : ∀ deed bytes, takes (.tamper deed) → deed.source = some (.own bytes) → Foreign s C bytes)
    (k : Call) (hk : takes k) : k.Allowed s C (tenantsOf takes) true where
  tenant _ htenant := ⟨k, hk, htenant⟩
  tampers _ _ := rfl
  own deed bytes h := hown deed bytes (h ▸ hk)

variable {es : List (Event Call Fate Empty)} {c : Moment} {tenant id : String} {m : FileMetadata} {data : Bytes}

/-- What is genuine belongs to one store of the run. -/
theorem original_of_genuine (hdistinct : Set.InjOn tenantDigest (tenantsOf takes))
    (hsound : (fileLogic s C (tenantsOf takes) true (ended s C true)).Sound (service s C parse) takes)
    (hrun : ((service s C parse).machine takes).run start es = some c) (htenant : tenant ∈ tenantsOf takes)
    (h : Genuine s C tenant id m data c.shared) : Original c tenant id m data := by
  obtain ⟨v, tenant', bytes, hdigest, hid, hmade, hwritten, hindex⟩ := h
  have hinv := hsound.run_inv orderly_start hrun
  have htenant' : tenant' ∈ tenantsOf takes := by
    obtain ⟨subject, name, contentType, w, d, createdAt, hcall, -⟩ := hmade
    exact hinv.tenants _ (List.mem_of_getElem? hcall) tenant' rfl
  obtain rfl := hdistinct htenant' htenant hdigest
  refine ⟨hid, v, hmade, fun z hz m' hdone hid' => ?_⟩
  obtain ⟨tenant'', d, data', hstored⟩ := stored_of_ended (hsound.run_post orderly_start hrun hz hdone)
  have hsame : z.id = v := (hstored.storing.made.unique hinv hmade (hid'.trans hid.symm)).1
  exact ⟨hsame, (hstored.storing.only bytes _ m (hsame ▸ hwritten) hindex).symm⟩

/-! ## One file -/

/-- What a store needs: a key, a file that it accepts, a storage that takes the content, and a new temporary name. -/
structure Accepted (s : FileService) (C : Cipher) (tenant name contentType : String) (data : Bytes) (w : World) : Prop where
  key : s.key?.isSome
  size : data.length ≤ MAX_FILE_BYTES
  acceptable : isAcceptable name contentType
  taken : ∀ key nonce (d : Uuid), s.key? = some key →
    (s.storage.store (blobInput C key nonce tenant d.1 data) w.storage).isOk
  new : ∀ d, d ∉ w.draws.map Prod.snd → w.file? (tenantDigest tenant) (temporaryName d.1) = none

/-- The metadata say what was given to the store. -/
structure Describes (subject name contentType : String) (data : Bytes) (m : FileMetadata) : Prop where
  name : m.name = name
  contentType : m.contentType = contentType
  size : m.size = data.length
  sha256 : m.sha256 = digest data
  createdBy : m.createdBy = subject

section
variable {subject name contentType : String} {w w' w'' : World} {t : Nat} {f : Nat → Fate}

theorem store_alone (h : Accepted s C tenant name contentType data w)
    (hsmooth : ∀ n, Smooth (w.draws.map Prod.snd) (f n)) :
    ∃ m w', (service s C parse).alone t (store s C tenant subject name contentType data) w f = (.ok m, w') := by
  obtain ⟨key, hkey⟩ := Option.isSome_iff_exists.mp h.key
  have hreturns : Returns s C parse (w.draws.map Prod.snd) t (fun _ _ => True)
      (store s C tenant subject name contentType data) w :=
    returns_store hkey h.size h.acceptable (fun nonce d => h.taken key nonce d hkey) h.new
  obtain ⟨m, hm, -⟩ := hreturns.alone hsmooth
  exact ⟨m, _, Prod.ext hm rfl⟩

/-- What a store has returned describes the file, and the file is in its place. -/
theorem inPlace_of_store (hback : ReadsBack s C tenant data w)
    (h : (service s C parse).alone t (store s C tenant subject name contentType data) w f = (.ok m, w')) :
    Describes subject name contentType data m ∧ InPlace s C tenant m data w' := by
  have hyields : Yields s C parse t (fun m w' => InPlace s C tenant m data w' ∧ m.name = name ∧
      m.contentType = contentType ∧ m.createdBy = subject) (store s C tenant subject name contentType data) w :=
    yields_store hback
  have hends := Service.Ends.alone hyields (f := f) fun _ => trivial
  rw [h] at hends
  obtain ⟨hplace, hname, htype, hsubject⟩ := hends m rfl
  exact ⟨⟨hname, htype, hplace.size, hplace.sha256, hsubject⟩, hplace⟩

theorem read_alone (hideal : C.Ideal) (hreads : ReadsUtf8 parse) (hplace : InPlace s C tenant m data w)
    (hdone : ∀ n, (f n).ending = .done) :
    (service s C parse).alone t (read C parse tenant m.id) w f = (.ok (m.json, data), w) := by
  have hreturns : Returns s C parse [] t (fun r w' => r = (m.json, data) ∧ w' = w) (read C parse tenant m.id) w :=
    returns_read hideal hreads hplace
  obtain ⟨r, hr, rfl, hw⟩ := hreturns.alone fun n => ⟨hdone n, List.not_mem_nil⟩
  exact Prod.ext hr hw

end

/-! ## All of them -/

/-- **Files are read as they were stored.** A file that is accepted is stored when nothing fails. When a store has returned
and the file is undisturbed, a reading returns its metadata and its bytes. Beside an adversary, every metadata and all
bytes that a call returns are those of the one store that drew the id. -/
theorem stored_is_read [NumberText] (hideal : C.Ideal) (hreads : ReadsUtf8 parse)
    (hdistinct : Set.InjOn tenantDigest (tenantsOf takes))
    (hown : ∀ deed bytes, takes (.tamper deed) → deed.source = some (.own bytes) → Foreign s C bytes) :
    (∀ tenant subject name contentType data w t f,
      (Accepted s C tenant name contentType data w → (∀ n, Smooth (w.draws.map Prod.snd) (f n)) →
        ∃ m w', (service s C parse).alone t (store s C tenant subject name contentType data) w f = (.ok m, w')) ∧
      ∀ m w', (service s C parse).alone t (store s C tenant subject name contentType data) w f = (.ok m, w') →
        ReadsBack s C tenant data w → Describes subject name contentType data m ∧
          ∀ w'' t' f', Undisturbed tenant m.id w' w'' → (∀ n, (f' n).ending = .done) →
            (service s C parse).alone t' (read C parse tenant m.id) w'' f' = (.ok (m.json, data), w'')) ∧
    (∀ es c, ((service s C parse).machine takes).run start es = some c →
      ∀ u ∈ c.tasks, ∀ o, u.program = .done (.ok o) → ∀ tenant id w,
        (c.shared.calls[u.id]? = some (.metadata tenant id, w) →
          ∃ m data, o = .metadata m.json ∧ Original c tenant id m data) ∧
        (c.shared.calls[u.id]? = some (.read tenant id, w) →
          ∃ m data, o = .file m.json data ∧ Original c tenant id m data)) := by
  refine ⟨fun tenant subject name contentType data w t f => ⟨store_alone, fun m w' halone hback => ?_⟩,
    fun es c hrun u hu o hdone tenant id w => ?_⟩
  · obtain ⟨hdescribes, hplace⟩ := inPlace_of_store hback halone
    refine ⟨hdescribes, fun w'' t' f' hundisturbed hdone => read_alone hideal hreads ?_ hdone⟩
    exact hplace.later hundisturbed.file hundisturbed.storage
  · have hsound : (fileLogic s C (tenantsOf takes) true (ended s C true)).Sound (service s C parse) takes :=
      sound hideal hreads (allowed_of_moves hown)
    have hinv := hsound.run_inv orderly_start hrun
    obtain ⟨k, w', hcall, hended⟩ := hsound.run_post orderly_start hrun hu hdone
    have htenant : ∀ tenant, k.tenant? = some tenant → tenant ∈ tenantsOf takes :=
      hinv.tenants _ (List.mem_of_getElem? hcall)
    refine ⟨fun hmetadata => ?_, fun hread => ?_⟩
    · obtain ⟨rfl, rfl⟩ := Prod.mk.inj (Option.some.inj (hcall.symm.trans hmetadata))
      obtain ⟨m, data, hm, hgenuine⟩ := hended o rfl
      exact ⟨m, data, hm, original_of_genuine hdistinct hsound hrun (htenant tenant rfl) hgenuine⟩
    · obtain ⟨rfl, rfl⟩ := Prod.mk.inj (Option.some.inj (hcall.symm.trans hread))
      obtain ⟨m, data, hm, hgenuine⟩ := hended o rfl
      exact ⟨m, data, hm, original_of_genuine hdistinct hsound hrun (htenant tenant rfl) hgenuine⟩

end

/-! ## A sample -/

/-- The only bucket takes its URIs for its own. -/
theorem readsBack_sample (tenant : String) (data : Bytes) (w : World) :
    @ReadsBack exactPlatform sampleService .labelled tenant data w := by
  let _ := exactPlatform
  intro key nonce d _ name provider location uri hprovider haddress
  have hbucket : sampleService.storage.providerFor (some "files") = .ok ("a", .s3 (bucketAt "http://a:9000")) := rfl
  obtain ⟨rfl, rfl⟩ := Prod.mk.inj (Except.ok.inj (hbucket.symm.trans hprovider))
  obtain ⟨rfl, rfl⟩ := Prod.mk.inj (Except.ok.inj haddress)
  exact ⟨trivial, fun other hother => (by cases hother), fun config h => by cases h⟩

theorem accepted_sample :
    @Accepted exactPlatform sampleService .labelled "hello" "a.txt" "text/plain" hello World.empty := by
  let _ := exactPlatform
  refine ⟨?_, by decide, by decide, fun _ _ _ _ => rfl, fun _ _ => rfl⟩
  rw [key?_sampleService]
  rfl

/-- The tenant of the sample calls the service, and an adversary moves what was written. -/
def sampleTakes : Call → Bool
  | .tamper deed => match deed.source with
    | some (.own _) => false
    | _ => true
  | k => k.tenant? == some "hello"

/-- A greeting is stored and read. -/
theorem stored_is_read_hello :
    letI := exactPlatform
    letI S := service sampleService .labelled parseUtf8
    ∃ m w, S.alone 0 (store sampleService .labelled "hello" "me" "a.txt" "text/plain" hello) World.empty
        (fun _ => sampleFate) = (.ok m, w) ∧
      S.alone 1 (read .labelled parseUtf8 "hello" m.id) w (fun _ => sampleFate) = (.ok (m.json, hello), w) := by
  let _ := exactPlatform
  let _ : NumberText := numberText_exact
  have hdistinct : Set.InjOn tenantDigest (tenantsOf sampleTakes) := by
    have hhello : ∀ tenant ∈ tenantsOf sampleTakes, tenant = "hello" := by
      rintro tenant ⟨k, hk, htenant⟩
      have hk : (k.tenant? == some "hello") = true := by
        cases k with
        | tamper deed => cases htenant
        | _ => exact hk
      rw [htenant] at hk
      exact Option.some.inj (eq_of_beq hk)
    exact fun tenant h tenant' h' _ => (hhello tenant h).trans (hhello tenant' h').symm
  have hown : ∀ deed bytes, sampleTakes (.tamper deed) → deed.source = some (.own bytes) →
      Foreign sampleService .labelled bytes := by
    intro deed bytes htakes hsource
    rw [sampleTakes, hsource] at htakes
    cases htakes
  obtain ⟨halone, -⟩ := stored_is_read Cipher.ideal_labelled reads_parseUtf8 hdistinct hown
  obtain ⟨hstores, hreads⟩ := halone "hello" "me" "a.txt" "text/plain" hello World.empty 0 fun _ => sampleFate
  obtain ⟨m, w, hstore⟩ := hstores accepted_sample fun _ => ⟨rfl, List.not_mem_nil⟩
  obtain ⟨-, hread⟩ := hreads m w hstore (readsBack_sample "hello" hello World.empty)
  exact ⟨m, w, hstore, hread w 1 (fun _ => sampleFate) ⟨rfl, fun _ _ h => h⟩ fun _ => rfl⟩

/-- The synchronisation of the folder fails, after the index file has got its name. -/
def unsynchronised (n : Nat) : Fate := if n = 13 then { sampleFate with ending := .refused } else sampleFate

def sampleMetadata : FileMetadata :=
  @FileMetadata.of exactPlatform sampleUuid "me" "a.txt" "text/plain" hello sampleFate.createdAt

def sampleStore : Call := .store "hello" "me" "a.txt" "text/plain" hello

noncomputable def sampleSystem : Service World Call Query Query.Answer Failure Outcome Fate :=
  @service exactPlatform sampleService .labelled (@parseUtf8 exactPlatform)

/-- What the rejected store has ended with, and what it has left. -/
noncomputable def rejected : Except Failure Outcome × World :=
  sampleSystem.alone 0 (sampleSystem.program sampleStore) World.empty unsynchronised

theorem error_rejected : rejected.1 = .error .other := rfl

theorem file?_rejected : ∃ uri, rejected.2.file? (@tenantDigest exactPlatform "hello") (indexName sampleMetadata.id) =
    some (encrypt .labelled (@indexText exactPlatform sampleMetadata uri) (List.replicate 32 0)
      (@aad exactPlatform "hello" sampleMetadata.id .index) sampleFate.nonce) :=
  ⟨_, rfl⟩

/-- The metadata of the file are read afterwards. -/
theorem metadata_rejected :
    (sampleSystem.alone 1 (sampleSystem.program (.metadata "hello" sampleMetadata.id)) rejected.2 fun _ => sampleFate).1 =
      .ok (.metadata sampleMetadata.json) := by
  let _ := exactPlatform
  let _ : NumberText := numberText_exact
  obtain ⟨uri, hfile⟩ := file?_rejected
  generalize rejected.2 = w at hfile ⊢
  have hvalid : validId sampleMetadata.id := sampleUuid.2
  have hreturns : Returns sampleService .labelled parseUtf8 [] 1 (fun j w' => j = sampleMetadata.json ∧ w' = w)
      (metadata .labelled parseUtf8 "hello" sampleMetadata.id) w :=
    returns_metadata (m := sampleMetadata) Cipher.ideal_labelled reads_parseUtf8 key?_sampleService hvalid hfile
  have hmapped : Returns sampleService .labelled parseUtf8 [] 1 (fun o _ => o = .metadata sampleMetadata.json)
      (Outcome.metadata <$> metadata .labelled parseUtf8 "hello" sampleMetadata.id) w :=
    Service.Returns.bind hreturns fun j w hj => Service.Returns.pure (congrArg Outcome.metadata hj.1)
  obtain ⟨o, ho, rfl⟩ := hmapped.alone (f := fun _ => sampleFate) fun _ => ⟨rfl, List.not_mem_nil⟩
  exact ho

/-- A store that is rejected leaves its file, so that metadata are read that no store has returned. -/
theorem rejected_store_read :
    ¬ ∀ es c, (sampleSystem.machine fun _ => true).run start es = some c → ∀ u ∈ c.tasks, ∀ tenant id w j,
      c.shared.calls[u.id]? = some (.metadata tenant id, w) → u.program = .done (.ok (.metadata j)) →
      ∃ z ∈ c.tasks, ∃ m, z.program = .done (.ok (.stored m)) ∧ m.json = j := by
  intro hclaim
  let T : Call → Bool := fun _ => true
  have hstored : T sampleStore := rfl
  have hasked : T (.metadata "hello" sampleMetadata.id) := rfl
  obtain ⟨es, hstore⟩ := sampleSystem.run_alone hstored start unsynchronised
  obtain ⟨es', hmetadata⟩ := sampleSystem.run_alone hasked _ fun _ => sampleFate
  have hrun := ((sampleSystem.machine T).run_append hstore es').trans hmetadata
  obtain ⟨z, hz, m, hreturned, -⟩ := hclaim _ _ hrun _ (List.mem_append_right _ List.mem_cons_self) "hello"
    sampleMetadata.id rejected.2 sampleMetadata.json rfl (congrArg Program.done metadata_rejected)
  rcases List.mem_append.mp hz with hz | hz
  · obtain rfl := List.mem_singleton.mp hz
    have herror : Program.done rejected.1 = .done (.ok (.stored m)) := hreturned
    rw [error_rejected] at herror
    cases herror
  · obtain rfl := List.mem_singleton.mp hz
    have hother := hreturned.symm.trans (congrArg Program.done metadata_rejected)
    cases hother

end Files
