-- SUMMARY: What is stored is read back, and whatever an adversary moves, nothing else is read.
import TwinServer.Files.Runs

/-!
# Integrity

A store that returns leaves a file that is read back as it was given. Beside an adversary who moves index files and
contents about, a reading fails, or it returns what the one store of the id was given.
-/

open Js Js.Json Async Storage

namespace Files

section
variable [Platform] {s : FileService} {C : Cipher} {parse : Bytes → Option Json} {t : Nat} {w w' : World}
  {tenant subject name contentType id uri : String} {m : FileMetadata} {data bytes key : Bytes}

/-! ## One call after the other -/

/-- Nothing that is asked fails, and what is drawn is none of the ids. -/
def Smooth (drawn : List Uuid) (f : Fate) : Prop := f.ending = .done ∧ f.uuid ∉ drawn

omit [Platform] in
theorem ending_eq_ok {α : Type} {call : Nat} {r : Except Failure α × World} {e : Ending} {a : α}
    (h : (w.ending call r e).1 = .ok a) : e = .done ∧ w.ending call r e = r := by
  cases e with
  | done => exact ⟨rfl, rfl⟩
  | refused => cases h
  | unreported => cases h

variable (s C parse) in
/-- If the program returns, it is with a result of this kind. -/
abbrev Yields {α : Type} (t : Nat) (R : α → World → Prop) (p : Act α) (w : World) : Prop :=
  (service s C parse).Yields t (fun _ => True) R p w

variable (s C parse) in
/-- When nothing fails, the program returns a result of this kind. -/
abbrev Returns {α : Type} (drawn : List Uuid) (t : Nat) (R : α → World → Prop) (p : Act α) (w : World) : Prop :=
  (service s C parse).Returns t (Smooth drawn) R p w

variable {drawn : List Uuid}

theorem yields_query {q : Query} {R : q.Answer → World → Prop} {r : Fate → Except Failure q.Answer × World}
    (hserve : ∀ f, serve s w t q f = w.ending t (r f) f.ending)
    (h : ∀ f a, f.ending = .done → (r f).1 = .ok a → R a (r f).2) : Yields s C parse t R (Program.query q) w := by
  refine Service.Yields.query fun f _ a ha => ?_
  change (serve s w t q f).1 = .ok a at ha
  change R a (serve s w t q f).2
  rw [hserve] at ha ⊢
  obtain ⟨hdone, heq⟩ := ending_eq_ok ha
  rw [heq] at ha ⊢
  exact h f a hdone ha

theorem returns_query {q : Query} {R : q.Answer → World → Prop} {r : Fate → Except Failure q.Answer × World}
    (hserve : ∀ f, serve s w t q f = w.ending t (r f) f.ending)
    (h : ∀ f, ∃ a, (r f).1 = .ok a ∧ R a (r f).2) : Returns s C parse drawn t R (Program.query q) w := by
  refine Service.Returns.query fun f hf => ?_
  change ∃ a, (serve s w t q f).1 = .ok a ∧ R a (serve s w t q f).2
  rw [hserve, hf.1]
  exact h f

theorem returns_key (h : s.key? = some key) : Returns s C parse drawn t (fun k w' => k = key ∧ w' = w) Files.key w := by
  have hcredential : Returns s C parse drawn t (fun value w' => value = s.credential ∧ w' = w)
      (Program.query Query.credential) w :=
    returns_query (q := .credential) (r := fun _ => (.ok s.credential, w)) (fun _ => rfl) fun _ => ⟨s.credential, rfl, rfl, rfl⟩
  refine Service.Returns.bind hcredential fun value w' hvalue => ?_
  obtain ⟨rfl, rfl⟩ := hvalue
  obtain ⟨encoded, hencoded, hkey⟩ := Option.bind_eq_some_iff.mp h
  rw [hencoded]
  dsimp only
  rw [hkey]
  exact Service.Returns.pure ⟨rfl, rfl⟩

theorem yields_key : Yields s C parse t (fun k w' => s.key? = some k ∧ w' = w) Files.key w := by
  have hcredential : Yields s C parse t (fun value w' => value = s.credential ∧ w' = w)
      (Program.query Query.credential) w :=
    yields_query (q := .credential) (r := fun _ => (.ok s.credential, w)) (fun _ => rfl) fun _ _ _ h => ⟨(Except.ok.inj h).symm, rfl⟩
  refine Service.Yields.bind hcredential fun value w' hvalue => ?_
  obtain ⟨rfl, rfl⟩ := hvalue
  unfold FileService.key?
  cases s.credential.filter (· != "") with
  | none => exact Service.yields_raise _
  | some encoded =>
    dsimp only
    cases hkey : fileKey encoded with
    | none => exact Service.yields_raise _
    | some k => exact Service.Yields.pure ⟨hkey, rfl⟩

/-! ## A file in its place -/

/-- The index file of the id holds the record of the metadata, and the URI leads to the data. -/
structure InPlace (s : FileService) (C : Cipher) (tenant : String) (m : FileMetadata) (data : Bytes) (w : World) :
    Prop where
  file : ∃ key nonce nonce' uri, s.key? = some key ∧
    w.file? (tenantDigest tenant) (indexName m.id) =
      some (encrypt C (indexText m uri) key (aad tenant m.id .index) nonce) ∧
    s.storage.read uri w.storage = .ok (encrypt C data key (aad tenant m.id .content) nonce')
  id : validId m.id
  size : m.size = data.length
  sha256 : m.sha256 = digest data

/-- An index file that is there is read when nothing fails. -/
theorem returns_record (hideal : C.Ideal) (hreads : ReadsUtf8 parse) (hkey : s.key? = some key) (hid : validId m.id)
    {nonce : Nonce} (hfile : w.file? (tenantDigest tenant) (indexName m.id) =
      some (encrypt C (indexText m uri) key (aad tenant m.id .index) nonce)) :
    Returns s C parse drawn t (fun r w' => r = (m.json, uri) ∧ w' = w) (record C parse tenant m.id) w := by
  have hopens : (decrypt C (encrypt C (indexText m uri) key (aad tenant m.id .index) nonce) key
      (aad tenant m.id .index)).bind (readIndex parse m.id) = some (m.json, uri) := by
    rw [decrypt_encrypt hideal, Option.bind_some, readIndex_indexText hreads, if_pos rfl]
  generalize encrypt C (indexText m uri) key (aad tenant m.id .index) nonce = index at hfile hopens
  have hindexFile : Returns s C parse drawn t (fun bytes w' => bytes = index ∧ w' = w)
      (readIndexFile (tenantDigest tenant) m.id) w := by
    refine Service.Ends.handle (B := fun r w' => ∃ b, r = .ok b ∧ b = index ∧ w' = w) ?_ fun r w' hr => ?_
    · refine returns_query (q := .readFile (tenantDigest tenant) (indexName m.id))
        (r := fun _ => ((w.file? (tenantDigest tenant) (indexName m.id)).elim (.error .noEntry) .ok, w)) (fun _ => rfl)
        fun _ => ?_
      rw [hfile]
      exact ⟨_, rfl, rfl, rfl⟩
    · obtain ⟨b, rfl, rfl, rfl⟩ := hr
      exact Service.Returns.pure ⟨rfl, rfl⟩
  rw [record, hid]
  refine Service.Returns.bind (G := fun _ w' => w' = w) (Service.Returns.pure rfl) fun _ w' hw => ?_
  subst hw
  refine Service.Returns.bind hindexFile fun bytes w' hbytes => ?_
  obtain ⟨rfl, rfl⟩ := hbytes
  refine Service.Returns.bind (returns_key hkey) fun k w' hk => ?_
  obtain ⟨rfl, rfl⟩ := hk
  rw [hopens]
  exact Service.Returns.pure ⟨rfl, rfl⟩

theorem returns_metadata (hideal : C.Ideal) (hreads : ReadsUtf8 parse) (hkey : s.key? = some key) (hid : validId m.id)
    {nonce : Nonce} (hfile : w.file? (tenantDigest tenant) (indexName m.id) =
      some (encrypt C (indexText m uri) key (aad tenant m.id .index) nonce)) :
    Returns s C parse drawn t (fun j w' => j = m.json ∧ w' = w) (metadata C parse tenant m.id) w := by
  refine Service.Returns.bind (returns_record hideal hreads hkey hid hfile) fun r w' hr => Service.Returns.pure ?_
  obtain ⟨rfl, rfl⟩ := hr
  exact ⟨rfl, rfl⟩

/-- What is in its place is read when nothing fails. -/
theorem returns_read (hideal : C.Ideal) (hreads : ReadsUtf8 parse) (h : InPlace s C tenant m data w) :
    Returns s C parse drawn t (fun r w' => r = (m.json, data) ∧ w' = w) (read C parse tenant m.id) w := by
  obtain ⟨⟨key, nonce, nonce', uri, hkey, hfile, hblob⟩, hid, hsize, hsha⟩ := h
  have hcontent : (decrypt C (encrypt C data key (aad tenant m.id .content) nonce') key
      (aad tenant m.id .content)).filter (isContentOf m.json) = some data := by
    rw [decrypt_encrypt hideal, Option.filter_some, if_pos (isContentOf_json hsize hsha)]
  generalize encrypt C data key (aad tenant m.id .content) nonce' = content at hblob hcontent
  refine Service.Returns.bind (returns_record hideal hreads hkey hid hfile) fun r w' hr => ?_
  obtain ⟨rfl, rfl⟩ := hr
  refine Service.Returns.bind (returns_key hkey) fun k w' hk => ?_
  obtain ⟨rfl, rfl⟩ := hk
  refine Service.Returns.bind (G := fun data' w'' => data' = data ∧ w'' = w') (Service.Returns.orElse ?_)
    fun data' w'' hdata => ?_
  · have hread : Returns s C parse drawn t (fun bytes w'' => bytes = content ∧ w'' = w')
        (Program.query (Query.readBlob uri)) w' := by
      refine returns_query (q := .readBlob uri) (r := fun _ => (w'.readBlob s.storage uri, w')) (fun _ => rfl) fun _ => ?_
      rw [World.readBlob, hblob]
      exact ⟨content, rfl, rfl, rfl⟩
    refine Service.Returns.bind hread fun bytes w'' hbytes => ?_
    obtain ⟨rfl, rfl⟩ := hbytes
    rw [hcontent]
    exact Service.Returns.pure ⟨rfl, rfl⟩
  · obtain ⟨rfl, rfl⟩ := hdata
    exact Service.Returns.pure ⟨rfl, rfl⟩

/-- The router reads what is still there. -/
theorem read_mono {router : StorageRouter} {v v' : Storage.World} (h : router.read uri v = .ok bytes)
    (hkept : ∀ location bytes, v location = some bytes → v' location = some bytes) : router.read uri v' = .ok bytes := by
  obtain ⟨⟨name, provider⟩, hprovider, hread⟩ := Except.bind_eq_ok.mp h
  have hread : provider.read uri v = .ok bytes := hread
  obtain ⟨location, hlocation, hbytes⟩ := Except.bind_eq_ok.mp (rethrow_eq_ok hread)
  cases hv : v location with
  | none =>
    rw [hv] at hbytes
    cases hbytes
  | some found =>
    rw [hv] at hbytes
    obtain rfl := Except.ok.inj hbytes
    unfold StorageRouter.read
    rw [hprovider]
    exact read_of_locationOf hlocation (hkept location found hv)

/-- A file stays in its place while its index file and what is stored do. -/
theorem InPlace.later (h : InPlace s C tenant m data w)
    (hfile : w'.file? (tenantDigest tenant) (indexName m.id) = w.file? (tenantDigest tenant) (indexName m.id))
    (hstorage : ∀ location bytes, w.storage location = some bytes → w'.storage location = some bytes) :
    InPlace s C tenant m data w' := by
  obtain ⟨⟨key, nonce, nonce', uri, hkey, hindex, hblob⟩, hid, hsize, hsha⟩ := h
  exact ⟨⟨key, nonce, nonce', uri, hkey, hfile.trans hindex, read_mono hblob hstorage⟩, hid, hsize, hsha⟩

/-! ## What a store leaves -/

theorem yields_settle : Yields s C parse t (fun _ w' => w' = w) (Program.query Query.settle) w :=
  yields_query (q := .settle) (r := fun _ => (.ok (), w)) (fun _ => rfl) fun _ _ _ _ => rfl

theorem yields_syncFolder : Yields s C parse t (fun _ w' => w' = w) (syncFolder s) w := by
  unfold syncFolder
  split
  · exact Service.Yields.pure rfl
  · refine Service.Yields.bind yields_settle fun _ w' hw => ?_
    subst hw
    refine Service.Yields.andFinally yields_settle fun _ w'' hw => ?_
    subst hw
    exact yields_settle

/-- The file with the name holds the record of the metadata, beside what is stored. -/
def Recorded (C : Cipher) (key : Bytes) (tenant : String) (m : FileMetadata) (uri : String) (v : Storage.World)
    (name : String) (w : World) : Prop :=
  w.storage = v ∧ ∃ nonce, w.file? (tenantDigest tenant) name =
    some (encrypt C (indexText m uri) key (aad tenant m.id .index) nonce)

/-- The record goes to the temporary file. -/
theorem yields_writeTemporary (hfile : (w.file? (tenantDigest tenant) (temporaryName m.id)).isSome) :
    Yields s C parse t (fun _ => Recorded C key tenant m uri w.storage (temporaryName m.id))
      (writeTemporary C key tenant m uri) w := by
  have hnonce : Yields s C parse t (fun _ w' => w' = w) (Program.query Query.randomBytes) w :=
    Service.Yields.query fun _ _ _ _ => rfl
  refine Service.Yields.bind hnonce fun nonce w' hw => ?_
  subst hw
  have hwrite : Yields s C parse t (fun _ w'' => w''.storage = w'.storage ∧
      w''.file? (tenantDigest tenant) (temporaryName m.id) =
        some (encrypt C (indexText m uri) key (aad tenant m.id .index) nonce))
      (Program.query (Query.writeFile (tenantDigest tenant) (temporaryName m.id)
        (encrypt C (indexText m uri) key (aad tenant m.id .index) nonce))) w' := by
    generalize encrypt C (indexText m uri) key (aad tenant m.id .index) nonce = bytes
    refine yields_query (q := .writeFile (tenantDigest tenant) (temporaryName m.id) bytes)
      (r := fun f => (.ok (), w'.writeFile t (tenantDigest tenant) (temporaryName m.id) bytes
        (if f.ending = .done then bytes else bytes.take f.count))) (fun _ => rfl) fun f _ hdone _ => ?_
    rw [if_pos hdone]
    unfold World.writeFile
    rw [if_pos hfile]
    exact ⟨rfl, (file?_set bytes).trans (if_pos ⟨rfl, rfl⟩)⟩
  refine Service.Yields.bind hwrite fun _ w'' hw'' => ?_
  exact yields_settle.mono fun r w₃ h x hx => by
    obtain rfl := h x hx
    exact ⟨hw''.1, nonce, hw''.2⟩

/-- The index file holds the record. -/
theorem yields_writeIndex : Yields s C parse t (fun _ => Recorded C key tenant m uri w.storage (indexName m.id))
    (writeIndex s C key tenant m uri) w := by
  have hopen : Yields s C parse t (fun _ w' => w'.storage = w.storage ∧
      (w'.file? (tenantDigest tenant) (temporaryName m.id)).isSome)
      (Program.query (Query.openNew (tenantDigest tenant) (temporaryName m.id))) w := by
    refine yields_query (q := .openNew (tenantDigest tenant) (temporaryName m.id))
      (r := fun _ => w.openNew (tenantDigest tenant) (temporaryName m.id)) (fun _ => rfl) fun f _ _ hok => ?_
    unfold World.openNew at hok ⊢
    cases hfolder : w.folders (tenantDigest tenant) with
    | none =>
      rw [hfolder] at hok
      cases hok
    | some files =>
      rw [hfolder] at hok
      dsimp only at hok ⊢
      split at hok
      · cases hok
      · next hnew =>
        rw [if_neg hnew]
        exact ⟨rfl, by rw [file?_set, if_pos ⟨rfl, rfl⟩]; rfl⟩
  refine Service.Yields.bind hopen fun _ w₁ hw₁ => ?_
  have hwrite : Yields s C parse t (fun _ => Recorded C key tenant m uri w₁.storage (temporaryName m.id))
      ((writeTemporary C key tenant m uri).andFinally (Program.query Query.settle)) w₁ :=
    Service.Yields.andFinally (yields_writeTemporary hw₁.2) fun _ w₂ hw₂ =>
      yields_settle.mono fun r w₃ h x hx => h x hx ▸ hw₂
  refine Service.Yields.bind hwrite fun _ w₂ hw₂ => ?_
  have hrename : Yields s C parse t (fun _ => Recorded C key tenant m uri w₂.storage (indexName m.id))
      (Program.query (Query.rename (tenantDigest tenant) (temporaryName m.id) (indexName m.id))) w₂ := by
    refine yields_query (q := .rename (tenantDigest tenant) (temporaryName m.id) (indexName m.id))
      (r := fun _ => w₂.rename (tenantDigest tenant) (temporaryName m.id) (indexName m.id)) (fun _ => rfl)
      fun f _ _ _ => ?_
    obtain ⟨-, nonce, hfile⟩ := hw₂
    have hindex := file?_rename hfile (indexName m.id) (tenantDigest tenant) (indexName m.id)
    rw [if_pos rfl, if_pos rfl] at hindex
    obtain ⟨folders, hsame⟩ := rename_eq w₂ (tenantDigest tenant) (temporaryName m.id) (indexName m.id)
    refine ⟨?_, nonce, hindex⟩
    rw [hsame]
  refine Service.Yields.bind hrename fun _ w₃ hw₃ => ?_
  exact yields_syncFolder.mono fun r w₄ h x hx => by
    obtain rfl := h x hx
    exact ⟨hw₃.1.trans (hw₂.1.trans hw₁.1), hw₃.2⟩

/-- The temporary file is gone, and nothing else has changed. -/
theorem yields_unlinkTemporary {v : Storage.World} (h : Recorded C key tenant m uri v (indexName m.id) w) (id : String) :
    Yields s C parse t (fun _ => Recorded C key tenant m uri v (indexName m.id))
      (unlinkTemporary (tenantDigest tenant) (temporaryName id)) w := by
  have hunlinked : Recorded C key tenant m uri v (indexName m.id)
      (w.unlink (tenantDigest tenant) (temporaryName id)).2 := by
    obtain ⟨folders, hsame⟩ := unlink_eq w (tenantDigest tenant) (temporaryName id)
    refine ⟨(congrArg World.storage hsame).trans h.1, ?_⟩
    rw [file?_unlink _ _ _ (indexName_ne_temporaryName m.id id)]
    exact h.2
  refine Service.Ends.handle (B := fun r w' => r ≠ .error .other → Recorded C key tenant m uri v (indexName m.id) w')
    (fun f _ => ?_) fun r w' hr => ?_
  · change (serve s w t (.unlink (tenantDigest tenant) (temporaryName id)) f).1 ≠ .error .other →
      Recorded C key tenant m uri v (indexName m.id) (serve s w t (.unlink (tenantDigest tenant) (temporaryName id)) f).2
    cases hending : f.ending with
    | done =>
      intro _
      rw [serve, hending]
      exact hunlinked
    | refused =>
      intro hother
      rw [serve, hending] at hother
      exact absurd rfl hother
    | unreported =>
      intro hother
      rw [serve, hending] at hother
      exact absurd rfl hother
  · cases r with
    | ok x => exact fun x _ => hr (fun h => by cases h)
    | error e =>
      cases e with
      | noEntry => exact fun x _ => hr (fun h => by cases h)
      | thrown thrown => exact fun x hx => by cases hx
      | other => exact fun x hx => by cases hx

/-- The storage reads back the content that a store gives it. -/
def ReadsBack (s : FileService) (C : Cipher) (tenant : String) (data : Bytes) (w : World) : Prop :=
  ∀ key nonce (d : Uuid), s.key? = some key → Owned s.storage (blobInput C key nonce tenant d.1 data) w.storage

/-- A store that returns leaves its file in its place. -/
theorem yields_store (hback : ReadsBack s C tenant data w) :
    Yields s C parse t (fun m w' => InPlace s C tenant m data w' ∧ m.name = name ∧ m.contentType = contentType ∧
      m.createdBy = subject) (store s C tenant subject name contentType data) w := by
  have hrefuse {c : Bool} {error : AppError} : Yields s C parse t (fun _ w' => w' = w) (refuseIf c error) w := by
    cases c with
    | true => exact Service.yields_raise _
    | false => exact Service.Yields.pure rfl
  refine Service.Yields.bind hrefuse fun _ w' hw => ?_
  subst hw
  refine Service.Yields.bind hrefuse fun _ w'' hw => ?_
  subst hw
  refine Service.Yields.bind yields_key fun key w' hkey => ?_
  obtain ⟨hkey, rfl⟩ := hkey
  have hdraw : Yields s C parse t (fun _ w'' => w''.storage = w'.storage) (Program.query Query.randomUUID) w' := by
    refine Service.Yields.query (q := Query.randomUUID) fun f _ d _ => ?_
    change (w'.draw t f.uuid).2.storage = w'.storage
    unfold World.draw
    split
    · rfl
    · rfl
  refine Service.Yields.bind hdraw fun d w₁ hw₁ => ?_
  have hnow : Yields s C parse t (fun _ w'' => w'' = w₁) (Program.query Query.now) w₁ :=
    Service.Yields.query fun _ _ _ _ => rfl
  refine Service.Yields.bind hnow fun createdAt w₂ hw₂ => ?_
  subst hw₂
  have hnonce : Yields s C parse t (fun _ w'' => w'' = w₂) (Program.query Query.randomBytes) w₂ :=
    Service.Yields.query fun _ _ _ _ => rfl
  refine Service.Yields.bind hnonce fun nonce w₃ hw₃ => ?_
  subst hw₃
  -- what the storage takes is read back
  have hstore : Yields s C parse t (fun blob w'' => s.storage.read blob.uri w''.storage =
      .ok (encrypt C data key (aad tenant d.1 .content) nonce))
      (Program.query (Query.storeBlob (blobInput C key nonce tenant d.1 data))) w₃ := by
    refine yields_query (q := .storeBlob (blobInput C key nonce tenant d.1 data))
      (r := fun _ => w₃.storeBlob s.storage t (blobInput C key nonce tenant d.1 data)) (fun _ => rfl)
      fun f stored _ hok => ?_
    have howned := hback key nonce d hkey
    rw [← hw₁] at howned
    unfold World.storeBlob at hok ⊢
    cases hstored : s.storage.store (blobInput C key nonce tenant d.1 data) w₃.storage with
    | error e =>
      rw [hstored] at hok
      cases hok
    | ok result =>
      rw [hstored] at hok
      obtain rfl := Except.ok.inj hok
      obtain ⟨name, provider, location, -, -, -, hread, -⟩ := roundTrip_of_owned howned _ _ hstored
      exact hread
  refine Service.Yields.bind hstore fun blob w₄ hblob => ?_
  have hmkdir : Yields s C parse t (fun _ w'' => w''.storage = w₄.storage)
      (Program.query (Query.mkdir (tenantDigest tenant))) w₄ :=
    yields_query (q := .mkdir (tenantDigest tenant)) (r := fun _ => (.ok (), w₄.modify (tenantDigest tenant) id))
      (fun _ => rfl) fun _ _ _ _ => rfl
  refine Service.Yields.bind hmkdir fun _ w₅ hw₅ => ?_
  let m := FileMetadata.of d subject name contentType data createdAt
  have hindex : Yields s C parse t (fun _ => Recorded C key tenant m blob.uri w₅.storage (indexName m.id))
      ((writeIndex s C key tenant m blob.uri).andFinally
        (unlinkTemporary (tenantDigest tenant) (temporaryName d.1))) w₅ :=
    Service.Yields.andFinally yields_writeIndex fun _ w₆ hw₆ => yields_unlinkTemporary hw₆ _
  refine Service.Yields.bind hindex fun _ w₆ hw₆ => Service.Yields.pure ?_
  obtain ⟨hw₆, nonce', hfile⟩ := hw₆
  refine ⟨⟨⟨key, nonce', nonce, blob.uri, hkey, hfile, ?_⟩, d.2, rfl, rfl⟩, rfl, rfl, rfl⟩
  rw [hw₆, hw₅]
  exact hblob

/-! ### That a store returns -/

theorem returns_settle : Returns s C parse drawn t (fun _ w' => w' = w) (Program.query Query.settle) w :=
  returns_query (q := .settle) (r := fun _ => (.ok (), w)) (fun _ => rfl) fun _ => ⟨(), rfl, rfl⟩

theorem returns_syncFolder : Returns s C parse drawn t (fun _ _ => True) (syncFolder s) w := by
  unfold syncFolder
  split
  · exact Service.Returns.pure trivial
  · refine Service.Returns.bind returns_settle fun _ _ _ => ?_
    exact Service.Returns.andFinally (R := fun _ _ => True) (returns_settle.mono fun _ _ ⟨x, hx, _⟩ => ⟨x, hx, trivial⟩)
      fun _ _ _ => returns_settle.mono fun _ _ ⟨x, hx, _⟩ => ⟨x, hx, trivial⟩

/-- The record goes to a new file, and the file gets its name. -/
theorem returns_writeIndex (hfolder : (w.folders (tenantDigest tenant)).isSome)
    (hnew : w.file? (tenantDigest tenant) (temporaryName m.id) = none) :
    Returns s C parse drawn t (fun _ _ => True) (writeIndex s C key tenant m uri) w := by
  have hopen : Returns s C parse drawn t (fun _ w' => (w'.file? (tenantDigest tenant) (temporaryName m.id)).isSome)
      (Program.query (Query.openNew (tenantDigest tenant) (temporaryName m.id))) w := by
    refine returns_query (q := .openNew (tenantDigest tenant) (temporaryName m.id))
      (r := fun _ => w.openNew (tenantDigest tenant) (temporaryName m.id)) (fun _ => rfl) fun _ => ?_
    unfold World.openNew
    unfold World.file? at hnew
    cases hfiles : w.folders (tenantDigest tenant) with
    | none =>
      rw [hfiles] at hfolder
      cases hfolder
    | some files =>
      rw [hfiles, Option.bind_some] at hnew
      have hmade : ((w.modify (tenantDigest tenant) (·.set (temporaryName m.id) [])).file? (tenantDigest tenant)
          (temporaryName m.id)).isSome := by
        rw [file?_set, if_pos ⟨rfl, rfl⟩]
        rfl
      dsimp only
      rw [hnew]
      exact ⟨(), rfl, hmade⟩
  refine Service.Returns.bind hopen fun _ w₁ hw₁ => ?_
  have hwrite : Returns s C parse drawn t (fun _ w₂ => (w₂.file? (tenantDigest tenant) (temporaryName m.id)).isSome)
      ((writeTemporary C key tenant m uri).andFinally (Program.query Query.settle)) w₁ := by
    refine Service.Returns.andFinally (R := fun _ w₂ => (w₂.file? (tenantDigest tenant) (temporaryName m.id)).isSome)
      ?_ fun _ w₂ hw₂ => returns_settle.mono fun _ w₃ ⟨x, hx, hsame⟩ => ⟨x, hx, hsame ▸ hw₂⟩
    have hnonce : Returns s C parse drawn t (fun _ w' => w' = w₁) (Program.query Query.randomBytes) w₁ :=
      Service.Returns.query (q := Query.randomBytes) fun f _ => ⟨f.nonce, rfl, rfl⟩
    refine Service.Returns.bind hnonce fun nonce w' hw => ?_
    subst hw
    generalize encrypt C (indexText m uri) key (aad tenant m.id .index) nonce = bytes
    have hfile : Returns s C parse drawn t (fun _ w₂ => (w₂.file? (tenantDigest tenant) (temporaryName m.id)).isSome)
        (Program.query (Query.writeFile (tenantDigest tenant) (temporaryName m.id) bytes)) w' := by
      refine returns_query (q := .writeFile (tenantDigest tenant) (temporaryName m.id) bytes)
        (r := fun f => (.ok (), w'.writeFile t (tenantDigest tenant) (temporaryName m.id) bytes
          (if f.ending = .done then bytes else bytes.take f.count))) (fun _ => rfl) fun f => ⟨(), rfl, ?_⟩
      unfold World.writeFile
      rw [if_pos hw₁]
      exact (congrArg Option.isSome ((file?_set _).trans (if_pos ⟨rfl, rfl⟩))).trans rfl
    refine Service.Returns.bind hfile fun _ w₂ hw₂ => ?_
    exact returns_settle.mono fun _ w₃ ⟨x, hx, hsame⟩ => ⟨x, hx, hsame ▸ hw₂⟩
  refine Service.Returns.bind hwrite fun _ w₂ hw₂ => ?_
  have hrename : Returns s C parse drawn t (fun _ _ => True)
      (Program.query (Query.rename (tenantDigest tenant) (temporaryName m.id) (indexName m.id))) w₂ := by
    refine returns_query (q := .rename (tenantDigest tenant) (temporaryName m.id) (indexName m.id))
      (r := fun _ => w₂.rename (tenantDigest tenant) (temporaryName m.id) (indexName m.id)) (fun _ => rfl) fun _ => ?_
    obtain ⟨bytes, hbytes⟩ := Option.isSome_iff_exists.mp hw₂
    rw [World.rename, hbytes]
    exact ⟨(), rfl, trivial⟩
  exact Service.Returns.bind hrename fun _ _ _ => returns_syncFolder

/-- A store of a file that is accepted returns when nothing fails. -/
theorem returns_store (hkey : s.key? = some key) (hsize : data.length ≤ MAX_FILE_BYTES)
    (hacceptable : isAcceptable name contentType)
    (htaken : ∀ nonce (d : Uuid), (s.storage.store (blobInput C key nonce tenant d.1 data) w.storage).isOk)
    (hnew : ∀ d, d ∉ w.draws.map Prod.snd → w.file? (tenantDigest tenant) (temporaryName d.1) = none) :
    Returns s C parse (w.draws.map Prod.snd) t (fun _ _ => True) (store s C tenant subject name contentType data) w := by
  have hpass {c : Bool} {error : AppError} (h : c = false) :
      Returns s C parse (w.draws.map Prod.snd) t (fun _ w' => w' = w) (refuseIf c error) w := by
    subst h
    exact Service.Returns.pure rfl
  refine Service.Returns.bind (hpass (decide_eq_false (Nat.not_lt.mpr hsize))) fun _ w' hw => ?_
  subst hw
  refine Service.Returns.bind (hpass (by rw [hacceptable]; rfl)) fun _ w'' hw => ?_
  subst hw
  refine Service.Returns.bind (returns_key hkey) fun k w' hk => ?_
  obtain ⟨rfl, rfl⟩ := hk
  generalize hdrawn : w'.draws.map Prod.snd = drawn at hnew ⊢
  have hdraw : Returns s C parse drawn t (fun d w'' => d ∉ drawn ∧ w''.storage = w'.storage ∧ w''.folders = w'.folders)
      (Program.query Query.randomUUID) w' := by
    refine Service.Returns.query (q := Query.randomUUID) fun f hf => ?_
    change ∃ d, (w'.draw t f.uuid).1 = .ok d ∧ d ∉ drawn ∧ (w'.draw t f.uuid).2.storage = w'.storage ∧
      (w'.draw t f.uuid).2.folders = w'.folders
    have hfresh := hf.2
    rw [World.draw, hdrawn, if_neg hfresh]
    exact ⟨f.uuid, rfl, hfresh, rfl, rfl⟩
  refine Service.Returns.bind hdraw fun d w₁ hw₁ => ?_
  obtain ⟨hfresh, hstorage, hfolders⟩ := hw₁
  have hnow : Returns s C parse drawn t (fun _ w'' => w'' = w₁) (Program.query Query.now) w₁ :=
    Service.Returns.query (q := Query.now) fun f _ => ⟨f.createdAt, rfl, rfl⟩
  refine Service.Returns.bind hnow fun createdAt w₂ hw₂ => ?_
  subst hw₂
  have hnonce : Returns s C parse drawn t (fun _ w'' => w'' = w₂) (Program.query Query.randomBytes) w₂ :=
    Service.Returns.query (q := Query.randomBytes) fun f _ => ⟨f.nonce, rfl, rfl⟩
  refine Service.Returns.bind hnonce fun nonce w₃ hw₃ => ?_
  subst hw₃
  have hstore : Returns s C parse drawn t (fun _ w'' => w''.folders = w₃.folders)
      (Program.query (Query.storeBlob (blobInput C k nonce tenant d.1 data))) w₃ := by
    refine returns_query (q := .storeBlob (blobInput C k nonce tenant d.1 data))
      (r := fun _ => w₃.storeBlob s.storage t (blobInput C k nonce tenant d.1 data)) (fun _ => rfl)
      fun _ => ?_
    have htaken := htaken nonce d
    rw [← hstorage] at htaken
    unfold World.storeBlob
    cases hstored : s.storage.store (blobInput C k nonce tenant d.1 data) w₃.storage with
    | error e =>
      rw [hstored] at htaken
      cases htaken
    | ok result => exact ⟨result.1, rfl, rfl⟩
  refine Service.Returns.bind hstore fun blob w₄ hw₄ => ?_
  have hmkdir : Returns s C parse drawn t (fun _ w'' => (w''.folders (tenantDigest tenant)).isSome ∧
      w''.file? (tenantDigest tenant) (temporaryName d.1) = none)
      (Program.query (Query.mkdir (tenantDigest tenant))) w₄ := by
    refine returns_query (q := .mkdir (tenantDigest tenant)) (r := fun _ => (.ok (), w₄.modify (tenantDigest tenant) id))
      (fun _ => rfl) fun _ => ⟨(), rfl, ?_, ?_⟩
    · dsimp only [World.modify]
      rw [Function.update_self]
      rfl
    · rw [file?_mkdir, World.file?, hw₄, hfolders]
      exact hnew d hfresh
  refine Service.Returns.bind hmkdir fun _ w₅ hw₅ => ?_
  refine Service.Returns.bind (G := fun _ _ => True) (Service.Returns.andFinally (R := fun _ _ => True)
    (returns_writeIndex hw₅.1 hw₅.2) fun _ w₆ _ => ?_) fun _ _ _ => Service.Returns.pure trivial
  refine Service.Ends.handle (B := fun r _ => r ≠ .error .other ∧ ∀ e, r ≠ .error (.thrown e)) (fun f hf => ?_)
    fun r w' hr => ?_
  · change (serve s w₆ t (.unlink (tenantDigest tenant) (temporaryName d.1)) f).1 ≠ .error .other ∧
      ∀ e, (serve s w₆ t (.unlink (tenantDigest tenant) (temporaryName d.1)) f).1 ≠ .error (.thrown e)
    rw [serve, hf.1, World.ending, World.unlink]
    split
    · exact ⟨fun h => (by cases h), fun e h => by cases h⟩
    · exact ⟨fun h => (by cases h), fun e h => by cases h⟩
  · cases r with
    | ok x => exact ⟨x, rfl, trivial⟩
    | error e =>
      cases e with
      | noEntry => exact ⟨(), rfl, trivial⟩
      | thrown thrown => exact absurd rfl (hr.2 thrown)
      | other => exact absurd rfl hr.1

end

end Files
