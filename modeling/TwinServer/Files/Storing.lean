-- SUMMARY: What a store of a file writes: the content and the index record of one file, and nothing else.
import TwinServer.Files.Writing

/-!
# Storing

A store keeps, at each of its steps, that what it has written is bound to the file that it has drawn an id for. It returns
the metadata that its index record holds.
-/

open Js Js.Json Async Storage

namespace Files

section
variable [Platform]

/-! ## The storage -/

/-- What is there after a store was there before, or was stored. -/
theorem of_store {router : StorageRouter} {input : StoreInput} {w w' : Storage.World} {stored : StoredObject}
    (h : router.store input w = .ok (stored, w')) {location : Location} {bytes : Bytes}
    (hbytes : w' location = some bytes) : w location = some bytes ∨ bytes = input.data := by
  obtain ⟨⟨name, provider⟩, -, hstore⟩ := Except.bind_eq_ok.mp h
  obtain ⟨⟨location', uri⟩, -, hstore⟩ := Except.bind_eq_ok.mp hstore
  obtain ⟨-, rfl⟩ := Prod.mk.inj (Except.pure_eq_ok.mp hstore)
  split at hbytes
  · exact .inl hbytes
  · by_cases hlocation : location = location'
    · subst hlocation
      rw [Storage.World.set, Function.update_self] at hbytes
      exact .inr (Option.some.inj hbytes).symm
    · rw [Storage.World.set, Function.update_of_ne hlocation] at hbytes
      exact .inl hbytes

omit [Platform] in
theorem rethrow_eq_ok {α : Type} {provider : StorageProvider} {code : String} {x : Except Thrown α} {a : α}
    (h : provider.rethrow code x = .ok a) : x = .ok a := by
  cases x with
  | ok a' => exact h
  | error e => cases provider <;> cases h

/-- What is read is somewhere. -/
theorem exists_of_read {router : StorageRouter} {uri : String} {w : Storage.World} {bytes : Bytes}
    (h : router.read uri w = .ok bytes) : ∃ location, w location = some bytes := by
  obtain ⟨⟨name, provider⟩, -, hread⟩ := Except.bind_eq_ok.mp h
  have hread : provider.read uri w = .ok bytes := hread
  obtain ⟨location, -, hlocation⟩ := Except.bind_eq_ok.mp (rethrow_eq_ok hread)
  refine ⟨location, ?_⟩
  cases hw : w location with
  | none =>
    rw [hw] at hlocation
    cases hlocation
  | some found =>
    rw [hw] at hlocation
    cases hlocation
    rfl

variable {s : FileService} {C : Cipher} {names : Set String} {tampers : Bool} {S S' : State} {t u : Nat} {d : Uuid}
  {tenant folder folder' id : String} {m m' : FileMetadata} {data bytes : Bytes} {parse : Bytes → Option Json}
  {post : Nat → Except Failure Outcome → State → Prop} {P : State → Prop}

theorem change_storeBlob {router : StorageRouter} {input : StoreInput} (hinv : Orderly s C names tampers S)
    (hwrote : Wrote s C S t input.data) :
    Change s C tampers t S (S.state.storeBlob router t input).2 := by
  unfold World.storeBlob
  cases hstore : router.store input S.state.storage with
  | error e => exact change_same hinv rfl rfl rfl rfl (List.prefix_refl _)
  | ok result =>
    obtain ⟨stored, storage⟩ := result
    refine ⟨List.prefix_refl _, fun _ hu => .inl hu, hinv.distinct, List.prefix_refl _, List.prefix_append _ _, ?_,
      fun _ _ _ _ _ => rfl, fun _ _ _ h => .inl h, fun _ _ _ h => h, ?_⟩
    · intro e he
      rcases List.mem_append.mp he with he | he
      · exact .inl he
      · obtain rfl := List.mem_singleton.mp he
        exact .inr ⟨rfl, hwrote⟩
    · intro location bytes hbytes
      rcases of_store hstore hbytes with hold | rfl
      · exact .inl hold
      · exact .inr (.inl ⟨t, List.mem_append_right _ List.mem_cons_self⟩)

/-! ## What was written for a file -/

/-- The bytes are the index record of one file. -/
theorem IsIndex.unique (hideal : C.Ideal) (hreads : ReadsUtf8 parse) (h : IsIndex s C bytes folder m)
    (h' : IsIndex s C bytes folder' m') : m = m' := by
  obtain ⟨key, nonce, uri, -, rfl⟩ := h
  obtain ⟨key', nonce', uri', -, heq⟩ := h'
  have hopens : decrypt C (encrypt C (indexText m uri) key (aadOf folder m.id .index) nonce) key
      (aadOf folder m.id .index) = some (indexText m uri) := decrypt_encrypt hideal _ nonce
  rw [heq] at hopens
  exact indexText_injective hreads (eq_of_decrypt hideal hopens).2.2

/-- A content is no index record. -/
theorem IsContent.not_isIndex [NumberText] (hideal : C.Ideal) (h : IsContent s C bytes tenant id data) :
    ¬ IsIndex s C bytes folder m := by
  rintro ⟨key', nonce', uri', -, heq⟩
  obtain ⟨key, nonce, -, rfl⟩ := h
  have hopens : decrypt C (encrypt C data key (aad tenant id .content) nonce) key (aad tenant id .content) =
      some data := decrypt_encrypt hideal _ nonce
  rw [heq] at hopens
  cases (aadOf_injective (eq_of_decrypt hideal hopens).2.1).2.2

/-! ## A store under way -/

variable (s C) in
/-- All index records that the call has written are of the metadata. -/
def Only (t : Nat) (m : FileMetadata) (S : State) : Prop :=
  ∀ bytes folder m', (t, bytes) ∈ S.state.written → IsIndex s C bytes folder m' → m' = m

variable (s C) in
/-- The call stores a file that it has drawn an id for, and has written no other index record. -/
structure Storing (t : Nat) (d : Uuid) (tenant : String) (m : FileMetadata) (data : Bytes) (S : State) : Prop where
  made : Made S t tenant m data
  drawn : (t, d) ∈ S.state.draws
  id : m.id = d.1
  only : Only s C t m S

theorem kept_only : Kept tampers t (Only s C t m) :=
  fun _ _ h hleaves bytes folder m' hbytes => h bytes folder m' (hleaves.own bytes hbytes)

theorem kept_storing : Kept tampers t (Storing s C t d tenant m data) :=
  fun S S' h hleaves => ⟨h.made.mono hleaves.calls hleaves.draws, hleaves.draws.subset h.drawn, h.id,
    kept_only S S' h.only hleaves⟩

/-- What the call writes for its file leaves it what it is. -/
theorem Storing.after {w : World} (h : Storing s C t d tenant m data S) (hdraws : w.draws = S.state.draws)
    (hwritten : ∀ bytes, (t, bytes) ∈ w.written → (t, bytes) ∈ S.state.written ∨
      ∀ folder m', IsIndex s C bytes folder m' → m' = m) :
    Storing s C t d tenant m data { S with state := w } := by
  refine ⟨h.made.mono (List.prefix_refl _) (hdraws ▸ List.prefix_refl _), hdraws ▸ h.drawn, h.id, ?_⟩
  intro bytes folder m' hbytes hindex
  rcases hwritten bytes hbytes with hold | hnew
  · exact h.only bytes folder m' hold hindex
  · exact hnew folder m' hindex

/-- The temporary file of the call holds the bytes. -/
def Temporary (d : Uuid) (folder : String) (bytes : Bytes) (S : State) : Prop :=
  S.state.file? folder (temporaryName d.1) = some bytes

omit [Platform] in
theorem kept_temporary : Kept tampers t fun S => (t, d) ∈ S.state.draws ∧ Temporary d folder bytes S :=
  fun _ _ h hleaves => ⟨hleaves.draws.subset h.1, (hleaves.temporary d folder h.1).trans h.2⟩

/-! ## The steps of a store -/

/-- The call has drawn the id. -/
def Drawn (t : Nat) (d : Uuid) (S : State) : Prop := (t, d) ∈ S.state.draws

omit [Platform] in
theorem kept_drawn : Kept tampers t (Drawn t d) := fun _ _ h hleaves => hleaves.draws.subset h

theorem Storing.drawn_of_change {w : World} (h : Storing s C t d tenant m data S) (hchange : Change s C tampers t S w) :
    Drawn t d { S with state := w } := hchange.draws.subset h.drawn

/-- The call has not written or drawn anything yet. -/
structure Starting (t : Nat) (tenant subject name contentType : String) (data : Bytes) (S : State) : Prop where
  call : ∃ w, S.calls[t]? = some (.store tenant subject name contentType data, w)
  unwritten : ∀ bytes, (t, bytes) ∉ S.state.written

variable {subject name contentType : String}

omit [Platform] in
theorem kept_starting : Kept tampers t (Starting t tenant subject name contentType data) := by
  rintro S S' ⟨⟨w, hcall⟩, hunwritten⟩ hleaves
  exact ⟨⟨w, getElem?_of_prefix hleaves.calls hcall⟩, fun bytes hbytes => hunwritten bytes (hleaves.own bytes hbytes)⟩

theorem Starting.storing (h : Starting t tenant subject name contentType data S) (hd : Drawn t d S)
    (createdAt : String) :
    Storing s C t d tenant (.of d subject name contentType data createdAt) data S := by
  obtain ⟨⟨w, hcall⟩, hunwritten⟩ := h
  exact ⟨⟨subject, name, contentType, w, d, createdAt, hcall, hd, rfl⟩, hd, rfl,
    fun bytes _ _ hbytes => absurd hbytes (hunwritten bytes)⟩

/-- An id is drawn. -/
theorem spec_randomUUID : Spec s C names tampers parse post t (Starting t tenant subject name contentType data)
    (Program.query Query.randomUUID)
    (fun d S => Starting t tenant subject name contentType data S ∧ Drawn t d S) fun _ _ => True := by
  refine Logic.Triple.query kept_starting fun S hinv hS f => ?_
  obtain ⟨w, hcall⟩ := hS.call
  have hlt : t < S.calls.length := (List.getElem?_eq_some_iff.mp hcall).1
  obtain ⟨hinv', hothers⟩ := (change_randomUUID hinv hlt f.uuid).keeps hinv
  refine ⟨⟨hinv', hothers⟩, ?_⟩
  change Logic.outcomes _ _ (S.state.draw t f.uuid).1 { S with state := (S.state.draw t f.uuid).2 }
  unfold World.draw
  split
  · trivial
  · exact ⟨⟨⟨w, hcall⟩, hS.unwritten⟩, List.mem_append_right _ List.mem_cons_self⟩

variable {key : Bytes} {nonce : Nonce} {uri : String}

/-- The content goes to the storage. -/
theorem spec_storeBlob [NumberText] (hideal : C.Ideal) (hkey : s.key? = some key) :
    Spec s C names tampers parse post t (Storing s C t d tenant m data)
      (Program.query (Query.storeBlob (blobInput C key nonce tenant m.id data)))
      (fun _ => Storing s C t d tenant m data) fun _ _ => True := by
  refine spec_query (r := fun w _ => w.storeBlob s.storage t (blobInput C key nonce tenant m.id data))
    (fun _ _ => rfl) kept_storing (fun S hinv hS _ => ?_) fun _ _ _ _ _ => trivial
  have hcontent : IsContent s C (blobInput C key nonce tenant m.id data).data tenant m.id data := ⟨key, nonce, hkey, rfl⟩
  refine ⟨change_storeBlob hinv ⟨tenant, m, data, hS.made, .inl hcontent⟩, fun _ => ?_⟩
  unfold World.storeBlob
  cases hstore : s.storage.store (blobInput C key nonce tenant m.id data) S.state.storage with
  | error e => trivial
  | ok result =>
    refine hS.after rfl fun bytes hbytes => ?_
    rcases List.mem_append.mp hbytes with hold | hnew
    · exact .inl hold
    · cases List.mem_singleton.mp hnew
      exact .inr fun folder m' hindex => absurd hindex (hcontent.not_isIndex hideal)

/-- The folder of the tenant is made. -/
theorem spec_mkdir : Spec s C names tampers parse post t (Storing s C t d tenant m data)
    (Program.query (Query.mkdir folder)) (fun _ => Storing s C t d tenant m data) fun _ _ => True :=
  spec_query (r := fun w _ => (.ok (), w.modify folder id)) (fun _ _ => rfl) kept_storing
    (fun _ hinv hS _ => ⟨change_mkdir hinv folder, fun _ => hS.after rfl fun _ hbytes => .inl hbytes⟩) fun _ _ _ _ _ => trivial

/-- A temporary file is made, and is empty. -/
theorem spec_openNew : Spec s C names tampers parse post t (Storing s C t d tenant m data)
    (Program.query (Query.openNew folder (temporaryName m.id)))
    (fun _ S => Storing s C t d tenant m data S ∧ ∃ bytes, Temporary d folder bytes S) fun _ => Drawn t d := by
  refine spec_query (r := fun w _ => w.openNew folder (temporaryName m.id)) (fun _ _ => rfl) kept_storing
    (fun S hinv hS _ => ?_) fun S w hS hchange _ => hS.drawn_of_change hchange
  rw [hS.id]
  refine ⟨change_openNew hinv hS.drawn folder, fun _ => ?_⟩
  unfold World.openNew
  cases hfolder : S.state.folders folder with
  | none => exact hS.drawn
  | some files =>
    dsimp only
    split
    · exact hS.drawn
    · refine ⟨hS.after rfl fun _ hbytes => .inl hbytes, [], ?_⟩
      exact (file?_set (w := S.state) []).trans (if_pos ⟨rfl, rfl⟩)

variable (s C) in
/-- The temporary file holds the record of the file. -/
structure Ready (t : Nat) (d : Uuid) (tenant : String) (m : FileMetadata) (data bytes : Bytes) (S : State) : Prop where
  storing : Storing s C t d tenant m data S
  temporary : Temporary d (tenantDigest tenant) bytes S
  written : (t, bytes) ∈ S.state.written
  index : IsIndex s C bytes (tenantDigest tenant) m

theorem kept_ready : Kept tampers t (Ready s C t d tenant m data bytes) :=
  fun S S' h hleaves => ⟨kept_storing S S' h.storing hleaves,
    (hleaves.temporary d _ h.storing.drawn).trans h.temporary, hleaves.written.subset h.written, h.index⟩

variable (s C tampers) in
/-- The record has become the index file. -/
structure Stored (t : Nat) (d : Uuid) (tenant : String) (m : FileMetadata) (data : Bytes) (S : State) : Prop where
  storing : Storing s C t d tenant m data S
  present : tampers = false → (S.state.file? (tenantDigest tenant) (indexName m.id)).isSome

theorem kept_stored : Kept tampers t (Stored s C tampers t d tenant m data) :=
  fun S S' h hleaves => ⟨kept_storing S S' h.storing hleaves, fun ht => hleaves.grows ht _ _ (h.present ht)⟩

/-- The record goes to the temporary file. -/
theorem spec_writeFile (hideal : C.Ideal) (hreads : ReadsUtf8 parse) (hkey : s.key? = some key) :
    Spec s C names tampers parse post t
      (fun S => Storing s C t d tenant m data S ∧ ∃ bytes, Temporary d (tenantDigest tenant) bytes S)
      (Program.query (Query.writeFile (tenantDigest tenant) (temporaryName m.id)
        (encrypt C (indexText m uri) key (aad tenant m.id .index) nonce)))
      (fun _ => Ready s C t d tenant m data (encrypt C (indexText m uri) key (aad tenant m.id .index) nonce))
      fun _ => Drawn t d := by
  have hindex : IsIndex s C (encrypt C (indexText m uri) key (aad tenant m.id .index) nonce) (tenantDigest tenant) m :=
    ⟨key, nonce, uri, hkey, rfl⟩
  generalize hbytes : encrypt C (indexText m uri) key (aad tenant m.id .index) nonce = bytes at hindex ⊢
  have hkept : Kept tampers t fun S =>
      Storing s C t d tenant m data S ∧ ∃ bytes, Temporary d (tenantDigest tenant) bytes S := by
    rintro S S' ⟨hS, bytes, htemporary⟩ hleaves
    exact ⟨kept_storing S S' hS hleaves, bytes, (hleaves.temporary d _ hS.drawn).trans htemporary⟩
  refine spec_query (r := fun w f => (.ok (), w.writeFile t (tenantDigest tenant) (temporaryName m.id) bytes
      (if f.ending = .done then bytes else bytes.take f.count))) (fun _ _ => rfl) hkept
    (fun S hinv hS f => ?_) fun S w hS hchange _ => hS.1.drawn_of_change hchange
  obtain ⟨hS, old, htemporary⟩ := hS
  have hold : (S.state.file? (tenantDigest tenant) (temporaryName d.1)).isSome := by
    rw [htemporary]
    rfl
  rw [hS.id]
  refine ⟨change_writeFile hinv hS.drawn _ _ ⟨tenant, m, data, hS.made, .inr hindex⟩, fun hdone => ?_⟩
  rw [if_pos hdone]
  let w := S.state.writeFile t (tenantDigest tenant) (temporaryName d.1) bytes bytes
  have hstoring : Storing s C t d tenant m data { S with state := w } := by
    subst w
    unfold World.writeFile
    rw [if_pos hold]
    refine hS.after rfl fun bytes' hbytes' => ?_
    rcases List.mem_append.mp hbytes' with hmem | hmem
    · exact .inl hmem
    · cases List.mem_singleton.mp hmem
      exact .inr fun folder m' hindex' => hindex'.unique hideal hreads hindex
  refine ⟨hstoring, ?_, ?_, hindex⟩
  · unfold Temporary World.writeFile
    rw [if_pos hold]
    exact (file?_set (w := S.state) bytes).trans (if_pos ⟨rfl, rfl⟩)
  · unfold World.writeFile
    rw [if_pos hold]
    exact List.mem_append_right _ List.mem_cons_self

/-- An operation on a handle. -/
theorem spec_settle {E : Failure → State → Prop} (hkept : Kept tampers t P)
    (hfailed : ∀ S w, P S → Change s C tampers t S w → Failed t { S with state := w } → E .other { S with state := w }) :
    Spec s C names tampers parse post t P (Program.query Query.settle) (fun _ => P) E :=
  spec_still (r := fun _ => .ok ()) (fun _ _ => rfl) hkept (fun _ _ hS => hS) hfailed

theorem drawn_of_drawn {w : World} (h : Drawn t d S) (hchange : Change s C tampers t S w) :
    Drawn t d { S with state := w } := hchange.draws.subset h

theorem spec_writeTemporary (hideal : C.Ideal) (hreads : ReadsUtf8 parse) (hkey : s.key? = some key) :
    Spec s C names tampers parse post t
      (fun S => Storing s C t d tenant m data S ∧ ∃ bytes, Temporary d (tenantDigest tenant) bytes S)
      (writeTemporary C key tenant m uri) (fun _ S => ∃ bytes, Ready s C t d tenant m data bytes S)
      fun _ => Drawn t d := by
  have hkept : Kept tampers t fun S =>
      Storing s C t d tenant m data S ∧ ∃ bytes, Temporary d (tenantDigest tenant) bytes S := by
    rintro S S' ⟨hS, bytes, htemporary⟩ hleaves
    exact ⟨kept_storing S S' hS hleaves, bytes, (hleaves.temporary d _ hS.drawn).trans htemporary⟩
  refine Logic.Triple.bind (spec_free (r := Fate.nonce) (fun _ _ => rfl) hkept) fun nonce => ?_
  refine Logic.Triple.bind (spec_writeFile hideal hreads hkey) fun _ => ?_
  refine (spec_settle kept_ready fun S w hS hchange _ => hS.storing.drawn_of_change hchange).mono
    (fun _ _ hS => hS) (fun _ _ hS => ⟨_, hS⟩) fun _ _ hE => hE

/-- The temporary file takes the name of the index file. -/
theorem spec_rename : Spec s C names tampers parse post t (Ready s C t d tenant m data bytes)
    (Program.query (Query.rename (tenantDigest tenant) (temporaryName m.id) (indexName m.id)))
    (fun _ => Stored s C tampers t d tenant m data) fun _ => Drawn t d := by
  refine spec_query (r := fun w _ => w.rename (tenantDigest tenant) (temporaryName m.id) (indexName m.id))
    (fun _ _ => rfl) kept_ready (fun S hinv hS _ => ?_) fun S w hS hchange _ => hS.storing.drawn_of_change hchange
  have htemporary : S.state.file? (tenantDigest tenant) (temporaryName m.id) = some bytes := by
    rw [hS.storing.id]
    exact hS.temporary
  have hpresent := file?_rename htemporary (indexName m.id) (tenantDigest tenant) (indexName m.id)
  rw [if_pos rfl, if_pos rfl] at hpresent
  have hchange : Change s C tampers t S
      (S.state.rename (tenantDigest tenant) (temporaryName m.id) (indexName m.id)).2 := by
    rw [hS.storing.id]
    exact change_rename hinv hS.storing.drawn _ hS.storing.id hS.temporary hS.written hS.index
  refine ⟨hchange, fun _ => ?_⟩
  unfold World.rename at hpresent ⊢
  rw [htemporary] at hpresent ⊢
  exact ⟨hS.storing.after rfl fun _ hbytes => .inl hbytes, fun _ => by rw [hpresent]; rfl⟩

theorem spec_syncFolder : Spec s C names tampers parse post t (Stored s C tampers t d tenant m data) (syncFolder s)
    (fun _ => Stored s C tampers t d tenant m data) fun _ => Drawn t d := by
  have hsettle : Spec s C names tampers parse post t (Stored s C tampers t d tenant m data)
      (Program.query Query.settle) (fun _ => Stored s C tampers t d tenant m data) fun _ => Drawn t d :=
    spec_settle kept_stored fun S w hS hchange _ => hS.storing.drawn_of_change hchange
  have hclose : Spec s C names tampers parse post t (Drawn t d) (Program.query Query.settle)
      (fun _ => Drawn t d) fun _ => Drawn t d :=
    spec_settle kept_drawn fun S w hS hchange _ => drawn_of_drawn hS hchange
  unfold syncFolder
  split
  · exact Logic.Triple.pure fun _ _ hS => hS
  · exact Logic.Triple.bind hsettle fun _ => Logic.Triple.andFinally hsettle (fun _ => hsettle) fun _ => hclose

theorem spec_writeIndex (hideal : C.Ideal) (hreads : ReadsUtf8 parse) (hkey : s.key? = some key) :
    Spec s C names tampers parse post t (Storing s C t d tenant m data) (writeIndex s C key tenant m uri)
      (fun _ => Stored s C tampers t d tenant m data) fun _ => Drawn t d := by
  refine Logic.Triple.bind spec_openNew fun _ => ?_
  refine Logic.Triple.bind (G := fun _ S => ∃ bytes, Ready s C t d tenant m data bytes S) ?_ fun _ => ?_
  · refine Logic.Triple.andFinally (spec_writeTemporary hideal hreads hkey) (fun _ => ?_) fun _ => ?_
    · refine Logic.Triple.exists_pre fun bytes => ?_
      refine (spec_settle kept_ready fun S w hS hchange _ => hS.storing.drawn_of_change hchange).mono
        (fun _ _ hS => hS) (fun _ _ hS => ⟨bytes, hS⟩) fun _ _ hE => hE
    · exact spec_settle kept_drawn fun S w hS hchange _ => drawn_of_drawn hS hchange
  · exact Logic.Triple.exists_pre fun bytes => Logic.Triple.bind spec_rename fun _ => spec_syncFolder

/-- The temporary file is removed, if it is there. -/
theorem spec_unlinkTemporary (hkept : Kept tampers t P) (hdrawn : ∀ S, P S → Drawn t d S)
    (hP : ∀ S w, P S → w.draws = S.state.draws → w.written = S.state.written →
      (∀ folder id, w.file? folder (indexName id) = S.state.file? folder (indexName id)) → P { S with state := w }) :
    Spec s C names tampers parse post t P (unlinkTemporary folder (temporaryName d.1)) (fun _ => P)
      fun _ _ => True := by
  refine Logic.Triple.handle (G := fun _ => P) (F := fun e S => e = .noEntry → P S) ?_ (fun _ => ?_) fun e => ?_
  · refine spec_query (r := fun w _ => w.unlink folder (temporaryName d.1)) (fun _ _ => rfl) hkept
      (fun S hinv hS _ => ⟨change_unlink hinv (hdrawn S hS) folder, fun _ => ?_⟩) fun _ _ _ _ _ h => by cases h
    have hindex (folder' id : String) :=
      file?_unlink S.state folder folder' (indexName_ne_temporaryName id d.1)
    unfold World.unlink at hindex ⊢
    split
    · next h =>
      rw [if_pos h] at hindex
      exact hP S _ hS rfl rfl hindex
    · exact fun _ => hS
  · exact Logic.Triple.pure fun _ _ hS => hS
  · cases e with
    | noEntry => exact Logic.Triple.pure fun _ _ hS => hS rfl
    | thrown thrown => exact Logic.Triple.raise fun _ _ _ => trivial
    | other => exact Logic.Triple.raise fun _ _ _ => trivial

/-- What a store returns is what its index record holds. -/
theorem spec_store [NumberText] (hideal : C.Ideal) (hreads : ReadsUtf8 parse) :
    Spec s C names tampers parse post t (Starting t tenant subject name contentType data)
      (store s C tenant subject name contentType data) (fun m S => ∃ d, Stored s C tampers t d tenant m data S)
      fun _ _ => True := by
  refine Logic.Triple.bind (spec_refuseIf fun _ _ _ => trivial) fun _ => Logic.Triple.extract fun _ => ?_
  refine Logic.Triple.bind (spec_refuseIf fun _ _ _ => trivial) fun _ => Logic.Triple.extract fun _ => ?_
  refine Logic.Triple.bind (spec_key kept_starting (fun _ _ _ _ _ => trivial) fun _ _ _ _ => trivial) fun key =>
    Logic.Triple.extract fun hkey => ?_
  refine Logic.Triple.bind spec_randomUUID fun d => ?_
  have hkept : Kept tampers t fun S => Starting t tenant subject name contentType data S ∧ Drawn t d S :=
    kept_starting.and kept_drawn
  refine Logic.Triple.bind (spec_free (r := Fate.createdAt) (fun _ _ => rfl) hkept) fun createdAt => ?_
  refine Logic.Triple.weaken (P := Storing s C t d tenant
    (.of d subject name contentType data createdAt) data) ?_ fun S _ hS => hS.1.storing hS.2 createdAt
  refine Logic.Triple.bind (spec_free (r := Fate.nonce) (fun _ _ => rfl) kept_storing) fun nonce => ?_
  refine Logic.Triple.bind (spec_storeBlob hideal hkey) fun blob => ?_
  refine Logic.Triple.bind spec_mkdir fun _ => ?_
  refine Logic.Triple.bind (G := fun _ => Stored s C tampers t d tenant
    (.of d subject name contentType data createdAt) data) ?_ fun _ => ?_
  · refine Logic.Triple.andFinally (spec_writeIndex hideal hreads hkey) (fun _ => ?_) fun _ => ?_
    · refine spec_unlinkTemporary kept_stored (fun _ hS => hS.storing.drawn) fun S w hS hdraws hwritten hindex => ?_
      refine ⟨hS.storing.after hdraws fun _ hbytes => .inl (hwritten ▸ hbytes), fun ht => ?_⟩
      exact (congrArg Option.isSome (hindex _ _)).trans (hS.present ht)
    · refine (spec_unlinkTemporary kept_drawn (fun _ hS => hS) fun S w hS hdraws _ _ => ?_).mono (fun _ _ hS => hS)
        (fun _ _ _ => trivial) fun _ _ _ => trivial
      exact (congrArg ((t, d) ∈ ·) hdraws).mpr hS
  · exact Logic.Triple.pure fun _ _ hS => ⟨d, hS⟩

end

end Files
