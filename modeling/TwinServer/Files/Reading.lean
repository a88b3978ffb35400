-- SUMMARY: What a file is read as: the metadata and the bytes of the one store that drew its id, whatever stands in its place.
import TwinServer.Files.Storing

/-!
# Reading

Whatever an index file or a content holds when it is read, what comes out is the metadata and the bytes of the store that
drew the id. Without an adversary the index file is there, and only a failure of an operation prevents it from being read.
-/

open Js Js.Json Async Storage

namespace Files

section
variable [Platform] {s : FileService} {C : Cipher} {names : Set String} {tampers : Bool} {S S' : State} {t u v : Nat}
  {tenant tenant' id uri : String} {m m' : FileMetadata} {data data' bytes key : Bytes} {parse : Bytes → Option Json}
  {post : Nat → Except Failure Outcome → State → Prop} {j : Json}

/-! ## The file of an id -/

/-- An id is drawn for one file. -/
theorem Made.unique (hinv : Orderly s C names tampers S) (h : Made S u tenant m data) (h' : Made S v tenant' m' data')
    (hid : m.id = m'.id) : u = v ∧ tenant = tenant' ∧ data = data' := by
  obtain ⟨subject, name, contentType, w, d, createdAt, hcall, hdraw, rfl⟩ := h
  obtain ⟨subject', name', contentType', w', d', createdAt', hcall', hdraw', rfl⟩ := h'
  obtain rfl := hinv.drawn_unique hdraw hdraw' (Subtype.ext hid)
  have hsame := hcall.symm.trans hcall'
  simp only [Option.some.injEq, Prod.mk.injEq, Call.store.injEq] at hsame
  exact ⟨rfl, hsame.1.1, hsame.1.2.2.2.2⟩

variable (s C) in
/-- The metadata and the data are those of a store under the id, which has written their index record. -/
def Genuine (tenant id : String) (m : FileMetadata) (data : Bytes) (S : State) : Prop :=
  ∃ u tenant' bytes, tenantDigest tenant' = tenantDigest tenant ∧ m.id = id ∧ Made S u tenant' m data ∧
    (u, bytes) ∈ S.state.written ∧ IsIndex s C bytes (tenantDigest tenant) m

theorem kept_genuine : Kept tampers t (Genuine s C tenant id m data) := by
  rintro S S' ⟨u, tenant', bytes, hdigest, hid, hmade, hwritten, hindex⟩ hleaves
  exact ⟨u, tenant', bytes, hdigest, hid, hmade.mono hleaves.calls hleaves.draws, hleaves.written.subset hwritten, hindex⟩

theorem kept_held : Kept tampers t fun S => Held s C S.state bytes := fun _ _ h hleaves => h.mono hleaves.written

/-- The index file of the id is there. -/
def Present (folder id : String) (S : State) : Prop := (S.state.file? folder (indexName id)).isSome

/-! ## What opens -/

theorem Orderly.wrote (hinv : Orderly s C names tampers S) (h : (u, bytes) ∈ S.state.written) : Wrote s C S u bytes :=
  hinv.written _ h

/-- What opens as the index record of an id was written by the store that drew it. -/
theorem genuine_of_opens [NumberText] (hideal : C.Ideal) (hreads : ReadsUtf8 parse)
    (hinv : Orderly s C names tampers S) (hkey : s.key? = some key) (hheld : Held s C S.state bytes)
    (h : (decrypt C bytes key (aad tenant id .index)).bind (readIndex parse id) = some (j, uri)) :
    ∃ m data, Genuine s C tenant id m data S ∧ j = m.json := by
  obtain ⟨text, hopens, hread⟩ := Option.bind_eq_some_iff.mp h
  rcases hheld with ⟨u, hwritten⟩ | hforeign
  · obtain ⟨tenant', m, data, hmade, hbytes⟩ := hinv.wrote hwritten
    rcases hbytes with ⟨key', nonce, -, hbytes⟩ | hindex
    · -- a content does not open as an index record
      rw [hbytes] at hopens
      cases (aadOf_injective (eq_of_decrypt hideal hopens).2.1).2.2
    · have hindex' := hindex
      obtain ⟨key', nonce, uri', -, hbytes⟩ := hindex'
      rw [hbytes] at hopens
      obtain ⟨-, haad, rfl⟩ := eq_of_decrypt hideal hopens
      obtain ⟨hdigest, rfl, -⟩ := aadOf_injective haad
      rw [readIndex_indexText hreads, if_pos rfl] at hread
      refine ⟨m, data, ⟨u, tenant', bytes, hdigest.symm, rfl, hmade, hwritten, ?_⟩, ?_⟩
      · rw [hdigest]
        exact hindex
      · exact (Prod.mk.inj (Option.some.inj hread)).1.symm
  · rw [aad, hforeign key _ id .index hkey] at hopens
    cases hopens

/-- What opens as the content of an id are the bytes of the store that drew it. -/
theorem eq_of_opens [NumberText] (hideal : C.Ideal) (hinv : Orderly s C names tampers S) (hkey : s.key? = some key)
    (hheld : Held s C S.state bytes) (hgenuine : Genuine s C tenant id m data S)
    (h : decrypt C bytes key (aad tenant id .content) = some data') : data' = data := by
  obtain ⟨v, tenant₀, -, -, hid, hmade, -, -⟩ := hgenuine
  rcases hheld with ⟨u, hwritten⟩ | hforeign
  · obtain ⟨tenant', m', data'', hmade', hbytes⟩ := hinv.wrote hwritten
    rcases hbytes with ⟨key', nonce, -, hbytes⟩ | ⟨key', nonce, uri', -, hbytes⟩
    · rw [hbytes] at h
      obtain ⟨-, haad, rfl⟩ := eq_of_decrypt hideal h
      obtain ⟨-, hid', -⟩ := aadOf_injective haad
      exact (hmade'.unique hinv hmade (hid'.symm.trans hid.symm)).2.2
    · rw [hbytes] at h
      cases (aadOf_injective (eq_of_decrypt hideal h).2.1).2.2
  · rw [aad, hforeign key _ id .content hkey] at h
    cases h

/-- The index record of a file opens for its id. -/
theorem opens_of_isIndex (hideal : C.Ideal) (hreads : ReadsUtf8 parse) (hkey : s.key? = some key)
    (hindex : IsIndex s C bytes (tenantDigest tenant) m) :
    ((decrypt C bytes key (aad tenant m.id .index)).bind (readIndex parse m.id)).isSome := by
  obtain ⟨key', nonce, uri, hkey', rfl⟩ := hindex
  obtain rfl := Option.some.inj (hkey.symm.trans hkey')
  rw [aad, decrypt_encrypt hideal, Option.bind_some, readIndex_indexText hreads, if_pos rfl]
  rfl

/-! ## The steps of a reading -/

/-- Only a failure of an operation of the call, or of the key, counts as an error when `H` holds. -/
def Excused (s : FileService) (H : Prop) (t : Nat) (_ : Failure) (S : State) : Prop := H → Failed t S ∨ s.key? = none

variable {H : Prop}

omit [Platform] in
theorem kept_present (hH : H → tampers = false) {folder : String} :
    Kept tampers t fun S => H → Present folder id S :=
  fun _ _ h hleaves hholds => hleaves.grows (hH hholds) _ _ (h hholds)

/-- The index file is read. While nobody takes it away, it is there, and it holds the record of its own file. -/
theorem spec_readIndexFile (hH : H → tampers = false) {folder : String} :
    Spec s C names tampers parse post t (fun S => H → Present folder id S) (readIndexFile folder id)
      (fun bytes S => Held s C S.state bytes ∧ (H → ∃ m, m.id = id ∧ IsIndex s C bytes folder m)) (Excused s H t) := by
  refine Logic.Triple.handle
    (G := fun bytes S => Held s C S.state bytes ∧ (H → ∃ m, m.id = id ∧ IsIndex s C bytes folder m))
    (F := Excused s H t) ?_ (fun _ => ?_) fun e => ?_
  · refine spec_still (r := fun w => (w.file? folder (indexName id)).elim (.error .noEntry) .ok) (fun _ _ => rfl)
      (kept_present hH) (fun S hinv hS => ?_) fun _ _ _ _ hfailed _ => .inl hfailed
    cases hfile : S.state.file? folder (indexName id) with
    | none =>
      intro hholds
      have hpresent := hS hholds
      rw [Present, hfile] at hpresent
      cases hpresent
    | some bytes => exact ⟨hinv.index folder id bytes hfile, fun hholds => hinv.intact (hH hholds) folder id bytes hfile⟩
  · exact Logic.Triple.pure fun _ _ hS => hS
  · cases e with
    | noEntry => exact Logic.Triple.raise fun _ _ hS => hS
    | thrown thrown => exact Logic.Triple.raise fun _ _ hS => hS
    | other => exact Logic.Triple.raise fun _ _ hS => hS

theorem spec_record [NumberText] (hideal : C.Ideal) (hreads : ReadsUtf8 parse) (hH : H → tampers = false)
    (hvalid : H → validId id) :
    Spec s C names tampers parse post t (fun S => H → Present (tenantDigest tenant) id S) (record C parse tenant id)
      (fun r S => ∃ m data, Genuine s C tenant id m data S ∧ r.1 = m.json) (Excused s H t) := by
  refine Logic.Triple.bind (spec_refuseIf fun hc _ _ hholds => ?_) fun _ => Logic.Triple.extract fun _ => ?_
  · rw [hvalid hholds] at hc
    cases hc
  refine Logic.Triple.bind (spec_readIndexFile hH) fun bytes => ?_
  have hkept : Kept tampers t fun S => Held s C S.state bytes ∧
      (H → ∃ m, m.id = id ∧ IsIndex s C bytes (tenantDigest tenant) m) :=
    kept_held.and fun _ _ h _ => h
  refine Logic.Triple.bind (spec_key hkept (fun _ _ _ _ hfailed _ => .inl hfailed) fun hnone _ _ _ _ => .inr hnone)
    fun key => Logic.Triple.extract fun hkey => ?_
  cases hopens : (decrypt C bytes key (aad tenant id .index)).bind (readIndex parse id) with
  | some r => exact Logic.Triple.pure fun S hinv hS => genuine_of_opens hideal hreads hinv hkey hS.1 hopens
  | none =>
    refine Logic.Triple.raise fun S _ hS hholds => ?_
    obtain ⟨m, rfl, hindex⟩ := hS.2 hholds
    have hsome := opens_of_isIndex hideal hreads hkey hindex
    rw [hopens] at hsome
    cases hsome

theorem spec_metadata [NumberText] (hideal : C.Ideal) (hreads : ReadsUtf8 parse) (hH : H → tampers = false)
    (hvalid : H → validId id) :
    Spec s C names tampers parse post t (fun S => H → Present (tenantDigest tenant) id S) (metadata C parse tenant id)
      (fun j S => ∃ m data, Genuine s C tenant id m data S ∧ j = m.json) (Excused s H t) :=
  Logic.Triple.bind (spec_record hideal hreads hH hvalid) fun _ => Logic.Triple.pure fun _ _ hS => hS

/-- The content of a file is read. -/
theorem spec_readContent [NumberText] (hideal : C.Ideal) (hkey : s.key? = some key) :
    Spec s C names tampers parse post t (Genuine s C tenant id m data) (readContent C key tenant id j uri)
      (fun data' S => Genuine s C tenant id m data S ∧ data' = data) fun _ _ => True := by
  refine Logic.Triple.bind (G := fun bytes S => Genuine s C tenant id m data S ∧ Held s C S.state bytes) ?_
    fun bytes => ?_
  · refine spec_still (r := fun w => w.readBlob s.storage uri) (fun _ _ => rfl) kept_genuine (fun S hinv hS => ?_)
      fun _ _ _ _ _ => trivial
    unfold World.readBlob
    cases hread : s.storage.read uri S.state.storage with
    | error e => trivial
    | ok bytes =>
      obtain ⟨location, hlocation⟩ := exists_of_read hread
      exact ⟨hS, hinv.blobs location bytes hlocation⟩
  · cases hopens : (decrypt C bytes key (aad tenant id .content)).filter (isContentOf j) with
    | some data' =>
      refine Logic.Triple.pure fun S hinv hS => ⟨hS.1, ?_⟩
      exact eq_of_opens hideal hinv hkey hS.2 hS.1 (Option.filter_eq_some_iff.mp hopens).1
    | none => exact Logic.Triple.raise fun _ _ _ => trivial

theorem spec_read [NumberText] (hideal : C.Ideal) (hreads : ReadsUtf8 parse) :
    Spec s C names tampers parse post t (fun _ => True) (read C parse tenant id)
      (fun r S => ∃ m data, Genuine s C tenant id m data S ∧ r = (m.json, data)) fun _ _ => True := by
  have hrecord : Spec s C names tampers parse post t (fun _ => True) (record C parse tenant id)
      (fun r S => ∃ m, ∃ data, Genuine s C tenant id m data S ∧ r.1 = m.json) fun _ _ => True :=
    (spec_record (H := False) hideal hreads False.elim False.elim).mono (fun _ _ _ h => h.elim) (fun _ _ h => h)
      fun _ _ _ => trivial
  refine Logic.Triple.bind hrecord fun r => Logic.Triple.exists_pre fun m => Logic.Triple.exists_pre fun data =>
    Logic.Triple.extract fun hr => ?_
  refine Logic.Triple.bind (spec_key kept_genuine (fun _ _ _ _ _ => trivial) fun _ _ _ _ => trivial) fun key =>
    Logic.Triple.extract fun hkey => ?_
  refine Logic.Triple.bind (Logic.Triple.orElse (spec_readContent hideal hkey) fun _ => ?_) fun data' => ?_
  · exact Logic.Triple.raise fun _ _ _ => trivial
  · exact Logic.Triple.pure fun S _ hS => ⟨m, data, hS.1, by rw [hr, hS.2]⟩

end

end Files
