-- SUMMARY: What holds of the index directory and the storage between any two steps, and that the calls and the adversary keep it.
import TwinServer.Files.Service

/-!
# What is written

Whatever stands in the place of an index file or of a content was encrypted by a call for one file of its tenant, or does
not open at all. Without an adversary, an index file holds the record of its own file, and stays.
-/

open Js Js.Json Async Storage

namespace Files

/-! ## Files of folders -/

section
variable {w : World} {folder folder' name name' : String}

theorem get?_empty {α : Type} (k : String) : (Map.empty : Map α).get? k = none := rfl

theorem file?_modify (f : Map Bytes → Map Bytes) : (w.modify folder f).file? folder' name' =
    if folder' = folder then (f ((w.folders folder).getD .empty)).get? name' else w.file? folder' name' := by
  by_cases h : folder' = folder
  · subst h
    simp only [World.file?, World.modify, Function.update_self, Option.bind_some, if_true]
  · simp only [World.file?, World.modify, Function.update_of_ne h, if_neg h]

theorem get?_folder (w : World) (folder name : String) :
    ((w.folders folder).getD .empty).get? name = w.file? folder name := by
  unfold World.file?
  cases w.folders folder with
  | none => rfl
  | some files => rfl

theorem file?_set (bytes : Bytes) : (w.modify folder (·.set name bytes)).file? folder' name' =
    if folder' = folder ∧ name' = name then some bytes else w.file? folder' name' := by
  rw [file?_modify]
  by_cases h : folder' = folder
  · subst h
    by_cases hname : name' = name
    · simp [hname]
    · simp [hname, get?_folder]
  · simp [h]

theorem file?_delete : (w.modify folder (·.delete name)).file? folder' name' =
    if folder' = folder ∧ name' = name then none else w.file? folder' name' := by
  rw [file?_modify]
  by_cases h : folder' = folder
  · subst h
    by_cases hname : name' = name
    · simp [hname]
    · simp [hname, get?_folder]
  · simp [h]

theorem file?_mkdir : (w.modify folder id).file? folder' name' = w.file? folder' name' := by
  rw [file?_modify]
  by_cases h : folder' = folder
  · subst h
    rw [if_pos rfl]
    exact get?_folder w folder' name'
  · rw [if_neg h]

/-! ### What an operation leaves alone -/

theorem openNew_eq (w : World) (folder name : String) : ∃ folders, (w.openNew folder name).2 = { w with folders } := by
  unfold World.openNew
  cases w.folders folder with
  | none => exact ⟨w.folders, rfl⟩
  | some files =>
    dsimp only
    split
    · exact ⟨w.folders, rfl⟩
    · exact ⟨_, rfl⟩

theorem writeFile_eq (w : World) (call : Nat) (folder name : String) (bytes content : Bytes) :
    ∃ folders, w.writeFile call folder name bytes content = { w with folders, written := w.written ++ [(call, bytes)] } := by
  unfold World.writeFile
  dsimp only
  split
  · exact ⟨_, rfl⟩
  · exact ⟨w.folders, rfl⟩

theorem rename_eq (w : World) (folder name name' : String) :
    ∃ folders, (w.rename folder name name').2 = { w with folders } := by
  unfold World.rename
  cases w.file? folder name with
  | none => exact ⟨w.folders, rfl⟩
  | some bytes => exact ⟨_, rfl⟩

theorem unlink_eq (w : World) (folder name : String) : ∃ folders, (w.unlink folder name).2 = { w with folders } := by
  unfold World.unlink
  split
  · exact ⟨_, rfl⟩
  · exact ⟨w.folders, rfl⟩

end

abbrev State := System World Call

/-- The tenant that a call is made for. -/
def Call.tenant? : Call → Option String
  | store tenant _ _ _ _ | metadata tenant _ | read tenant _ | list tenant _ _ | enumerate tenant _ => some tenant
  | tamper _ => none

def FileService.key? (s : FileService) : Option Bytes := (s.credential.filter (· != "")).bind fileKey

section
variable [Platform] (s : FileService) (C : Cipher)

/-! ## The invariant -/

/-- The bytes are the content of a file. -/
def IsContent (bytes : Bytes) (tenant id : String) (data : Bytes) : Prop :=
  ∃ key nonce, s.key? = some key ∧ bytes = encrypt C data key (aad tenant id .content) nonce

/-- The bytes are the index record of a file, in the folder. -/
def IsIndex (bytes : Bytes) (folder : String) (m : FileMetadata) : Prop :=
  ∃ key nonce uri, s.key? = some key ∧ bytes = encrypt C (indexText m uri) key (aadOf folder m.id .index) nonce

/-- The bytes open for no file. -/
def Foreign (bytes : Bytes) : Prop :=
  ∀ key folder id purpose, s.key? = some key → decrypt C bytes key (aadOf folder id purpose) = none

/-- The call stores the data for the tenant, and has made the metadata of what it drew. -/
def Made (S : State) (u : Nat) (tenant : String) (m : FileMetadata) (data : Bytes) : Prop :=
  ∃ subject name contentType w d createdAt, S.calls[u]? = some (.store tenant subject name contentType data, w) ∧
    (u, d) ∈ S.state.draws ∧ m = FileMetadata.of d subject name contentType data createdAt

/-- The call has encrypted the bytes, for a file that it stores. -/
def Wrote (S : State) (u : Nat) (bytes : Bytes) : Prop :=
  ∃ tenant m data, Made S u tenant m data ∧
    (IsContent s C bytes tenant m.id data ∨ IsIndex s C bytes (tenantDigest tenant) m)

/-- The bytes were written by a call, or open for no file. -/
def Held (w : World) (bytes : Bytes) : Prop := (∃ u, (u, bytes) ∈ w.written) ∨ Foreign s C bytes

variable (names : Set String) (tampers : Bool)

/-- What holds between any two steps; the last is said of runs without an adversary. -/
structure Orderly (S : State) : Prop where
  tenants : ∀ k ∈ S.calls, ∀ tenant, k.1.tenant? = some tenant → tenant ∈ names
  drawn : ∀ e ∈ S.state.draws, e.1 < S.calls.length
  distinct : (S.state.draws.map Prod.snd).Nodup
  written : ∀ e ∈ S.state.written, Wrote s C S e.1 e.2
  index : ∀ folder id bytes, S.state.file? folder (indexName id) = some bytes → Held s C S.state bytes
  blobs : ∀ location bytes, S.state.storage location = some bytes → Held s C S.state bytes
  intact : tampers = false → ∀ folder id bytes, S.state.file? folder (indexName id) = some bytes →
    ∃ m, m.id = id ∧ IsIndex s C bytes folder m

/-- What the others leave alone for a call: what it has written, and the temporary files of the ids that it has drawn.
Without an adversary an index file stays. -/
structure Leaves (t : Nat) (S S' : State) : Prop where
  calls : S.calls <+: S'.calls
  draws : S.state.draws <+: S'.state.draws
  failures : S.state.failures <+: S'.state.failures
  written : S.state.written <+: S'.state.written
  own : ∀ bytes, (t, bytes) ∈ S'.state.written → (t, bytes) ∈ S.state.written
  temporary : ∀ d folder, (t, d) ∈ S.state.draws →
    S'.state.file? folder (temporaryName d.1) = S.state.file? folder (temporaryName d.1)
  grows : tampers = false → ∀ folder id, (S.state.file? folder (indexName id)).isSome →
    (S'.state.file? folder (indexName id)).isSome

variable {s C names tampers} {S S' S'' : State} {t u : Nat} {d : Uuid} {tenant : String} {m : FileMetadata} {data bytes : Bytes}

omit [Platform] in
theorem getElem?_of_prefix {α : Type} {l l' : List α} (h : l <+: l') {k : Nat} {a : α} (hk : l[k]? = some a) :
    l'[k]? = some a := by
  obtain ⟨rest, rfl⟩ := h
  rw [List.getElem?_append_left (List.getElem?_eq_some_iff.mp hk).1]
  exact hk

theorem Made.mono (h : Made S u tenant m data) (hcalls : S.calls <+: S'.calls)
    (hdraws : S.state.draws <+: S'.state.draws) : Made S' u tenant m data := by
  obtain ⟨subject, name, contentType, w, d, createdAt, hcall, hdraw, hm⟩ := h
  exact ⟨subject, name, contentType, w, d, createdAt, getElem?_of_prefix hcalls hcall, hdraws.subset hdraw, hm⟩

theorem Wrote.mono (h : Wrote s C S u bytes) (hcalls : S.calls <+: S'.calls)
    (hdraws : S.state.draws <+: S'.state.draws) : Wrote s C S' u bytes := by
  obtain ⟨tenant, m, data, hmade, hbytes⟩ := h
  exact ⟨tenant, m, data, hmade.mono hcalls hdraws, hbytes⟩

theorem Held.mono {w w' : World} (h : Held s C w bytes) (hwritten : w.written <+: w'.written) : Held s C w' bytes :=
  h.imp (fun ⟨u, hu⟩ => ⟨u, hwritten.subset hu⟩) fun hforeign => hforeign

/-- A call has drawn an id, and no other has. -/
theorem Orderly.drawn_unique (h : Orderly s C names tampers S) {v : Nat} {d' : Uuid} (hd : (u, d) ∈ S.state.draws)
    (hd' : (v, d') ∈ S.state.draws) (hsame : d = d') : u = v := by
  subst hsame
  exact congrArg Prod.fst (List.inj_on_of_nodup_map h.distinct hd hd' rfl)

omit [Platform] in
theorem Leaves.refl (t : Nat) (S : State) : Leaves tampers t S S where
  calls := List.prefix_refl _
  draws := List.prefix_refl _
  failures := List.prefix_refl _
  written := List.prefix_refl _
  own _ h := h
  temporary _ _ _ := rfl
  grows _ _ _ h := h

omit [Platform] in
theorem Leaves.trans (h : Leaves tampers t S S') (h' : Leaves tampers t S' S'') : Leaves tampers t S S'' where
  calls := h.calls.trans h'.calls
  draws := h.draws.trans h'.draws
  failures := h.failures.trans h'.failures
  written := h.written.trans h'.written
  own bytes hb := h.own bytes (h'.own bytes hb)
  temporary d folder hd := (h'.temporary d folder (h.draws.subset hd)).trans (h.temporary d folder hd)
  grows ht folder id hid := h'.grows ht folder id (h.grows ht folder id hid)

/-! ## Changes -/

variable (s C tampers) in
/-- What a call may change in one step. -/
structure Change (t : Nat) (S : State) (w : World) : Prop where
  draws : S.state.draws <+: w.draws
  drawn : ∀ e ∈ w.draws, e ∈ S.state.draws ∨ e.1 = t ∧ t < S.calls.length
  distinct : (w.draws.map Prod.snd).Nodup
  failures : S.state.failures <+: w.failures
  written : S.state.written <+: w.written
  author : ∀ e ∈ w.written, e ∈ S.state.written ∨ e.1 = t ∧ Wrote s C S t e.2
  temporary : ∀ u d folder, u ≠ t → (u, d) ∈ S.state.draws →
    w.file? folder (temporaryName d.1) = S.state.file? folder (temporaryName d.1)
  index : ∀ folder id bytes, w.file? folder (indexName id) = some bytes →
    S.state.file? folder (indexName id) = some bytes ∨
      Held s C w bytes ∧ (tampers = false → ∃ m, m.id = id ∧ IsIndex s C bytes folder m)
  grows : tampers = false → ∀ folder id, (S.state.file? folder (indexName id)).isSome →
    (w.file? folder (indexName id)).isSome
  blobs : ∀ location bytes, w.storage location = some bytes →
    S.state.storage location = some bytes ∨ Held s C w bytes

/-- A step of this kind keeps what holds, and leaves the others alone. -/
theorem Change.keeps {w : World} (h : Change s C tampers t S w) (hinv : Orderly s C names tampers S) :
    Orderly s C names tampers { S with state := w } ∧ ∀ u, u ≠ t → Leaves tampers u S { S with state := w } := by
  constructor
  · constructor
    · exact hinv.tenants
    · intro e he
      rcases h.drawn e he with he | ⟨rfl, hlt⟩
      · exact hinv.drawn e he
      · exact hlt
    · exact h.distinct
    · intro e he
      rcases h.author e he with he | ⟨rfl, hwrote⟩
      · exact (hinv.written e he).mono (List.prefix_refl _) h.draws
      · exact hwrote.mono (List.prefix_refl _) h.draws
    · intro folder id bytes hfile
      rcases h.index folder id bytes hfile with hold | ⟨hheld, -⟩
      · exact (hinv.index folder id bytes hold).mono h.written
      · exact hheld
    · intro location bytes hblob
      rcases h.blobs location bytes hblob with hold | hheld
      · exact (hinv.blobs location bytes hold).mono h.written
      · exact hheld
    · intro ht folder id bytes hfile
      rcases h.index folder id bytes hfile with hold | ⟨-, hindex⟩
      · exact hinv.intact ht folder id bytes hold
      · exact hindex ht
  · intro u hu
    refine ⟨List.prefix_refl _, h.draws, h.failures, h.written, ?_, ?_, h.grows⟩
    · intro bytes hbytes
      rcases h.author _ hbytes with hold | ⟨hauthor, -⟩
      · exact hold
      · exact absurd hauthor hu
    · exact fun d folder hd => h.temporary u d folder hu hd

/-- Nothing changes but what is said of failures. -/
theorem change_same {w : World} (hinv : Orderly s C names tampers S) (hstorage : w.storage = S.state.storage) (hfolders : w.folders = S.state.folders)
    (hwritten : w.written = S.state.written) (hdraws : w.draws = S.state.draws)
    (hfailures : S.state.failures <+: w.failures) : Change s C tampers t S w := by
  have hfile (folder name : String) : w.file? folder name = S.state.file? folder name := by
    rw [World.file?, hfolders, World.file?]
  refine ⟨hdraws ▸ List.prefix_refl _, fun u hu => .inl (hdraws ▸ hu), hdraws ▸ hinv.distinct, hfailures,
    hwritten ▸ List.prefix_refl _, fun e he => .inl (hwritten ▸ he), fun u n folder _ _ => hfile _ _, fun folder id bytes h => ?_, ?_, ?_⟩
  · exact .inl (hfile _ _ ▸ h)
  · exact fun _ folder id h => hfile folder _ ▸ h
  · exact fun location bytes h => .inl (hstorage ▸ h)

/-- A failure is added to what an operation has changed. -/
theorem Change.failed {w : World} (h : Change s C tampers t S w) (call : Nat) :
    Change s C tampers t S { w with failures := w.failures ++ [call] } where
  draws := h.draws
  drawn := h.drawn
  distinct := h.distinct
  failures := h.failures.trans (List.prefix_append _ _)
  written := h.written
  author := h.author
  temporary := h.temporary
  index := h.index
  grows := h.grows
  blobs := h.blobs

/-- However an operation ends, no more than its effect has changed. -/
theorem Change.ending {α : Type} {r : Except Failure α × World} (hinv : Orderly s C names tampers S)
    (h : Change s C tampers t S r.2) (e : Ending) :
    Change s C tampers t S (S.state.ending t r e).2 := by
  cases e with
  | done => exact h
  | refused => exact change_same hinv rfl rfl rfl rfl (List.prefix_append _ _)
  | unreported => exact h.failed t

/-- The call changes a temporary file of an id that it has drawn, and writes what it may. -/
theorem change_temporary {w : World} (hinv : Orderly s C names tampers S) (hd : (t, d) ∈ S.state.draws) (hdraws : w.draws = S.state.draws)
    (hfailures : w.failures = S.state.failures) (hstorage : w.storage = S.state.storage)
    (hwritten : S.state.written <+: w.written)
    (hauthor : ∀ e ∈ w.written, e ∈ S.state.written ∨ e.1 = t ∧ Wrote s C S t e.2)
    (hfile : ∀ folder name, name ≠ temporaryName d.1 →
      w.file? folder name = S.state.file? folder name) : Change s C tampers t S w where
  draws := hdraws ▸ List.prefix_refl _
  drawn _ he := .inl (hdraws ▸ he)
  distinct := hdraws ▸ hinv.distinct
  failures := hfailures ▸ List.prefix_refl _
  written := hwritten
  author := hauthor
  temporary _ _ folder hu hd' :=
    hfile folder _ fun hname => hu (hinv.drawn_unique hd' hd (Subtype.ext (temporaryName_injective hname)))
  index folder _ _ h := .inl (hfile folder _ (indexName_ne_temporaryName _ _) ▸ h)
  grows _ folder _ h := hfile folder _ (indexName_ne_temporaryName _ _) ▸ h
  blobs _ _ h := .inl (hstorage ▸ h)

omit [Platform] in
theorem file?_openNew (w : World) (folder folder' : String) {name name' : String} (hname : name' ≠ name) :
    (w.openNew folder name).2.file? folder' name' = w.file? folder' name' := by
  unfold World.openNew
  cases w.folders folder with
  | none => rfl
  | some files =>
    dsimp only
    split
    · rfl
    · rw [file?_set, if_neg fun h => hname h.2]

theorem change_openNew (hinv : Orderly s C names tampers S) (hd : (t, d) ∈ S.state.draws) (folder : String) :
    Change s C tampers t S (S.state.openNew folder (temporaryName d.1)).2 := by
  have hfile (folder' name : String) (hname : name ≠ temporaryName d.1) :=
    file?_openNew S.state folder folder' hname
  obtain ⟨folders, hw⟩ := openNew_eq S.state folder (temporaryName d.1)
  rw [hw] at hfile ⊢
  exact change_temporary hinv hd rfl rfl rfl (List.prefix_refl _) (fun e he => .inl he) hfile

omit [Platform] in
theorem file?_writeFile (w : World) (call : Nat) (content : Bytes) (folder folder' : String) {name name' : String}
    (hname : name' ≠ name) : (w.writeFile call folder name bytes content).file? folder' name' = w.file? folder' name' := by
  unfold World.writeFile
  dsimp only
  split
  · exact (file?_set content).trans (if_neg fun h => hname h.2)
  · rfl

theorem change_writeFile (hinv : Orderly s C names tampers S) (hd : (t, d) ∈ S.state.draws) (folder : String)
    (content : Bytes) (hwrote : Wrote s C S t bytes) :
    Change s C tampers t S (S.state.writeFile t folder (temporaryName d.1) bytes content) := by
  have hfile (folder' name : String) (hname : name ≠ temporaryName d.1) :
      (S.state.writeFile t folder (temporaryName d.1) bytes content).file? folder' name =
        S.state.file? folder' name := file?_writeFile S.state t content folder folder' hname
  obtain ⟨folders, hw⟩ := writeFile_eq S.state t folder (temporaryName d.1) bytes content
  rw [hw] at hfile ⊢
  refine change_temporary hinv hd rfl rfl rfl (List.prefix_append _ _) (fun e he => ?_) hfile
  rcases List.mem_append.mp he with he | he
  · exact .inl he
  · obtain rfl := List.mem_singleton.mp he
    exact .inr ⟨rfl, hwrote⟩

omit [Platform] in
theorem file?_unlink (w : World) (folder folder' : String) {name name' : String} (hname : name' ≠ name) :
    (w.unlink folder name).2.file? folder' name' = w.file? folder' name' := by
  unfold World.unlink
  split
  · rw [file?_delete, if_neg fun h => hname h.2]
  · rfl

theorem change_unlink (hinv : Orderly s C names tampers S) (hd : (t, d) ∈ S.state.draws) (folder : String) :
    Change s C tampers t S (S.state.unlink folder (temporaryName d.1)).2 := by
  have hfile (folder' name : String) (hname : name ≠ temporaryName d.1) :=
    file?_unlink S.state folder folder' hname
  obtain ⟨folders, hw⟩ := unlink_eq S.state folder (temporaryName d.1)
  rw [hw] at hfile ⊢
  exact change_temporary hinv hd rfl rfl rfl (List.prefix_refl _) (fun e he => .inl he) hfile

theorem change_mkdir (hinv : Orderly s C names tampers S) (folder : String) :
    Change s C tampers t S (S.state.modify folder id) where
  draws := List.prefix_refl _
  drawn _ hu := .inl hu
  distinct := hinv.distinct
  failures := List.prefix_refl _
  written := List.prefix_refl _
  author _ he := .inl he
  temporary _ _ _ _ _ := file?_mkdir
  index _ _ _ h := .inl (file?_mkdir.symm.trans h)
  grows _ _ _ h := by rw [file?_mkdir]; exact h
  blobs _ _ h := .inl h

/-- An id is drawn, or the draw fails. -/
theorem change_randomUUID (hinv : Orderly s C names tampers S) (hlt : t < S.calls.length) (d : Uuid) :
    Change s C tampers t S (S.state.draw t d).2 := by
  unfold World.draw
  split
  · exact change_same hinv rfl rfl rfl rfl (List.prefix_append _ _)
  · next hnew =>
    refine ⟨List.prefix_append _ _, fun e he => ?_, ?_, List.prefix_refl _, List.prefix_refl _, fun _ he => .inl he,
      fun _ _ _ _ _ => rfl, fun _ _ _ h => .inl h, fun _ _ _ h => h, fun _ _ h => .inl h⟩
    · rcases List.mem_append.mp he with he | he
      · exact .inl he
      · exact .inr ⟨congrArg Prod.fst (List.mem_singleton.mp he), hlt⟩
    · rw [List.map_append, List.nodup_append]
      refine ⟨hinv.distinct, List.nodup_singleton _, fun d₁ h₁ d₂ h₂ => ?_⟩
      rintro rfl
      have hsame : d₁ = d := List.mem_singleton.mp h₂
      exact hnew (hsame ▸ h₁)

omit [Platform] in
/-- A file that is renamed is found under its new name only. -/
theorem file?_rename {w : World} {folder name : String} (hfile : w.file? folder name = some bytes)
    (name' folder' name'' : String) :
    (w.rename folder name name').2.file? folder' name'' =
      if folder' = folder then
        if name'' = name' then some bytes else if name'' = name then none else w.file? folder' name''
      else w.file? folder' name'' := by
  unfold World.rename
  rw [hfile]
  dsimp only
  rw [file?_modify]
  by_cases h : folder' = folder
  · subst h
    simp only [if_true, Map.get?_set, Map.get?_delete, get?_folder]
  · simp only [if_neg h]

/-- The temporary file takes the name of the index file when it holds the record of the file. -/
theorem change_rename (hinv : Orderly s C names tampers S) (hd : (t, d) ∈ S.state.draws) (folder : String)
    (hid : m.id = d.1)
    (hfile : S.state.file? folder (temporaryName d.1) = some bytes)
    (hwritten : (t, bytes) ∈ S.state.written) (hindex : IsIndex s C bytes folder m) :
    Change s C tampers t S
      (S.state.rename folder (temporaryName d.1) (indexName d.1)).2 := by
  have hrename := file?_rename hfile (indexName d.1)
  obtain ⟨folders, hw⟩ := rename_eq S.state folder (temporaryName d.1) (indexName d.1)
  rw [hw] at hrename ⊢
  refine ⟨List.prefix_refl _, fun u hu => .inl hu, hinv.distinct, List.prefix_refl _, List.prefix_refl _,
    fun e he => .inl he, ?_, ?_, ?_, fun location bytes h => .inl h⟩
  · intro u d' folder' hu hd'
    have hne : temporaryName d'.1 ≠ temporaryName d.1 :=
      fun hname => hu (hinv.drawn_unique hd' hd (Subtype.ext (temporaryName_injective hname)))
    rw [hrename, if_neg (indexName_ne_temporaryName _ _).symm, if_neg hne, ite_self]
  · intro folder' id bytes' h
    rw [hrename, if_neg (indexName_ne_temporaryName _ _)] at h
    split at h
    · next hfolder =>
      split at h
      · next hname =>
        cases h
        exact .inr ⟨.inl ⟨t, hwritten⟩, fun _ => ⟨m, hid.trans (indexName_injective hname).symm, hfolder ▸ hindex⟩⟩
      · exact .inl h
    · exact .inl h
  · intro _ folder' id h
    rw [hrename, if_neg (indexName_ne_temporaryName _ _)]
    split
    · split
      · rfl
      · exact h
    · exact h

/-! ## The logic -/

variable (s C names tampers) in
def fileLogic (post : Nat → Except Failure Outcome → State → Prop) : Logic World Call Failure Outcome where
  inv := Orderly s C names tampers
  rely := Leaves tampers
  post := post

/-- An operation of the call has failed. -/
def Failed (t : Nat) (S : State) : Prop := t ∈ S.state.failures

variable {parse : Bytes → Option Json} {post : Nat → Except Failure Outcome → State → Prop} {P P' : State → Prop}

variable (tampers) in
/-- A property that the others leave alone. -/
def Kept (t : Nat) (P : State → Prop) : Prop := ∀ S S', P S → Leaves tampers t S S' → P S'

omit [Platform] in
theorem kept_true (t : Nat) : Kept tampers t fun _ => True := fun _ _ _ _ => trivial

omit [Platform] in
theorem Kept.and (h : Kept tampers t P) (h' : Kept tampers t P') : Kept tampers t fun S => P S ∧ P' S :=
  fun S S' hs hleaves => ⟨h S S' hs.1 hleaves, h' S S' hs.2 hleaves⟩

omit [Platform] in
theorem kept_failed (u : Nat) : Kept tampers t (Failed u) := fun _ _ h hleaves => hleaves.failures.subset h

omit [Platform] in
theorem kept_made [Platform] (u : Nat) (tenant : String) (m : FileMetadata) (data : Bytes) :
    Kept tampers t fun S => Made S u tenant m data :=
  fun _ _ h hleaves => h.mono hleaves.calls hleaves.draws

variable (s C names tampers parse post) in
/-- From where `P` holds, the program ends with `R` of its result or with `E` of its error. -/
def Spec (t : Nat) {α : Type} (P : State → Prop) (p : Act α) (R : α → State → Prop) (E : Failure → State → Prop) :
    Prop :=
  (fileLogic s C names tampers post).Triple (service s C parse) t P p R E

omit [Platform] in
/-- A failure of its own is nothing to what holds of a call. -/
theorem leaves_failed (t call : Nat) (S : State) : Leaves tampers t S
    { S with state := { S.state with failures := S.state.failures ++ [call] } } where
  calls := List.prefix_refl _
  draws := List.prefix_refl _
  failures := List.prefix_append _ _
  written := List.prefix_refl _
  own _ h := h
  temporary _ _ _ := rfl
  grows _ _ _ h := h

variable {q : Query} {R : q.Answer → State → Prop} {E : Failure → State → Prop}

/-- An operation that ends as it may, from what it changes and answers when it does not fail. -/
theorem spec_query {r : World → Fate → Except Failure q.Answer × World}
    (hserve : ∀ w f, serve s w t q f = w.ending t (r w f) f.ending) (hkept : Kept tampers t P)
    (h : ∀ S, Orderly s C names tampers S → P S → ∀ f, Change s C tampers t S (r S.state f).2 ∧
      (f.ending = .done → Logic.outcomes R E (r S.state f).1 { S with state := (r S.state f).2 }))
    (hfailed : ∀ S w, P S → Change s C tampers t S w → Failed t { S with state := w } →
      E .other { S with state := w }) :
    Spec s C names tampers parse post t P (Program.query q) R E := by
  refine Logic.Triple.query hkept fun S hinv hS f => ?_
  change Logic.Step _ t S { S with state := (serve s S.state t q f).2 } ∧
    Logic.outcomes R E (serve s S.state t q f).1 { S with state := (serve s S.state t q f).2 }
  obtain ⟨hchange, hok⟩ := h S hinv hS f
  have hends := hchange.ending hinv f.ending
  obtain ⟨hinv', hothers⟩ := hends.keeps hinv
  rw [hserve]
  refine ⟨⟨hinv', hothers⟩, ?_⟩
  cases hending : f.ending with
  | done => exact hok hending
  | refused =>
    rw [hending] at hends
    exact hfailed S _ hS hends (List.mem_append_right _ List.mem_cons_self)
  | unreported =>
    rw [hending] at hends
    exact hfailed S _ hS hends (List.mem_append_right _ List.mem_cons_self)

/-- An operation that reads. -/
theorem spec_still {r : World → Except Failure q.Answer}
    (hserve : ∀ w f, serve s w t q f = w.ending t (r w, w) f.ending) (hkept : Kept tampers t P)
    (h : ∀ S, Orderly s C names tampers S → P S → Logic.outcomes R E (r S.state) S)
    (hfailed : ∀ S w, P S → Change s C tampers t S w → Failed t { S with state := w } →
      E .other { S with state := w }) :
    Spec s C names tampers parse post t P (Program.query q) R E :=
  spec_query (r := fun w _ => (r w, w)) hserve hkept
    (fun S hinv hS _ => ⟨change_same hinv rfl rfl rfl rfl (List.prefix_refl _), fun _ => h S hinv hS⟩) hfailed

/-- A value that is made up on the spot. -/
theorem spec_free {r : Fate → q.Answer} (hserve : ∀ w f, serve s w t q f = (.ok (r f), w)) (hkept : Kept tampers t P) :
    Spec s C names tampers parse post t P (Program.query q) (fun _ => P) E := by
  refine Logic.Triple.query hkept fun S hinv hS f => ?_
  change Logic.Step _ t S { S with state := (serve s S.state t q f).2 } ∧
    Logic.outcomes _ E (serve s S.state t q f).1 { S with state := (serve s S.state t q f).2 }
  rw [hserve]
  exact ⟨⟨hinv, fun u _ => .refl u S⟩, hS⟩

theorem spec_refuseIf {c : Bool} {error : AppError} {E : Failure → State → Prop}
    (herror : c → ∀ S, P S → E (.thrown (.app error)) S) :
    Spec s C names tampers parse post t P (refuseIf c error) (fun _ S => P S ∧ c = false) E := by
  cases c with
  | true => exact Logic.Triple.raise fun S _ hS => herror rfl S hS
  | false => exact Logic.Triple.pure fun _ _ hS => ⟨hS, rfl⟩

/-- The key of the service, if it has one. -/
theorem spec_key {E : Failure → State → Prop} (hkept : Kept tampers t P)
    (hfailed : ∀ S w, P S → Change s C tampers t S w → Failed t { S with state := w } →
      E .other { S with state := w })
    (hnone : s.key? = none → ∀ e S, P S → E e S) :
    Spec s C names tampers parse post t P key (fun k S => P S ∧ s.key? = some k) E := by
  refine Logic.Triple.bind (G := fun value S => P S ∧ value = s.credential) ?_ fun value => ?_
  · exact spec_still (r := fun _ => .ok s.credential) (fun _ _ => rfl) hkept (fun _ _ hS => ⟨hS, rfl⟩) hfailed
  · refine Logic.Triple.extract fun hvalue => ?_
    subst hvalue
    unfold FileService.key? at hnone ⊢
    cases hcredential : s.credential.filter (· != "") with
    | none =>
      rw [hcredential] at hnone
      exact Logic.Triple.raise fun S _ hS => hnone rfl _ S hS
    | some encoded =>
      rw [hcredential, Option.bind_some] at hnone
      dsimp only
      cases hkey : fileKey encoded with
      | none => exact Logic.Triple.raise fun S _ hS => hnone hkey _ S hS
      | some k => exact Logic.Triple.pure fun S _ hS => ⟨hS, by rw [Option.bind_some, hkey]⟩

end

end Files
