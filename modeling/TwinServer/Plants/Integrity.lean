-- SUMMARY: What a list returns when blobs are replaced by others that the server has stored, and when it is exact.
import TwinServer.Plants.Linearization

/-!
# Integrity of blobs

A blob is bound to the tenant, the plant, the revision and the publication of its pointer. A put that
fails after it has stored its blob leaves one that is bound to the revision that a later put commits.
-/

open Js Js.Json Thread Async

namespace Plants.Service

/-! ## Replaced blobs -/

/-- A plant as it was put. -/
def exact (p : Stored) : Plant :=
  { id := p.id, revision := p.revision, document := p.document, publication := p.publication }

/-- Plants that their blobs are bound to in one way. -/
structure Alike (p q : Stored) : Prop where
  scope : p.scope = q.scope
  id : p.id = q.id
  revision : p.revision = q.revision
  publication : p.publication = q.publication

/-- A list returns the documents of the puts that committed, or it fails for the integrity. -/
def Exact (s : Disk) (tenantId : String) : Except Thrown (List Plant) → Prop
  | .ok plants => plants = ((replay (s.history.map Blob.plant)).list tenantId).map exact
  | .error e => e = .app integrityFailure

/-- Whatever was stored for a current plant of the tenant holds the document of the plant, and the
text of the document leaves nothing out. -/
def Unmistakable (s : Disk) (tenantId : String) : Prop :=
  ∀ p ∈ (replay (s.history.map Blob.plant)).list tenantId, ∀ b ∈ s.blobs, Alike b.plant p →
    leftOf b.plant.document = p.document

section
variable [Services] (A : Aead) (key : List Nat) (parse : String → Option Json)

/-- `list` on a directory at rest, on what the URIs hold. -/
def listOn (s : Disk) (content : String → Option (List Nat)) (tenantId : String) :
    Except Thrown (List Plant) := do
  let plants ← catalog parse s.file
  readPlants A key parse content (plants.filter (·.scope == sha256 tenantId))

/-- Everything that the server has stored. -/
def Disk.written (s : Disk) : List (List Nat) := s.blobs.map (Blob.bytes A key) ++ s.foreign

/-- Every URI holds something that the server has stored, or it is not read. -/
def Replaced (s : Disk) (content : String → Option (List Nat)) : Prop :=
  ∀ uri bytes, content uri = some bytes → bytes ∈ s.written A key

variable {A} {key} {parse} {s : Disk} {b b' : Blob} {names : List String} {tenantId : String}

/-- Blobs of plants that are alike are read alike. -/
theorem openBlob_alike (h : Alike b'.plant b.plant) (bytes : List Nat) :
    openBlob A parse key b.pointer bytes = openBlob A parse key b'.pointer bytes := by
  have hpointer : b.pointer = { b'.pointer with uri := b.uri } := by
    unfold Blob.pointer
    rw [h.scope, h.id, h.revision, h.publication]
  rw [hpointer]
  rfl

variable (hnames : ∀ a ∈ names, ∀ b ∈ names, sha256 a = sha256 b → a = b) (hreads : Reads parse)
  (hideal : A.Ideal)

include hnames in
theorem alike_of_aad [NumberText] (hb : b.Sound names) (hb' : b'.Sound names)
    (h : b.pointer.aad = b'.pointer.aad) : Alike b'.plant b.plant := by
  have hvalid {b : Blob} (hb : b.Sound names) (q : Projection) (hq : b.pointer.publication = some q) :
      q.toPublication.Valid := by
    obtain ⟨p, hp, rfl⟩ := Option.map_eq_some_iff.mp hq
    exact hb.publication p hp
  have hsame := (aad_eq_iff (hvalid hb) (hvalid hb')).mp h
  have hpublication := congrArg (Option.map Projection.toPublication) hsame.publication
  simp only [Blob.pointer, Option.map_map] at hpublication
  refine ⟨?_, ?_, hsame.revision.symm, ?_⟩
  · exact hnames _ hb'.known.1 _ hb.known.1 hsame.scope.symm
  · exact hnames _ hb'.known.2 _ hb.known.2 hsame.plant.symm
  · cases hp : b.plant.publication <;> cases hp' : b'.plant.publication <;>
      simp_all

include hnames hreads hideal in
/-- A blob is read for a pointer that it is bound to only. -/
theorem openBlob_blob [NumberText] (hb : b.Sound names) (hb' : b'.Sound names) {plant : Plant}
    (h : openBlob A parse key b.pointer (b'.bytes A key) = some plant) :
    Alike b'.plant b.plant ∧ plant = listed b'.plant := by
  have halike : Alike b'.plant b.plant := by
    unfold openBlob at h
    obtain ⟨text, htext, -⟩ := Option.bind_eq_some_iff.mp h
    have haad := (eq_of_openEnvelope hideal (recordText_ne _ _) htext).2.1
    exact alike_of_aad hnames hb hb' haad
  rw [openBlob_alike halike, openBlob_bytes hreads hideal hb'] at h
  exact ⟨halike, (Option.some.inj h).symm⟩

/-- The list of a sound directory reads the current blobs of the tenant. -/
theorem listOn_eq (hnames : ∀ a ∈ names, ∀ b ∈ names, sha256 a = sha256 b → a = b)
    (hs : s.Sound parse names) (htenant : tenantId ∈ names) (content : String → Option (List Nat)) :
    listOn A key parse s content tenantId = readPlants A key parse content
      (((current s.history).filter (·.plant.scope = tenantId)).map Blob.pointer) := by
  unfold listOn
  rw [hs.catalog, ← list_pointers hnames (fun b hb => (hs.blobs b (hs.stored b hb)).known) htenant]
  rfl

include hnames hreads hideal in
theorem exact_of_unmistakable [NumberText] (hs : s.Sound parse names) (htenant : tenantId ∈ names)
    (hforeign : ∀ bytes ∈ s.foreign, ∀ aad, openEnvelope A key aad bytes = none)
    (h : Unmistakable s tenantId) {content : String → Option (List Nat)}
    (hcontent : Replaced A key s content) :
    Exact s tenantId (listOn A key parse s content tenantId) := by
  rw [listOn_eq hnames hs htenant]
  cases hread : readPlants A key parse content
      (((current s.history).filter (·.plant.scope = tenantId)).map Blob.pointer) with
  | error e => exact readPlants_error hread
  | ok plants =>
    rw [readPlants_ok_iff, List.forall₂_map_left_iff] at hread
    rw [Exact, list_replay, List.map_map]
    apply eq_map_of_forall₂ hread
    intro b hb plant hplant
    obtain ⟨bytes, hbytes, hopen⟩ := Option.bind_eq_some_iff.mp hplant
    have hmem := mem_blobs_of_seen hs (List.prefix_refl _) hb
    rcases List.mem_append.mp (hcontent _ _ hbytes) with hblob | hother
    · obtain ⟨b', hb', rfl⟩ := List.mem_map.mp hblob
      obtain ⟨halike, rfl⟩ := openBlob_blob hnames hreads hideal (hs.blobs b hmem) (hs.blobs b' hb') hopen
      have hcurrent : b.plant ∈ (replay (s.history.map Blob.plant)).list tenantId := by
        rw [list_replay]
        exact List.mem_map_of_mem hb
      have hdocument := h b.plant hcurrent b' hb' halike
      unfold listed exact
      rw [hdocument, Function.comp_apply, halike.id, halike.revision, halike.publication]
    · unfold openBlob at hopen
      rw [hforeign bytes hother] at hopen
      cases hopen

include hnames hreads hideal in
theorem unmistakable_of_exact (hs : s.Sound parse names) (htenant : tenantId ∈ names)
    (h : ∀ content, Replaced A key s content → Exact s tenantId (listOn A key parse s content tenantId)) :
    Unmistakable s tenantId := by
  intro p hp b' hb' halike
  rw [list_replay] at hp
  obtain ⟨b, hb, rfl⟩ := List.mem_map.mp hp
  -- The URI of the current blob holds the other one.
  let content : String → Option (List Nat) := fun uri =>
    if uri = b.uri then some (b'.bytes A key) else s.content A key uri
  let read : Blob → Plant := fun c => if c.uri = b.uri then listed b'.plant else listed c.plant
  have hreplaced : Replaced A key s content := by
    intro uri bytes hbytes
    apply List.mem_append_left
    simp only [content] at hbytes
    split at hbytes
    · exact Option.some.inj hbytes ▸ List.mem_map_of_mem hb'
    · obtain ⟨c, hc, rfl⟩ := Option.map_eq_some_iff.mp hbytes
      exact List.mem_map_of_mem (List.mem_of_find?_eq_some hc)
  have hexact := h content hreplaced
  have hlist : listOn A key parse s content tenantId =
      .ok (((current s.history).filter (·.plant.scope = tenantId)).map read) := by
    rw [listOn_eq hnames hs htenant, readPlants_ok_iff, List.forall₂_map_left_iff,
      List.forall₂_map_right_iff, List.forall₂_same]
    intro c hc
    have hmem := mem_blobs_of_seen hs (List.prefix_refl _) hc
    show (content c.uri).bind (openBlob A parse key c.pointer) = some (read c)
    simp only [content, read]
    split
    case isTrue huri =>
      have hcb := List.inj_on_of_nodup_map hs.uris hmem
        (mem_blobs_of_seen hs (List.prefix_refl _) hb) huri
      subst hcb
      rw [Option.bind_some, openBlob_alike halike]
      exact openBlob_bytes hreads hideal (hs.blobs b' hb')
    case isFalse =>
      rw [content_of_mem hs hmem, Option.bind_some]
      exact openBlob_bytes hreads hideal (hs.blobs c hmem)
  rw [hlist, Exact, list_replay, List.map_map] at hexact
  have hread := List.map_inj_left.mp hexact b hb
  simp only [read, if_true] at hread
  exact congrArg Plant.document hread

variable {es : List (Event Call Answer (List Nat))} {c : Config Disk Task}

include hreads in
/-- The directory at the end of a run is sound for the names of the run and of a list. -/
theorem sound_of_run (hhex : ∀ s, isHex64 (sha256 s).toList)
    (hcollision : CollisionFree (es ++ [.call (.list tenantId)]))
    (hmeets : (machine A key parse).Meets freshUris ⟨.empty, []⟩ es)
    (hrun : (machine A key parse).run ⟨.empty, []⟩ es = some c) :
    c.shared.Sound parse (namesOf (es ++ [.call (.list tenantId)])) := by
  apply Holds.shared
  apply holds_of_run hcollision hreads hhex _ hmeets hrun
  intro k hk
  exact names_of_call (List.mem_append_left _ hk)

omit [Services] in
theorem mem_namesOf_list : tenantId ∈ namesOf (es ++ [.call (.list tenantId)]) := by
  simp [namesOf, Call.names]

end

section
variable [Services] [NumberText] {A : Aead} {key : List Nat} {parse : String → Option Json}
  {es : List (Event Call Answer (List Nat))} {c : Config Disk Task} {tenantId : String}

/-- After every history of puts, a list is exact whatever the blobs are replaced by, or it fails, if and
only if nothing else was stored for a current plant of the tenant. -/
theorem list_exact_iff (hreads : Reads parse) (hideal : A.Ideal)
    (hhex : ∀ s, isHex64 (sha256 s).toList)
    (hcollision : CollisionFree (es ++ [.call (.list tenantId)]))
    (hforeign : ∀ bytes, .env bytes ∈ es → ∀ aad, openEnvelope A key aad bytes = none)
    (hmeets : (machine A key parse).Meets freshUris ⟨.empty, []⟩ es)
    (hrun : (machine A key parse).run ⟨.empty, []⟩ es = some c) :
    (∀ content, Replaced A key c.shared content →
      Exact c.shared tenantId (listOn A key parse c.shared content tenantId)) ↔
    Unmistakable c.shared tenantId := by
  have hsound := sound_of_run hreads hhex hcollision hmeets hrun
  constructor
  · exact unmistakable_of_exact hcollision hreads hideal hsound mem_namesOf_list
  · intro h content hcontent
    apply exact_of_unmistakable hcollision hreads hideal hsound mem_namesOf_list _ h hcontent
    intro bytes hbytes
    rcases foreign_of_run hrun hbytes with hnone | henv
    · cases hnone
    · exact hforeign bytes henv

end

/-! ## Samples -/

/-- A put whose catalog is not written. -/
def sampleOrphaned (document : Record Json) : List (Event Call Answer (List Nat)) :=
  sampleSealed 0 document ++ [.stored "file:///1.bin", .answer (.error .rejection), .unlock true].map (.resume 0)

/-- A put that fails after its blob was stored, and the put of another document. -/
def sampleOrphanRun (document document' : Record Json) : List (Event Call Answer (List Nat)) :=
  sampleOrphaned document ++ (sampleSealed 1 document' ++ sampleStored 1 "file:///2.bin")

section
variable (A : Aead) (key : List Nat) (parse : String → Option Json) (document document' : Record Json)

theorem run_sampleOrphaned : let _ : Services := sampleServices
    (machine A key parse).run ⟨.empty, []⟩ (sampleOrphaned document) =
      some ⟨⟨none, false, [sampleBlob document "file:///1.bin"], [], []⟩,
        [.put (sampleRequest document) [] (.done (.error .rejection))]⟩ := by
  intro _
  have hsealed := run_sampleSealed A key parse document [] []
  exact ((machine A key parse).run_append hsealed _).trans (Machine.run_thread rfl [])

theorem run_sampleOrphanRun : let _ : Services := sampleServices
    let b := sampleBlob document' "file:///2.bin"
    (machine A key parse).run ⟨.empty, []⟩ (sampleOrphanRun document document') =
      some ⟨⟨some (catalogText [b.pointer]), false, [b, sampleBlob document "file:///1.bin"], [], [b]⟩,
        [.put (sampleRequest document) [] (.done (.error .rejection)),
          .put (sampleRequest document') [] (.done (.ok b))]⟩ := by
  intro _ b
  have horphaned := run_sampleOrphaned A key parse document
  have hsealed := run_sampleSealed A key parse document' [sampleBlob document "file:///1.bin"]
    [.put (sampleRequest document) [] (.done (.error .rejection))]
  have hstored := run_sampleStored A key parse document' [sampleBlob document "file:///1.bin"]
    [.put (sampleRequest document) [] (.done (.error .rejection))] "file:///2.bin"
  exact ((machine A key parse).run_append horphaned _).trans
    (((machine A key parse).run_append hsealed _).trans hstored)

theorem meets_sampleOrphanRun : let _ : Services := sampleServices
    (machine A key parse).Meets freshUris ⟨.empty, []⟩ (sampleOrphanRun document document') := by
  intro _
  apply Machine.Meets.append _ (run_sampleOrphaned A key parse document)
  · apply Machine.Meets.append _ (run_sampleSealed A key parse document' _ [_])
    · apply meets_sampleStored
      · exact fun _ _ _ _ => trivial
      · exact fun _ _ _ _ => trivial
      · intro t
        refine ⟨by simp, fun b hb => ?_⟩
        rw [List.mem_singleton.mp hb]
        exact (by simp : "file:///1.bin" ≠ "file:///2.bin")
    · apply meets_sampleSealed
      · exact fun _ _ _ _ => trivial
      · exact fun _ _ _ _ _ => trivial
  · apply Machine.Meets.append _ (run_sampleSealed A key parse document [] [])
    · refine ⟨fun t _ => ⟨by simp, fun b hb => by cases hb⟩, fun d _ => ?_⟩
      apply Machine.meets_of_inputs
      intro m i hi s t others
      simp only [List.map_cons, List.map_nil, List.mem_cons, Event.resume.injEq, List.not_mem_nil,
        or_false] at hi
      rcases hi with ⟨-, rfl⟩ | ⟨-, rfl⟩ <;> trivial
    · apply meets_sampleSealed
      · exact fun _ _ _ _ => trivial
      · exact fun _ _ _ _ _ => trivial

end

/-- After one put, a list is exact or it fails. -/
theorem list_exact_single : let _ : Services := sampleServices
    let document : Record Json := [("name", .string "hall")]
    ∀ content, Replaced Aead.labelled [] (sampleDisk document) content →
      Exact (sampleDisk document) "acme"
        (listOn Aead.labelled [] readBack (sampleDisk document) content "acme") := by
  intro _ document
  have hnumbers : NumberText := numberText_exact
  have hnames : ∀ name ∈ namesOf (samplePutRun document ++ [.call (.list "acme")]),
      name = "acme" ∨ name = "p1" := by
    intro name hname
    have heq : namesOf (samplePutRun document ++ [.call (.list "acme")]) =
        namesOf (samplePutRun document) ++ ["acme"] := rfl
    rw [heq, List.mem_append, List.mem_singleton] at hname
    exact hname.elim (names_samplePutRun document name) .inl
  refine (list_exact_iff reads_readBack Aead.ideal_labelled hex_sampleServices
    (collisionFree_sample hnames) ?_ ((meets_samplePutRun Aead.labelled [] readBack document).weaken
      fun h => h.1) (run_samplePutRun Aead.labelled [] readBack document)).mpr ?_
  · intro bytes hbytes
    simp [samplePutRun, sampleSealed, sampleStored, Event.alone] at hbytes
  · intro p hp b hb _
    rw [list_replay] at hp
    obtain ⟨b', hb', rfl⟩ := List.mem_map.mp hp
    obtain rfl := List.mem_singleton.mp hb
    obtain rfl := List.mem_singleton.mp (mem_of_mem_current (List.mem_filter.mp hb').1)
    rfl

/-- The blob of a put that failed takes the place of the one that was committed. -/
theorem orphan_read : let _ : Services := sampleServices
    let es := sampleOrphanRun [("name", .string "draft")] [("name", .string "hall")]
    ∃ c, CollisionFree (es ++ [.call (.list "acme")]) ∧
      (machine Aead.labelled [] readBack).Meets freshUris ⟨.empty, []⟩ es ∧
      (machine Aead.labelled [] readBack).run ⟨.empty, []⟩ es = some c ∧
      ¬ ∀ content, Replaced Aead.labelled [] c.shared content →
        Exact c.shared "acme" (listOn Aead.labelled [] readBack c.shared content "acme") := by
  intro _ es
  have hnumbers : NumberText := numberText_exact
  have hrun := run_sampleOrphanRun Aead.labelled [] readBack [("name", .string "draft")]
    [("name", .string "hall")]
  have hmeets := meets_sampleOrphanRun Aead.labelled [] readBack [("name", .string "draft")]
    [("name", .string "hall")]
  have hcollision : CollisionFree (es ++ [.call (.list "acme")]) := by
    apply collisionFree_sample
    intro name hname
    have heq : namesOf (es ++ [.call (.list "acme")]) = ["acme", "p1", "acme", "p1", "acme"] := rfl
    rw [heq] at hname
    simp only [List.mem_cons, List.not_mem_nil, or_false] at hname
    rcases hname with rfl | rfl | rfl | rfl | rfl <;> first | exact .inl rfl | exact .inr rfl
  refine ⟨_, hcollision, hmeets, hrun, fun h => ?_⟩
  have hsound := sound_of_run reads_readBack hex_sampleServices hcollision hmeets hrun
  have hun := unmistakable_of_exact hcollision reads_readBack Aead.ideal_labelled hsound mem_namesOf_list h
  have hdocument := hun _ List.mem_cons_self (sampleBlob [("name", .string "draft")] "file:///1.bin")
    (List.mem_cons_of_mem _ List.mem_cons_self) ⟨rfl, rfl, rfl, rfl⟩
  simp [sampleBlob, sampleRequest, Request.plant, leftOf, writtenMembers, written] at hdocument

end Plants.Service
