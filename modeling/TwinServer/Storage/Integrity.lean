-- SUMMARY: When what a resolved store returns leads to what was stored, whatever other calls do and leave behind.
import Mathlib.Data.Set.Operations
import TwinServer.Storage.Files
import TwinServer.Storage.Routing

/-!
# Integrity of stored files

A store that finds its path taken trusts the file that is there. The file was created by a call
with the same digest, but only a call that came to its end has written all of it.
-/

open Js Mqtt Async

namespace Storage

section
variable [Platform]

/-! ## The condition -/

/-- A call that found its path taken is answered when the file there is complete: the call that
created it has written all that it was given. -/
def FindsComplete : Guard Disk StoreTask StoreAnswer := fun disk t _ answer =>
  ∀ path f, t.phase = .refreshed path → answer = .done → disk.file path = some f → f.bytes = f.data

/-- The data stay, and a complete file stays complete. -/
def Grown (f f' : Inode) : Prop := f'.data = f.data ∧ (f.bytes = f.data → f'.bytes = f'.data)

omit [Platform] in
theorem grown_refl (f : Inode) : Grown f f := ⟨rfl, fun h => h⟩

/-! ## What every run keeps -/

section
variable (config : FilesystemStorageConfig) (p : StoreInput → Bool)

/-- What a call knows of its file in each phase. -/
def Knows (disk : Disk) (input : StoreInput) : StorePhase → Prop
  | .reading | .opening _ | .refreshing .. | .rejected => True
  | .writing path n =>
    disk.names path = some n ∧ ∃ f : Inode, disk.inodes[n]? = some f ∧ f.data = input.data
  | .refreshed path => ∃ f, disk.file path = some f
  | .resolved path _ _ => ∃ f, disk.file path = some f ∧ f.bytes = f.data

structure Sound (disk : Disk) (t : StoreTask) : Prop where
  input : p t.input
  located : Located config t
  knows : Knows disk t.input t.phase

variable {config p} {disk disk' : Disk} {input : StoreInput} {phase : StorePhase} {t : StoreTask}

omit [Platform] in
theorem Knows.mono (hdisk : disk.Extends Grown disk') (h : Knows disk input phase) :
    Knows disk' input phase := by
  cases phase with
  | reading => trivial
  | opening path => trivial
  | refreshing path now => trivial
  | rejected => trivial
  | writing path n =>
    obtain ⟨hname, f, hf, hdata⟩ := h
    obtain ⟨f', hf', hdata', -⟩ := hdisk.inodes n f hf
    exact ⟨hdisk.names path n hname, f', hf', hdata'.trans hdata⟩
  | refreshed path =>
    obtain ⟨f, hf⟩ := h
    obtain ⟨f', hf', -⟩ := hdisk.file hf
    exact ⟨f', hf'⟩
  | resolved path stored clock =>
    obtain ⟨f, hf, hcomplete⟩ := h
    obtain ⟨f', hf', -, hcomplete'⟩ := hdisk.file hf
    exact ⟨f', hf', hcomplete' hcomplete⟩

theorem Sound.mono (hdisk : disk.Extends Grown disk') (h : Sound config p disk t) :
    Sound config p disk' t :=
  ⟨h.input, h.located, h.knows.mono hdisk⟩

/-- What one segment of a store does to the files, and what it knows afterwards. -/
theorem knows_step {answer : StoreAnswer} {t' : StoreTask} {others : List StoreTask}
    (hdisk : disk.Linked) (ht : Knows disk t.input t.phase)
    (hguard : FindsComplete disk t others answer) (h : t.Step config disk answer disk' t') :
    disk.Extends Grown disk' ∧ Knows disk' t'.input t'.phase := by
  have hmodify (n : Nat) {g : Inode → Inode}
      (hg : ∀ f, (g f).bytes = f.bytes ∧ (g f).data = f.data) :
      disk.Extends Grown (disk.modify n g) := by
    refine Disk.extends_modify grown_refl fun f _ => ⟨(hg f).2, fun hcomplete => ?_⟩
    rw [(hg f).1, (hg f).2, hcomplete]
  cases h with
  | reject => exact ⟨Disk.extends_refl grown_refl disk, trivial⟩
  | «open» _ _ => exact ⟨Disk.extends_refl grown_refl disk, trivial⟩
  | create _ hname =>
    refine ⟨Disk.extends_create grown_refl hname _, ?_, _, List.getElem?_concat_length, rfl⟩
    exact Function.update_self _ _ _
  | taken _ _ => exact ⟨Disk.extends_refl grown_refl disk, trivial⟩
  | @write path n count hphase =>
    rw [hphase] at ht
    obtain ⟨hname, f, hf, hdata⟩ := ht
    have hgrown : disk.Extends Grown (disk.modify n fun f => { f with
        bytes := t.input.data.take (f.bytes.length + count)
        modified := disk.clock, began := t.started }) := by
      refine Disk.extends_modify grown_refl fun f₀ hf₀ => ⟨rfl, fun hcomplete => ?_⟩
      obtain rfl := Option.some.inj (hf.symm.trans hf₀)
      -- nothing is left to write
      show t.input.data.take (f.bytes.length + count) = f.data
      rw [hcomplete, hdata]
      exact List.take_of_length_le (Nat.le_add_right _ _)
    refine ⟨hgrown, Knows.mono hgrown ?_⟩
    rw [hphase]
    exact ⟨hname, f, hf, hdata⟩
  | @close path n f hphase hinode hbytes =>
    rw [hphase] at ht
    obtain ⟨hname, f', hf', hdata⟩ := ht
    obtain rfl := Option.some.inj (hinode.symm.trans hf')
    have hfile : disk.file path = some f := Disk.file_eq_some.mpr ⟨n, hname, hinode⟩
    refine ⟨hmodify n fun _ => ⟨rfl, rfl⟩, _, Disk.file_modify hfile, ?_⟩
    split
    · exact hbytes.trans hdata.symm
    · exact hbytes.trans hdata.symm
  | @touch path n now _ hname =>
    obtain ⟨f, -, hf⟩ := hdisk.exists_file hname
    exact ⟨hmodify n fun _ => ⟨rfl, rfl⟩, _, Disk.file_modify hf⟩
  | @finish path n hphase _ =>
    rw [hphase] at ht
    obtain ⟨f, hf⟩ := ht
    have hcomplete := hguard path f hphase rfl hf
    refine ⟨hmodify n fun _ => ⟨rfl, rfl⟩, _, Disk.file_modify hf, ?_⟩
    split
    · exact hcomplete
    · exact hcomplete
  | lost hphase hname =>
    rw [hphase] at ht
    obtain ⟨f, hf⟩ := ht
    obtain ⟨n, hn, -⟩ := Disk.file_eq_some.mp hf
    rw [hname] at hn
    cases hn

theorem keeps (config : FilesystemStorageConfig) (p : StoreInput → Bool) :
    Modular ((stores config).only p) FindsComplete (Addressed config p) (Sound config p)
      (fun _ _ => True) where
  symm _ := trivial
  call := by
    intro disk input disk' t hdisk hcall
    unfold Machine.only stores at hcall
    dsimp only at hcall
    split at hcall
    · next hp =>
      obtain ⟨rfl, rfl⟩ := Prod.mk.inj (Option.some.inj hcall)
      exact ⟨hdisk, ⟨hp, ⟨fun _ h => (by cases h), fun _ _ _ h => (by cases h)⟩, trivial⟩,
        fun u hu => ⟨hu, trivial⟩⟩
    · cases hcall
  resume := by
    intro disk t answer disk' t' others hdisk ht hothers hguard hresume
    have hstep := StoreTask.step_of_resume hresume
    obtain ⟨hinput, -, hlocated⟩ := ht.located.step hstep
    obtain ⟨hgrown, hknows⟩ := knows_step hdisk.linked ht.knows hguard hstep
    exact ⟨hdisk.step ht.input ht.located hstep, ⟨hinput ▸ ht.input, hlocated, hknows⟩,
      fun u hu => ⟨(hothers u hu).1.mono hgrown, trivial⟩⟩
  env := by
    intro disk elapsed disk' hdisk henv
    obtain rfl := Option.some.inj henv
    exact ⟨⟨hdisk.linked, hdisk.input⟩, fun u hu =>
      hu.mono (Disk.extends_clock grown_refl disk _)⟩

end

/-! ## Integrity -/

section
variable {config : FilesystemStorageConfig} {input input' : StoreInput} {path : Path}

/-- The name of a file starts with the digest of what was stored. -/
theorem sha256_eq_of_objectPath (h : config.objectPath input = .ok path)
    (h' : config.objectPath input' = .ok path) : sha256 input.data = sha256 input'.data := by
  obtain ⟨directory, -, hpath⟩ := objectPath_eq_ok h
  obtain ⟨directory', -, hpath'⟩ := objectPath_eq_ok h'
  have hnames := List.append_cancel_left (hpath.symm.trans hpath')
  simp only [FilesystemStorageConfig.names, List.cons.injEq] at hnames
  have hname := congrArg String.toList hnames.2.2.2.1
  have hlength := (Platform.sha256_length input.data).trans (Platform.sha256_length input'.data).symm
  rw [String.toList_append, String.toList_append, String.toList_append, String.toList_append,
    List.append_assoc, List.append_assoc] at hname
  exact String.toList_inj.mp (List.append_inj_left hname hlength)

/-- What is at the path of an object is read at its URI. -/
theorem read_uriFor {disk : Disk} {f : Inode} (hpath : config.objectPath input = .ok path)
    (hown : config.OwnUris path) (hf : disk.file path = some f) :
    (StorageProvider.filesystem config).read (config.uriFor path) disk.world = .ok f.bytes := by
  have hlocation : (StorageProvider.filesystem config).locationOf (config.uriFor path) =
      .ok (.file path) := by
    show Location.file <$> config.pathFor (config.uriFor path) = .ok (.file path)
    rw [(FilesystemStorageConfig.pathFor_uriFor hpath).mpr hown]
    rfl
  apply read_of_locationOf hlocation
  show (disk.file path).map Inode.bytes = some f.bytes
  rw [hf, Option.map_some]

/-- A call that creates a file and is not interrupted stores what the provider's store does. -/
theorem thread_store {disk : Disk} (hlinked : disk.Linked)
    (hpath : config.objectPath input = .ok path) (hname : disk.names path = none) :
    ∃ disk' t stored, (stores config).thread disk { input, started := disk.clock } (creating input) =
        some (disk', t) ∧ t.phase = .resolved path stored disk.clock ∧
      (StorageProvider.filesystem config).store input disk.world = .ok (stored, disk'.world) := by
  have hnone : disk.file path = none := by
    unfold Disk.file
    rw [hname, Option.bind_none]
  have hstore : (StorageProvider.filesystem config).store input disk.world =
      .ok (StoreTask.storedObject config input path,
        disk.world.set (.file path) (some input.data)) := by
    have haddress : (StorageProvider.filesystem config).address input =
        .ok (.file path, config.uriFor path) := by
      unfold StorageProvider.address
      dsimp only
      rw [hpath]
      rfl
    have hworld : disk.world (.file path) = none := by
      rw [Disk.world_file, hnone, Option.map_none]
    unfold StorageProvider.store
    rw [haddress]
    simp only [bind, Except.bind, hworld]
    rfl
  have hfinal (inode : Inode) (hbytes : inode.bytes = input.data) :
      (disk.create path inode).world = disk.world.set (.file path) (some input.data) := by
    funext location
    cases location with
    | object endpoint region bucket key => exact (Function.update_of_ne (by simp) _ _).symm
    | file path' =>
      by_cases hne : path' = path
      · subst hne
        simp [Disk.world_file, World.set, Disk.file_create_self, hbytes]
      · simp [Disk.world_file, World.set, Disk.file_create_of_ne hlinked hne, hne]
  refine ⟨_, _, _, thread_creating hpath hname, rfl, ?_⟩
  rw [hfinal _ rfl]
  exact hstore

/-- When no call is answered by the unfinished work of another, every store that resolves returns
a URI under which its data are read, and their hash. -/
theorem store_integrity (config : FilesystemStorageConfig) {start : Int}
    {es : List (Event StoreInput StoreAnswer Nat)} {c : Config Disk StoreTask}
    (hsha : Set.InjOn sha256 {data | ∃ input, .call input ∈ es ∧ input.data = data})
    (huris : ∀ input path, .call input ∈ es → config.objectPath input = .ok path →
      config.OwnUris path)
    (hmeets : (stores config).Meets FindsComplete ⟨Disk.empty start, []⟩ es)
    (hrun : (stores config).run ⟨Disk.empty start, []⟩ es = some c) :
    ∀ t ∈ c.tasks, ∀ path stored clock, t.phase = .resolved path stored clock →
      ∃ bytes, (StorageProvider.filesystem config).read stored.uri c.shared.world = .ok bytes ∧
        stored.hash = "sha256:" ++ sha256 bytes ∧ bytes = t.input.data := by
  classical
  have hcalls : ∀ input, .call input ∈ es → decide (.call input ∈ es) = true :=
    fun _ h => decide_eq_true h
  have hempty : Addressed config (fun input => decide (.call input ∈ es)) (Disk.empty start) :=
    ⟨fun _ _ h => (by cases h), fun _ _ h => (by cases h)⟩
  have hholds := (keeps config fun input => decide (.call input ∈ es)).run (.init hempty)
    ((stores config).meets_only hcalls hmeets) (((stores config).run_only hcalls).trans hrun)
  intro t ht path stored clock hphase
  obtain ⟨hcall, hlocated, hknows⟩ := hholds.tasks t ht
  have hpath : config.objectPath t.input = .ok path := hlocated.path path (by rw [hphase]; rfl)
  obtain rfl := hlocated.stored path stored clock hphase
  rw [hphase] at hknows
  obtain ⟨f, hf, hcomplete⟩ := hknows
  -- the file was created for an input with the same digest
  obtain ⟨input, hinput, hpath', hdata⟩ := hholds.shared.input path f hf
  have hsame : input.data = t.input.data := by
    apply hsha ⟨input, of_decide_eq_true hinput, rfl⟩ ⟨t.input, of_decide_eq_true hcall, rfl⟩
    exact sha256_eq_of_objectPath hpath' hpath
  have hbytes : f.bytes = t.input.data := hcomplete.trans (hdata.trans hsame)
  refine ⟨t.input.data, ?_, rfl, rfl⟩
  rw [← hbytes]
  exact read_uriFor hpath (huris t.input path (of_decide_eq_true hcall) hpath) hf

end

/-! ## Two calls -/

section
variable (input : StoreInput) (path : Path) (start : Int)

/-- One call creates the file and writes all of it, another one finds it and refreshes it. -/
def storedTwice : List (Event StoreInput StoreAnswer Nat) :=
  [.call input, .resume 0 .read, .resume 0 .opened, .resume 0 (.wrote input.data.length),
    .resume 0 .closed, .call input, .resume 1 .read, .resume 1 .opened, .resume 1 .touched]

/-- The disk is full when one call has created the file, and another one finds it. -/
def storedAfterFailure : List (Event StoreInput StoreAnswer Nat) :=
  [.call input, .resume 0 .read, .resume 0 .opened, .resume 0 .failed,
    .call input, .resume 1 .read, .resume 1 .opened, .resume 1 .touched, .resume 1 .done]

/-- A disk with one file. -/
def oneFile (bytes : Bytes) : Disk where
  names := Function.update (fun _ => none) path (some 0)
  inodes := [{ bytes, modified := start, data := input.data, began := start, stored := some start }]
  clock := start

omit [Platform] in
theorem file_oneFile (bytes : Bytes) : (oneFile input path start bytes).file path =
    some { bytes, modified := start, data := input.data, began := start, stored := some start } := by
  apply Disk.file_eq_some.mpr
  refine ⟨0, ?_, rfl⟩
  simp only [oneFile, Function.update_self]

variable {input path} (config : FilesystemStorageConfig)

theorem run_storedTwice (hpath : config.objectPath input = .ok path) :
    (stores config).run ⟨Disk.empty start, []⟩ (storedTwice input) =
      some ⟨oneFile input path start input.data, [
        ⟨input, start, .resolved path (StoreTask.storedObject config input path) start⟩,
        ⟨input, start, .refreshed path⟩]⟩ := by
  simp [storedTwice, Machine.run, Machine.step, stores, StoreTask.resume, hpath, Disk.create,
    Disk.empty, Disk.modify, StoreTask.resolve, oneFile]

theorem run_storedTwice_done (hpath : config.objectPath input = .ok path) :
    (stores config).run ⟨Disk.empty start, []⟩ (storedTwice input ++ [.resume 1 .done]) =
      some ⟨oneFile input path start input.data, [
        ⟨input, start, .resolved path (StoreTask.storedObject config input path) start⟩,
        ⟨input, start, .resolved path (StoreTask.storedObject config input path) start⟩]⟩ := by
  rw [Machine.run_append _ (run_storedTwice start config hpath)]
  simp [Machine.run, Machine.step, stores, StoreTask.resume, Disk.modify, StoreTask.resolve, oneFile]

theorem meets_storedTwice (hpath : config.objectPath input = .ok path) :
    (stores config).Meets FindsComplete ⟨Disk.empty start, []⟩
      (storedTwice input ++ [.resume 1 .done]) := by
  refine Machine.Meets.append ?_ (run_storedTwice start config hpath) ⟨?_, fun _ _ => trivial⟩
  · -- only the last answer resolves a call that found the file
    apply Machine.meets_of_inputs
    intro n answer hmem disk t others path f _ hdone
    subst hdone
    simp [storedTwice] at hmem
  · rintro t ht path' f hphase - hf
    obtain rfl := Option.some.inj ht
    obtain rfl := StorePhase.refreshed.inj hphase
    rw [file_oneFile] at hf
    obtain rfl := Option.some.inj hf
    rfl

theorem run_storedAfterFailure (hpath : config.objectPath input = .ok path) :
    (stores config).run ⟨Disk.empty start, []⟩ (storedAfterFailure input) =
      some ⟨oneFile input path start [], [⟨input, start, .rejected⟩,
        ⟨input, start, .resolved path (StoreTask.storedObject config input path) start⟩]⟩ := by
  simp [storedAfterFailure, Machine.run, Machine.step, stores, StoreTask.resume, hpath, Disk.create,
    Disk.empty, Disk.modify, StoreTask.resolve, oneFile]

end

end

def localFiles : FilesystemStorageConfig where
  basePath := "/data"

def helloArtifact : StoreInput where
  data := hello

/-- The artifact is kept in the directory `/data/twins/unscoped/artifacts`. -/
def helloPath : Path :=
  @FilesystemStorageConfig.root Platform.plain localFiles ++
    FilesystemStorageConfig.names "artifacts" (Platform.plain.sha256 hello) helloArtifact

def helloObject : StoredObject :=
  @StoreTask.storedObject Platform.plain localFiles helloArtifact helloPath

theorem objectPath_helloArtifact :
    @FilesystemStorageConfig.objectPath Platform.plain localFiles helloArtifact = .ok helloPath :=
  @objectPath_of_directory Platform.plain _ helloArtifact "artifacts" rfl

theorem ownUris_localFiles (path : Path) :
    @FilesystemStorageConfig.OwnUris Platform.plain localFiles path := by
  intro u hu
  cases hu

theorem store_integrity_twice :
    ∃ bytes, @StorageProvider.read Platform.plain (.filesystem localFiles) helloObject.uri
        (oneFile helloArtifact helloPath 0 hello).world = .ok bytes ∧
      helloObject.hash = "sha256:" ++ Platform.plain.sha256 bytes ∧ bytes = hello := by
  have hcalls : ∀ input, Event.call input ∈ storedTwice helloArtifact ++ [.resume 1 .done] →
      input = helloArtifact := by
    simp [storedTwice]
  have hsha : Set.InjOn Platform.plain.sha256
      {data | ∃ input, Event.call input ∈ storedTwice helloArtifact ++ [.resume 1 .done] ∧
        input.data = data} := by
    rintro _ ⟨a, ha, rfl⟩ _ ⟨b, hb, rfl⟩ -
    rw [hcalls a ha, hcalls b hb]
  exact @store_integrity Platform.plain localFiles 0 _ _ hsha
    (fun _ path _ _ => ownUris_localFiles path)
    (@meets_storedTwice Platform.plain _ _ 0 localFiles objectPath_helloArtifact)
    (@run_storedTwice_done Platform.plain _ _ 0 localFiles objectPath_helloArtifact)
    ⟨helloArtifact, 0, .resolved helloPath helloObject 0⟩ List.mem_cons_self helloPath helloObject 0 rfl

/-- The second call returns the hash of what is not there. -/
theorem storedAfterFailure_empty : ∃ c,
    (@stores Platform.plain localFiles).run ⟨Disk.empty 0, []⟩ (storedAfterFailure helloArtifact) =
      some c ∧
    ∃ t ∈ c.tasks, t.phase = .resolved helloPath helloObject 0 ∧ t.input.data = hello ∧
      @StorageProvider.read Platform.plain (.filesystem localFiles) helloObject.uri c.shared.world =
        .ok [] := by
  refine ⟨_, @run_storedAfterFailure Platform.plain _ _ 0 localFiles objectPath_helloArtifact, _,
    List.mem_cons_of_mem _ List.mem_cons_self, rfl, rfl, ?_⟩
  exact @read_uriFor Platform.plain localFiles helloArtifact helloPath _ _ objectPath_helloArtifact
    (ownUris_localFiles _) (file_oneFile _ _ _ _)

end Storage
