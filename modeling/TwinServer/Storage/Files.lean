-- SUMMARY: The files of the filesystem provider, and `store` with its suspensions, failures and refreshes.
import TwinServer.Base.Simulation
import TwinServer.Storage.Providers

/-!
# Files

`store` of `src/storage/filesystem.ts`, segment by segment. A file exists from the moment it is
opened and grows as it is written; a call that fails, or is never resumed, leaves it as it is. A
call that finds its path taken refreshes the file that is there and does not look at it.
-/

open Js Mqtt Async

namespace Storage

/-! ## A disk -/

/-- A file, which lives on without a name while it is open. Besides what a file system knows it
records what the call that created it was given, when the call began that last set its
modification time, and when a call that stored it last resolved. -/
structure Inode where
  bytes : Bytes
  modified : Int
  data : Bytes
  began : Int
  stored : Option Int := none

structure Disk where
  names : Path → Option Nat
  inodes : List Inode
  clock : Int

namespace Disk

def empty (clock : Int) : Disk := ⟨fun _ => none, [], clock⟩

variable (disk : Disk)

/-- The file at a path. -/
def file (path : Path) : Option Inode := (disk.names path).bind fun n => disk.inodes[n]?

/-- `open(path, "wx")` where no file is. -/
def create (path : Path) (inode : Inode) : Disk :=
  { disk with
    names := Function.update disk.names path (some disk.inodes.length)
    inodes := disk.inodes ++ [inode] }

def modify (n : Nat) (f : Inode → Inode) : Disk := { disk with inodes := disk.inodes.modify n f }

def unlink (path : Path) : Disk := { disk with names := Function.update disk.names path none }

/-- The files as the providers see them. -/
def world : World
  | .file path => (disk.file path).map Inode.bytes
  | .object .. => none

/-- Every name has a file. -/
def Linked : Prop := ∀ path n, disk.names path = some n → n < disk.inodes.length

variable {disk} {path path' : Path} {n : Nat} {inode : Inode}

theorem Linked.exists_file (h : disk.Linked) (hname : disk.names path = some n) :
    ∃ f, disk.inodes[n]? = some f ∧ disk.file path = some f := by
  have hlt := h path n hname
  refine ⟨_, List.getElem?_eq_getElem hlt, ?_⟩
  unfold file
  rw [hname, Option.bind_some, List.getElem?_eq_getElem hlt]

theorem world_file : disk.world (.file path) = (disk.file path).map Inode.bytes := rfl

theorem file_eq_some : disk.file path = some inode ↔
    ∃ n, disk.names path = some n ∧ disk.inodes[n]? = some inode :=
  Option.bind_eq_some_iff

theorem file_create_self : (disk.create path inode).file path = some inode := by
  apply file_eq_some.mpr
  exact ⟨_, Function.update_self _ _ _, List.getElem?_concat_length⟩

theorem file_create_of_ne (h : disk.Linked) (hne : path' ≠ path) :
    (disk.create path inode).file path' = disk.file path' := by
  unfold file create
  dsimp only
  rw [Function.update_of_ne hne]
  cases hname : disk.names path' with
  | none => rfl
  | some n => exact List.getElem?_append_left (h path' n hname)

theorem inodes_create {f : Inode} (hf : disk.inodes[n]? = some f) :
    (disk.create path inode).inodes[n]? = some f := by
  have hlt := (List.getElem?_eq_some_iff.mp hf).1
  exact (List.getElem?_append_left hlt).trans hf

theorem inodes_modify {m : Nat} {g : Inode → Inode} {f : Inode} (hf : disk.inodes[n]? = some f) :
    (disk.modify m g).inodes[n]? = some (if m = n then g f else f) := by
  unfold modify
  dsimp only
  rw [List.getElem?_modify, hf]
  split <;> rfl

theorem file_modify {m : Nat} {g : Inode → Inode} {f : Inode} (hf : disk.file path = some f) :
    (disk.modify m g).file path = some (if disk.names path = some m then g f else f) := by
  obtain ⟨n, hname, hn⟩ := file_eq_some.mp hf
  apply file_eq_some.mpr
  refine ⟨n, hname, (inodes_modify hn).trans (congrArg some ?_)⟩
  simp only [hname, Option.some_inj, eq_comm]

theorem file_of_file_modify {m : Nat} {g : Inode → Inode} {f : Inode}
    (hf : (disk.modify m g).file path = some f) :
    ∃ f₀, disk.file path = some f₀ ∧ f = if disk.names path = some m then g f₀ else f₀ := by
  obtain ⟨n, hname, hn⟩ := file_eq_some.mp hf
  unfold modify at hn
  dsimp only at hn
  rw [List.getElem?_modify] at hn
  obtain ⟨f₀, hf₀, rfl⟩ := Option.map_eq_some_iff.mp hn
  change disk.names path = some n at hname
  refine ⟨f₀, file_eq_some.mpr ⟨n, hname, hf₀⟩, ?_⟩
  simp only [hname, Option.some_inj, eq_comm]

theorem modify_create (g : Inode → Inode) :
    (disk.create path inode).modify disk.inodes.length g = disk.create path (g inode) := by
  have hmodify (l : List Inode) : (l ++ [inode]).modify l.length g = l ++ [g inode] := by
    induction l with
    | nil => rfl
    | cons a l ih => exact congrArg (a :: ·) ih
  unfold create modify
  dsimp only
  rw [hmodify]

theorem Linked.create (h : disk.Linked) : (disk.create path inode).Linked := by
  intro path' m hm
  have hlength : (disk.create path inode).inodes.length = disk.inodes.length + 1 :=
    List.length_append
  by_cases hpath : path' = path
  · have hname : disk.inodes.length = m := by
      rw [hpath] at hm
      exact Option.some.inj ((Function.update_self path _ disk.names).symm.trans hm)
    omega
  · have hold : disk.names path' = some m :=
      (Function.update_of_ne hpath _ disk.names).symm.trans hm
    have hlt := h path' m hold
    omega

theorem Linked.modify (h : disk.Linked) (n : Nat) (g : Inode → Inode) : (disk.modify n g).Linked := by
  intro path' m hm
  unfold Disk.modify
  dsimp only
  rw [List.length_modify]
  exact h path' m hm

theorem names_unlink {m : Nat} (hm : (disk.unlink path).names path' = some m) :
    path' ≠ path ∧ disk.names path' = some m := by
  by_cases hne : path' = path
  · subst hne
    have hnone : (disk.unlink path').names path' = none := by
      simp only [unlink, Function.update_self]
    rw [hnone] at hm
    cases hm
  · exact ⟨hne, (Function.update_of_ne hne _ disk.names).symm.trans hm⟩

theorem names_unlink_of_ne (hne : path' ≠ path) : (disk.unlink path).names path' = disk.names path' :=
  Function.update_of_ne hne _ _

theorem file_unlink_of_ne (hne : path' ≠ path) : (disk.unlink path).file path' = disk.file path' := by
  unfold file
  rw [names_unlink_of_ne hne]
  rfl

theorem Linked.unlink (h : disk.Linked) : (disk.unlink path).Linked :=
  fun path' m hm => h path' m (names_unlink hm).2

/-- Names stay where they are, and every file is followed by one that the relation allows. -/
structure Extends (Q : Inode → Inode → Prop) (disk disk' : Disk) : Prop where
  names : ∀ path n, disk.names path = some n → disk'.names path = some n
  inodes : ∀ (n : Nat) (f : Inode), disk.inodes[n]? = some f →
    ∃ f', disk'.inodes[n]? = some f' ∧ Q f f'

section
variable {Q : Inode → Inode → Prop} {disk' : Disk}

theorem Extends.file (h : Extends Q disk disk') {f : Inode} (hf : disk.file path = some f) :
    ∃ f', disk'.file path = some f' ∧ Q f f' := by
  obtain ⟨n, hname, hn⟩ := file_eq_some.mp hf
  obtain ⟨f', hn', hf'⟩ := h.inodes n f hn
  exact ⟨f', file_eq_some.mpr ⟨n, h.names path n hname, hn'⟩, hf'⟩

theorem extends_clock (hQ : ∀ f, Q f f) (disk : Disk) (clock : Int) :
    Extends Q disk { disk with clock } :=
  ⟨fun _ _ h => h, fun _ f hf => ⟨f, hf, hQ f⟩⟩

theorem extends_refl (hQ : ∀ f, Q f f) (disk : Disk) : Extends Q disk disk :=
  extends_clock hQ disk disk.clock

theorem extends_create (hQ : ∀ f, Q f f) (hname : disk.names path = none) (inode : Inode) :
    Extends Q disk (disk.create path inode) := by
  refine ⟨fun path' n hn => ?_, fun n f hf => ⟨f, inodes_create hf, hQ f⟩⟩
  have hne : path' ≠ path := by
    rintro rfl
    rw [hname] at hn
    cases hn
  exact (Function.update_of_ne hne _ _).trans hn

theorem extends_modify (hQ : ∀ f, Q f f) {g : Inode → Inode}
    (hg : ∀ f : Inode, disk.inodes[n]? = some f → Q f (g f)) : Extends Q disk (disk.modify n g) := by
  refine ⟨fun _ _ h => h, fun m f hf => ⟨_, inodes_modify hf, ?_⟩⟩
  split
  · next hm =>
    subst hm
    exact hg f hf
  · exact hQ f

end

end Disk

/-! ## Store calls -/

inductive StorePhase where
  /-- `await toBuffer(input.data)`. -/
  | reading
  /-- `mkdir` and `open`, up to the answer whether the path is taken. -/
  | opening (path : Path)
  | writing (path : Path) (n : Nat)
  /-- `await utimes(path, now, now)`. -/
  | refreshing (path : Path) (now : Int)
  | refreshed (path : Path)
  | resolved (path : Path) (stored : StoredObject) (clock : Int)
  | rejected

/-- The path of the object, once it is known. -/
def StorePhase.path? : StorePhase → Option Path
  | .reading | .rejected => none
  | .opening path | .writing path _ | .refreshing path _ | .refreshed path | .resolved path _ _ =>
    some path

structure StoreTask where
  input : StoreInput
  started : Int
  phase : StorePhase := .reading

inductive StoreAnswer where
  | read
  | opened
  /-- So many bytes more are written. -/
  | wrote (count : Nat)
  | closed
  | touched
  | done
  /-- What is awaited rejects. -/
  | failed

section
variable [Platform] (config : FilesystemStorageConfig)

namespace StoreTask

/-- What a store returns. -/
def storedObject (input : StoreInput) (path : Path) : StoredObject where
  uri := config.uriFor path
  hash := "sha256:" ++ sha256 input.data
  size := input.data.length
  contentType := input.contentType

variable (disk : Disk) (t : StoreTask)

/-- The call resolves, with what it stored in the file. -/
def resolve (path : Path) (n : Nat) : Disk × StoreTask :=
  (disk.modify n ({ · with stored := some disk.clock }),
    { t with phase := .resolved path (storedObject config t.input path) disk.clock })

@[local grind] def resume : StoreAnswer → Option (Disk × StoreTask)
  | .failed =>
    match t.phase with
    | .resolved .. | .rejected => none
    | _ => some (disk, { t with phase := .rejected })
  | .read =>
    match t.phase with
    | .reading =>
      match config.objectPath t.input with
      | .ok path => some (disk, { t with phase := .opening path })
      | .error _ => some (disk, { t with phase := .rejected })
    | _ => none
  | .opened =>
    match t.phase with
    | .opening path =>
      match disk.names path with
      | none =>
        let inode := { bytes := [], modified := disk.clock, data := t.input.data, began := t.started }
        some (disk.create path inode, { t with phase := .writing path disk.inodes.length })
      | some _ => some (disk, { t with phase := .refreshing path disk.clock })
    | _ => none
  | .wrote count =>
    match t.phase with
    | .writing _ n => some (disk.modify n fun f => { f with
        bytes := t.input.data.take (f.bytes.length + count)
        modified := disk.clock, began := t.started }, t)
    | _ => none
  | .closed =>
    match t.phase with
    | .writing path n =>
      if disk.inodes[n]?.map Inode.bytes = some t.input.data then some (t.resolve config disk path n)
      else none
    | _ => none
  | .touched =>
    match t.phase with
    | .refreshing path now =>
      match disk.names path with
      | some n => some (disk.modify n ({ · with modified := now, began := t.started }),
          { t with phase := .refreshed path })
      | none => some (disk, { t with phase := .rejected })
    | _ => none
  | .done =>
    match t.phase with
    | .refreshed path =>
      match disk.names path with
      | some n => some (t.resolve config disk path n)
      | none => some (disk, { t with
          phase := .resolved path (storedObject config t.input path) disk.clock })
    | _ => none

/-- What a segment can do. -/
inductive Step : StoreAnswer → Disk → StoreTask → Prop where
  | reject {answer} : Step answer disk { t with phase := .rejected }
  | open {path} (hphase : t.phase = .reading) (hpath : config.objectPath t.input = .ok path) :
    Step .read disk { t with phase := .opening path }
  | create {path} (hphase : t.phase = .opening path) (hname : disk.names path = none) :
    Step .opened (disk.create path
      { bytes := [], modified := disk.clock, data := t.input.data, began := t.started })
      { t with phase := .writing path disk.inodes.length }
  | taken {path n} (hphase : t.phase = .opening path) (hname : disk.names path = some n) :
    Step .opened disk { t with phase := .refreshing path disk.clock }
  | write {path n count} (hphase : t.phase = .writing path n) :
    Step (.wrote count) (disk.modify n fun f => { f with
      bytes := t.input.data.take (f.bytes.length + count)
      modified := disk.clock, began := t.started }) t
  | close {path n f} (hphase : t.phase = .writing path n) (hinode : disk.inodes[n]? = some f)
      (hbytes : f.bytes = t.input.data) :
    Step .closed (t.resolve config disk path n).1 (t.resolve config disk path n).2
  | touch {path n now} (hphase : t.phase = .refreshing path now) (hname : disk.names path = some n) :
    Step .touched (disk.modify n ({ · with modified := now, began := t.started }))
      { t with phase := .refreshed path }
  | finish {path n} (hphase : t.phase = .refreshed path) (hname : disk.names path = some n) :
    Step .done (t.resolve config disk path n).1 (t.resolve config disk path n).2
  | lost {path} (hphase : t.phase = .refreshed path) (hname : disk.names path = none) :
    Step .done disk { t with phase := .resolved path (storedObject config t.input path) disk.clock }

variable {config disk t}

theorem step_of_resume {answer : StoreAnswer} {disk' : Disk} {t' : StoreTask}
    (h : t.resume config disk answer = some (disk', t')) : Step config disk t answer disk' t' := by
  unfold resume at h
  cases answer with
  | failed =>
    dsimp only at h
    split at h
    · cases h
    · cases h
    · obtain ⟨rfl, rfl⟩ := Prod.mk.inj (Option.some.inj h)
      exact .reject
  | read =>
    dsimp only at h
    split at h
    · next hphase =>
      split at h
      · next path hpath =>
        obtain ⟨rfl, rfl⟩ := Prod.mk.inj (Option.some.inj h)
        exact .open hphase hpath
      · obtain ⟨rfl, rfl⟩ := Prod.mk.inj (Option.some.inj h)
        exact .reject
    · cases h
  | opened =>
    dsimp only at h
    split at h
    · next path hphase =>
      split at h
      · next hname =>
        obtain ⟨rfl, rfl⟩ := Prod.mk.inj (Option.some.inj h)
        exact .create hphase hname
      · next n hname =>
        obtain ⟨rfl, rfl⟩ := Prod.mk.inj (Option.some.inj h)
        exact .taken hphase hname
    · cases h
  | wrote count =>
    dsimp only at h
    split at h
    · next path n hphase =>
      obtain ⟨rfl, rfl⟩ := Prod.mk.inj (Option.some.inj h)
      exact .write hphase
    · cases h
  | closed =>
    dsimp only at h
    split at h
    · next path n hphase =>
      split at h
      · next hbytes =>
        obtain ⟨f, hinode, hbytes⟩ := Option.map_eq_some_iff.mp hbytes
        obtain ⟨rfl, rfl⟩ := Prod.mk.inj (Option.some.inj h)
        exact .close hphase hinode hbytes
      · cases h
    · cases h
  | touched =>
    dsimp only at h
    split at h
    · next path now hphase =>
      split at h
      · next n hname =>
        obtain ⟨rfl, rfl⟩ := Prod.mk.inj (Option.some.inj h)
        exact .touch hphase hname
      · obtain ⟨rfl, rfl⟩ := Prod.mk.inj (Option.some.inj h)
        exact .reject
    · cases h
  | done =>
    dsimp only at h
    split at h
    · next path hphase =>
      split at h
      · next n hname =>
        obtain ⟨rfl, rfl⟩ := Prod.mk.inj (Option.some.inj h)
        exact .finish hphase hname
      · next hname =>
        obtain ⟨rfl, rfl⟩ := Prod.mk.inj (Option.some.inj h)
        exact .lost hphase hname
    · cases h

end StoreTask

/-! ## Where files are -/

/-- A call works on the path of its input, and returns what belongs there. -/
structure Located (t : StoreTask) : Prop where
  path : ∀ path, t.phase.path? = some path → config.objectPath t.input = .ok path
  stored : ∀ path stored clock, t.phase = .resolved path stored clock →
    stored = StoreTask.storedObject config t.input path

/-- Every name has a file, and every file was created for an input with its path. -/
structure Addressed (p : StoreInput → Bool) (disk : Disk) : Prop where
  linked : disk.Linked
  input : ∀ path f, disk.file path = some f →
    ∃ input, p input ∧ config.objectPath input = .ok path ∧ f.data = input.data

section
variable {config} {p : StoreInput → Bool} {disk disk' : Disk} {t t' : StoreTask} {answer : StoreAnswer}

theorem Located.step (ht : Located config t) (h : t.Step config disk answer disk' t') :
    t'.input = t.input ∧ t'.started = t.started ∧ Located config t' := by
  have hphase {phase : StorePhase} {path : Path} (hphase : t.phase = phase)
      (hpath : phase.path? = some path) : config.objectPath t.input = .ok path := by
    apply ht.path
    rw [hphase, hpath]
  cases h with
  | reject => exact ⟨rfl, rfl, fun _ h => (by cases h), fun _ _ _ h => (by cases h)⟩
  | «open» _ hpath =>
    refine ⟨rfl, rfl, fun path h => ?_, fun _ _ _ h => (by cases h)⟩
    rw [← Option.some.inj h]
    exact hpath
  | create h _ =>
    refine ⟨rfl, rfl, fun path h' => ?_, fun _ _ _ h => (by cases h)⟩
    exact hphase h h'
  | taken h _ =>
    refine ⟨rfl, rfl, fun path h' => ?_, fun _ _ _ h => (by cases h)⟩
    exact hphase h h'
  | write _ => exact ⟨rfl, rfl, ht⟩
  | close h _ _ =>
    refine ⟨rfl, rfl, fun path h' => hphase h h', fun _ _ _ h' => ?_⟩
    obtain ⟨rfl, rfl, -⟩ := StorePhase.resolved.inj h'
    rfl
  | touch h _ =>
    refine ⟨rfl, rfl, fun path h' => ?_, fun _ _ _ h => (by cases h)⟩
    exact hphase h h'
  | finish h _ =>
    refine ⟨rfl, rfl, fun path h' => hphase h h', fun _ _ _ h' => ?_⟩
    obtain ⟨rfl, rfl, -⟩ := StorePhase.resolved.inj h'
    rfl
  | lost h _ =>
    refine ⟨rfl, rfl, fun path h' => hphase h h', fun _ _ _ h' => ?_⟩
    obtain ⟨rfl, rfl, -⟩ := StorePhase.resolved.inj h'
    rfl

theorem Addressed.modify (h : Addressed config p disk) {n : Nat} {g : Inode → Inode}
    (hg : ∀ f, (g f).data = f.data) : Addressed config p (disk.modify n g) := by
  refine ⟨h.linked.modify n g, fun path f hf => ?_⟩
  obtain ⟨f₀, hf₀, rfl⟩ := Disk.file_of_file_modify hf
  obtain ⟨input, hp, hpath, hdata⟩ := h.input path f₀ hf₀
  refine ⟨input, hp, hpath, ?_⟩
  split
  · exact (hg f₀).trans hdata
  · exact hdata

theorem Addressed.create (h : Addressed config p disk) {path : Path} {input : StoreInput}
    {inode : Inode} (hp : p input) (hpath : config.objectPath input = .ok path)
    (hdata : inode.data = input.data) : Addressed config p (disk.create path inode) := by
  refine ⟨h.linked.create, fun path' f hf => ?_⟩
  by_cases hne : path' = path
  · subst hne
    rw [Disk.file_create_self] at hf
    obtain rfl := Option.some.inj hf
    exact ⟨input, hp, hpath, hdata⟩
  · rw [Disk.file_create_of_ne h.linked hne] at hf
    exact h.input path' f hf

theorem Addressed.step (hdisk : Addressed config p disk) (hp : p t.input) (ht : Located config t)
    (h : t.Step config disk answer disk' t') : Addressed config p disk' := by
  cases h with
  | reject => exact hdisk
  | «open» _ _ => exact hdisk
  | create hphase _ =>
    apply hdisk.create hp (ht.path _ _) rfl
    rw [hphase]
    rfl
  | taken _ _ => exact hdisk
  | write _ => exact hdisk.modify fun _ => rfl
  | close _ _ _ => exact hdisk.modify fun _ => rfl
  | touch _ _ => exact hdisk.modify fun _ => rfl
  | finish _ _ => exact hdisk.modify fun _ => rfl
  | lost _ _ => exact hdisk

end

/-- Store calls side by side, while time passes. -/
def stores : Machine Disk StoreTask StoreInput StoreAnswer Nat where
  call disk input := some (disk, { input, started := disk.clock })
  resume disk t answer := t.resume config disk answer
  env disk elapsed := some { disk with clock := disk.clock + elapsed }

/-! ## A call on its own -/

section
variable {config} {disk : Disk} {input : StoreInput} {path : Path}

/-- A call that creates the file of an object. -/
def creating (input : StoreInput) : List StoreAnswer :=
  [.read, .opened, .wrote input.data.length, .closed]

/-- The answered call. -/
def answered (config : FilesystemStorageConfig) (input : StoreInput) (path : Path) (clock : Int) :
    StoreTask where
  input := input
  started := clock
  phase := .resolved path (StoreTask.storedObject config input path) clock

theorem thread_creating (hpath : config.objectPath input = .ok path)
    (hname : disk.names path = none) :
    (stores config).thread disk { input, started := disk.clock } (creating input) =
      some (disk.create path ⟨input.data, disk.clock, input.data, disk.clock, some disk.clock⟩,
        answered config input path disk.clock) := by
  have hinode {inode : Inode} :
      (disk.create path inode).inodes[disk.inodes.length]? = some inode :=
    List.getElem?_concat_length
  have hclock (inode : Inode) : (disk.create path inode).clock = disk.clock := rfl
  simp [creating, Machine.thread, stores, StoreTask.resume, hpath, hname, Disk.modify_create,
    StoreTask.resolve, hinode, hclock, answered]

end

end

end Storage
