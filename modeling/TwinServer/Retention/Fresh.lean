-- SUMMARY: A pass that no store overtakes deletes no fresh object, and leaves what is stored meanwhile.
import TwinServer.Storage.Integrity
import TwinServer.Retention.Objects

/-!
# Retention and fresh objects

A pass deletes by what it listed. Between the listing of an object and its deletion a store may
refresh the file or create it again; nothing looks at the file once more. The condition is that
this does not happen, and that nothing takes as long as a retention period.
-/

open Js Storage Async

namespace Retention

/-! ## The condition -/

/-- A store of the object has set the time of its file and is not answered yet. -/
def OpenAt (path : Path) : Task → Prop
  | .store t => t.phase = .refreshed path ∨ ∃ n, t.phase = .writing path n
  | _ => False

/-- An object is deleted only if no store has set the time of its file since it was listed. If a
store of the object is open, or was answered within the retention period, the call that last set
the time began within the period. So did the pass. -/
def Undisturbed : Guard Server Task Answer := fun s task others answer =>
  ∀ pass object days path rest f, task = .pass pass → pass.phase = .deleting object days path rest →
    answer = .pass .unlinked → s.disk.file path = some f →
      f.modified = object.createdAt ∧
      ((∃ u ∈ others, OpenAt path u) ∨
          (∃ time, f.stored = some time ∧ ¬ Expired s.disk.clock days time) →
        ¬ Expired s.disk.clock days f.began) ∧
      ¬ Expired s.disk.clock days pass.startedAt

/-! ## Files in time -/

/-- A file that was stored stays stored, and is not stored earlier. -/
def Later (f f' : Inode) : Prop :=
  ∀ time, f.stored = some time → ∃ time', f'.stored = some time' ∧ time ≤ time'

theorem later_refl (f : Inode) : Later f f := fun time h => ⟨time, h, Int.le_refl _⟩

/-- The time of a file is not before the call that set it, and no store is in the future. -/
def Timed (clock : Int) (f : Inode) : Prop :=
  f.began ≤ f.modified ∧ ∀ time, f.stored = some time → time ≤ clock

def Timely (disk : Disk) : Prop := ∀ (n : Nat) (f : Inode), disk.inodes[n]? = some f → Timed disk.clock f

section
variable {disk : Disk} {path : Path} {n : Nat}

theorem Timely.create (h : Timely disk) {inode : Inode} (hinode : Timed disk.clock inode) :
    Timely (disk.create path inode) := by
  intro m f hf
  rcases List.mem_append.mp (List.mem_of_getElem? hf) with hmem | hmem
  · obtain ⟨k, hk⟩ := List.mem_iff_getElem?.mp hmem
    exact h k f hk
  · rw [List.mem_singleton.mp hmem]
    exact hinode

theorem Timely.modify (h : Timely disk) {g : Inode → Inode}
    (hg : ∀ f : Inode, disk.inodes[n]? = some f → Timed disk.clock (g f)) :
    Timely (disk.modify n g) := by
  intro m f hf
  unfold Disk.modify at hf
  dsimp only at hf
  rw [List.getElem?_modify] at hf
  obtain ⟨f₀, hf₀, rfl⟩ := Option.map_eq_some_iff.mp hf
  split
  · next hm =>
    subst hm
    exact hg f₀ hf₀
  · exact h m f₀ hf₀

end

/-! ## What every run keeps -/

section
variable [Platform] (config : FilesystemStorageConfig) (p : Request → Bool)

structure Ordered (s : Server) : Prop where
  linked : s.disk.Linked
  timely : Timely s.disk
  running : ∀ time, s.running = some time → time ≤ s.disk.clock

/-- The time from which no object that is stored is lost: when the running pass began. -/
def Server.since (s : Server) : Int := s.running.getD s.disk.clock

omit [Platform] in
theorem Ordered.since_le {s : Server} (h : Ordered s) : s.since ≤ s.disk.clock := by
  unfold Server.since
  cases hrunning : s.running with
  | none => exact Int.le_refl _
  | some time => exact h.running time hrunning

/-- Where the file of a store call is. -/
def Placed (s : Server) (started : Int) : StorePhase → Prop
  | .reading | .opening _ | .rejected => True
  | .writing path n => s.disk.names path = some n
  | .refreshing _ now => started ≤ now
  | .refreshed path => ∃ n, s.disk.names path = some n
  | .resolved path _ clock => clock ≤ s.disk.clock ∧ (s.since ≤ clock →
      ∃ f, s.disk.file path = some f ∧ ∃ time, f.stored = some time ∧ clock ≤ time)

structure Stored (s : Server) (t : StoreTask) : Prop where
  input : p (.store t.input)
  located : Located config t
  started : t.started ≤ s.disk.clock
  placed : Placed s t.started t.phase

omit [Platform] in
/-- What a pass has deleted was not stored within the retention period, and what it is about to
delete had not been when it was listed. -/
structure Careful (s : Server) (pass : Pass) : Prop where
  running : ¬ pass.phase.Over → s.running = some pass.startedAt
  deletions : ∀ d ∈ pass.deletions, ∀ time, d.file.stored = some time → Expired d.clock d.days time
  listed : ∀ object days path rest, pass.phase = .deleting object days path rest →
    Expired s.disk.clock days object.createdAt

def Keeps (s : Server) : Task → Prop
  | .store t => Stored config p s t
  | .pass pass => Careful s pass
  | .joined => True

/-- Only one pass is running. -/
def Apart : Task → Task → Prop
  | .pass p, .pass q => p.phase.Over ∨ q.phase.Over
  | _, _ => True

variable {config p} {s s' : Server}

omit [Platform] in
theorem Placed.mono (s' : Server) {started : Int} {phase : StorePhase} (hdisk : s.disk.Extends Later s'.disk)
    (hclock : s.disk.clock ≤ s'.disk.clock) (hsince : s.since ≤ s'.since)
    (h : Placed s started phase) : Placed s' started phase := by
  cases phase with
  | reading => trivial
  | opening path => trivial
  | rejected => trivial
  | writing path n => exact hdisk.names path n h
  | refreshing path now => exact h
  | refreshed path =>
    obtain ⟨n, hn⟩ := h
    exact ⟨n, hdisk.names path n hn⟩
  | resolved path stored clock =>
    refine ⟨Int.le_trans h.1 hclock, fun hafter => ?_⟩
    obtain ⟨f, hf, time, htime, hle⟩ := h.2 (Int.le_trans hsince hafter)
    obtain ⟨f', hf', hlater⟩ := hdisk.file hf
    obtain ⟨time', htime', hle'⟩ := hlater time htime
    exact ⟨f', hf', time', htime', Int.le_trans hle hle'⟩

theorem Stored.mono (s' : Server) {t : StoreTask} (hdisk : s.disk.Extends Later s'.disk)
    (hclock : s.disk.clock ≤ s'.disk.clock) (hsince : s.since ≤ s'.since)
    (h : Stored config p s t) : Stored config p s' t :=
  ⟨h.input, h.located, Int.le_trans h.started hclock, h.placed.mono s' hdisk hclock hsince⟩

/-! ## A segment of a store -/

omit [Platform] in
theorem timed_of_stored {f : Inode} {clock : Int} (h : Timed clock f) :
    Timed clock { f with stored := some clock } := by
  refine ⟨h.1, fun time htime => ?_⟩
  rw [Option.some.inj htime]

/-- A store call that is answered leaves the file stored now. -/
theorem stored_resolve (config : FilesystemStorageConfig) (t : StoreTask) {path : Path} {n : Nat} (hs : Ordered s)
    (hname : s.disk.names path = some n) :
    s.disk.Extends Later (t.resolve config s.disk path n).1 ∧
      Timely (t.resolve config s.disk path n).1 ∧
      Placed { s with disk := (t.resolve config s.disk path n).1 } t.started
        (t.resolve config s.disk path n).2.phase := by
  obtain ⟨f, hn, hf⟩ := hs.linked.exists_file hname
  refine ⟨?_, ?_, Int.le_refl _, fun _ => ?_⟩
  · refine Disk.extends_modify later_refl fun f₀ hf₀ time htime => ?_
    exact ⟨s.disk.clock, rfl, (hs.timely n f₀ hf₀).2 time htime⟩
  · exact hs.timely.modify fun f₀ hf₀ => timed_of_stored (hs.timely n f₀ hf₀)
  · refine ⟨_, Disk.file_modify hf, s.disk.clock, ?_, Int.le_refl _⟩
    rw [if_pos hname]

theorem placed_step {t t' : StoreTask} {answer : StoreAnswer} {disk' : Disk} (hs : Ordered s)
    (hstarted : t.started ≤ s.disk.clock) (ht : Placed s t.started t.phase)
    (h : t.Step config s.disk answer disk' t') :
    s.disk.Extends Later disk' ∧ disk'.Linked ∧ Timely disk' ∧ disk'.clock = s.disk.clock ∧
      Placed { s with disk := disk' } t'.started t'.phase := by
  have hrefl := Disk.extends_refl later_refl s.disk
  cases h with
  | reject => exact ⟨hrefl, hs.linked, hs.timely, rfl, trivial⟩
  | «open» _ _ => exact ⟨hrefl, hs.linked, hs.timely, rfl, trivial⟩
  | create _ hname =>
    refine ⟨Disk.extends_create later_refl hname _, hs.linked.create, ?_, rfl, ?_⟩
    · exact hs.timely.create ⟨hstarted, fun _ h => (by cases h)⟩
    · exact Function.update_self _ _ _
  | taken _ _ => exact ⟨hrefl, hs.linked, hs.timely, rfl, hstarted⟩
  | @write path n count hphase =>
    have hextends : s.disk.Extends Later (s.disk.modify n fun f => { f with
        bytes := t.input.data.take (f.bytes.length + count)
        modified := s.disk.clock, began := t.started }) :=
      Disk.extends_modify later_refl fun f _ => later_refl f
    refine ⟨hextends, hs.linked.modify _ _, ?_, rfl, ?_⟩
    · exact hs.timely.modify fun f hf => ⟨hstarted, (hs.timely n f hf).2⟩
    · exact ht.mono { s with disk := _ } hextends (Int.le_refl _) (Int.le_refl _)
  | @close path n f hphase _ _ =>
    rw [hphase] at ht
    obtain ⟨hextends, htimely, hplaced⟩ := stored_resolve config t hs ht
    exact ⟨hextends, hs.linked.modify _ _, htimely, rfl, hplaced⟩
  | @touch path n now hphase hname =>
    rw [hphase] at ht
    refine ⟨Disk.extends_modify later_refl fun f _ => later_refl f, hs.linked.modify _ _, ?_, rfl,
      n, hname⟩
    exact hs.timely.modify fun f hf => ⟨ht, (hs.timely n f hf).2⟩
  | @finish path n _ hname =>
    obtain ⟨hextends, htimely, hplaced⟩ := stored_resolve config t hs hname
    exact ⟨hextends, hs.linked.modify _ _, htimely, rfl, hplaced⟩
  | @lost path hphase hname =>
    rw [hphase] at ht
    obtain ⟨n, hn⟩ := ht
    rw [hname] at hn
    cases hn

/-! ## A deletion -/

omit [Platform] in
/-- What is deleted was not stored within the retention period, and no store of it is open. -/
theorem deletion_expired {pass : Pass} {object : ManagedStoredObject} {days : Dyadic} {path : Path}
    {rest : List ManagedStoredObject} {f : Inode} {others : List Task} (hs : Ordered s)
    (hpass : Careful s pass) (hphase : pass.phase = .deleting object days path rest)
    (hguard : Undisturbed s (.pass pass) others (.pass .unlinked)) (hf : s.disk.file path = some f) :
    (∀ u ∈ others, ¬ OpenAt path u) ∧
      (∀ time, f.stored = some time → Expired s.disk.clock days time) ∧
      ¬ Expired s.disk.clock days s.since := by
  obtain ⟨hlisted, hrecent, hbegan⟩ := hguard pass object days path rest f rfl hphase rfl hf
  -- the time of the file is the one that was listed, and so the last call is as old
  have hlast : Expired s.disk.clock days f.began := by
    obtain ⟨n, -, hn⟩ := Disk.file_eq_some.mp hf
    have hle := (hs.timely n f hn).1
    exact (hpass.listed object days path rest hphase).mono (Int.le_refl _) (hlisted ▸ hle)
  refine ⟨fun u hu hopen => hrecent (.inl ⟨u, hu, hopen⟩) hlast, fun time htime => ?_, ?_⟩
  · apply not_not.mp
    intro hnot
    exact hrecent (.inr ⟨time, htime, hnot⟩) hlast
  · have hrunning : s.running = some pass.startedAt := hpass.running (by rw [hphase]; exact id)
    have hsince : s.since = pass.startedAt := by
      unfold Server.since
      rw [hrunning]
      rfl
    rw [hsince]
    exact hbegan

theorem Stored.unlink {path : Path} {days : Dyadic} {t : StoreTask} (h : Stored config p s t)
    (hexpired : ∀ f, s.disk.file path = some f → ¬ OpenAt path (.store t) ∧
      (∀ time, f.stored = some time → Expired s.disk.clock days time) ∧
      ¬ Expired s.disk.clock days s.since)
    (hlinked : s.disk.Linked) : Stored config p { s with disk := s.disk.unlink path } t := by
  refine ⟨h.input, h.located, h.started, ?_⟩
  have hplaced := h.placed
  have hopen {path' : Path} {n : Nat} (hname : s.disk.names path' = some n)
      (hphase : OpenAt path' (.store t)) : (s.disk.unlink path).names path' = some n := by
    rw [Disk.names_unlink_of_ne ?_, hname]
    rintro rfl
    obtain ⟨f, -, hf⟩ := hlinked.exists_file hname
    exact (hexpired f hf).1 hphase
  cases hphase : t.phase with
  | reading => trivial
  | opening path => trivial
  | rejected => trivial
  | refreshing path now =>
    rw [hphase] at hplaced
    exact hplaced
  | writing path n =>
    rw [hphase] at hplaced
    exact hopen hplaced (.inr ⟨n, hphase⟩)
  | refreshed path =>
    rw [hphase] at hplaced
    obtain ⟨n, hn⟩ := hplaced
    exact ⟨n, hopen hn (.inl hphase)⟩
  | resolved path' stored clock =>
    rw [hphase] at hplaced
    refine ⟨hplaced.1, fun hafter => ?_⟩
    obtain ⟨f, hf, time, htime, hle⟩ := hplaced.2 hafter
    refine ⟨f, ?_, time, htime, hle⟩
    rw [Disk.file_unlink_of_ne ?_, hf]
    -- the object was stored since the pass began, which is within the period
    rintro rfl
    obtain ⟨-, hstored, hsince⟩ := hexpired f hf
    exact hsince ((hstored time htime).mono (Int.le_refl _) (Int.le_trans hafter hle))

/-! ## Every segment -/

omit [Platform] in
theorem apart_symm {t u : Task} (h : Apart t u) : Apart u t := by
  unfold Apart at h ⊢
  cases t with
  | store t => cases u <;> trivial
  | joined => cases u <;> trivial
  | pass p =>
    cases u with
    | store t => trivial
    | joined => trivial
    | pass q => exact h.symm

omit [Platform] in
theorem Careful.follows {pass pass' : Pass} (h : Careful s pass) (hfollows : Pass.Follows pass pass')
    (hphase : ¬ pass.phase.Over)
    (hlisted : ∀ object days path rest, pass'.phase = .deleting object days path rest →
      Expired s.disk.clock days object.createdAt) : Careful s pass' := by
  refine ⟨fun _ => ?_, ?_, hlisted⟩
  · rw [hfollows.1]
    exact h.running hphase
  · rw [hfollows.2]
    exact h.deletions

/-- What a segment of a pass keeps, with the other tasks. -/
theorem keeps_pass {pass pass' : Pass} {answer : PassAnswer} {others : List Task} (hs : Ordered s)
    (hpass : Careful s pass) (hothers : ∀ u ∈ others, Keeps config p s u ∧ Apart (.pass pass) u)
    (hguard : Undisturbed s (.pass pass) others (.pass answer)) (h : pass.Step s answer s' pass') :
    Ordered s' ∧ Careful s' pass' ∧ ∀ u ∈ others, Keeps config p s' u ∧ Apart (.pass pass') u := by
  have hrunning (hphase : ¬ pass.phase.Over) {u : Pass} (hu : Task.pass u ∈ others) : u.phase.Over :=
    (hothers _ hu).2.resolve_left hphase
  have hapart (hphase : ¬ pass.phase.Over) : ∀ u ∈ others, Apart (.pass pass') u := by
    intro u hu
    cases u with
    | store t => trivial
    | joined => trivial
    | pass q => exact .inr (hrunning hphase hu)
  cases h with
  | wait hphase hfollows hwaits =>
    refine ⟨hs, hpass.follows hfollows hphase fun _ _ _ _ h => ?_, fun u hu =>
      ⟨(hothers u hu).1, hapart hphase u hu⟩⟩
    rw [h] at hwaits
    exact hwaits.elim
  | choose hphase hfollows hphase' hexpired =>
    refine ⟨hs, hpass.follows hfollows hphase fun _ _ _ _ h => ?_, fun u hu =>
      ⟨(hothers u hu).1, hapart hphase u hu⟩⟩
    obtain ⟨rfl, rfl, -⟩ := PassPhase.deleting.inj (hphase'.symm.trans h)
    exact hexpired
  | @unlink object days path rest _ hphase hfollows hwaits =>
    have hover : ¬ pass.phase.Over := by
      rw [hphase]
      exact id
    have hdeleted := fun f hf => deletion_expired hs hpass hphase hguard (f := f) hf
    refine ⟨⟨hs.linked.unlink, hs.timely, hs.running⟩, ⟨fun _ => ?_, ?_, ?_⟩, fun u hu =>
      ⟨?_, hapart hover u hu⟩⟩
    · rw [hfollows.1]
      exact hpass.running hover
    · rw [hfollows.2]
      unfold Pass.recordDeletion
      dsimp only
      cases hf : s.disk.file path with
      | none => exact hpass.deletions
      | some f =>
        intro d hd
        rcases List.mem_append.mp hd with hd | hd
        · exact hpass.deletions d hd
        · obtain rfl := List.mem_singleton.mp hd
          exact (hdeleted f hf).2.1
    · intro _ _ _ _ h
      rw [h] at hwaits
      exact hwaits.elim
    · have hu' := (hothers u hu).1
      cases u with
      | joined => trivial
      | store t =>
        exact Stored.unlink hu' (fun f hf => ⟨(hdeleted f hf).1 _ hu, (hdeleted f hf).2⟩) hs.linked
      | pass q => exact ⟨hu'.running, hu'.deletions, hu'.listed⟩
  | @finish _ _ lastRun hphase hfollows hover =>
    refine ⟨⟨hs.linked, hs.timely, fun _ h => (by cases h)⟩, ⟨fun h => absurd hover h, ?_, ?_⟩,
      fun u hu => ⟨?_, hapart hphase u hu⟩⟩
    · rw [hfollows.2]
      exact hpass.deletions
    · intro _ _ _ _ h
      rw [h] at hover
      exact hover.elim
    · have hu' := (hothers u hu).1
      cases u with
      | joined => trivial
      | store t =>
        exact Stored.mono { s with running := none, lastRun }
          (Disk.extends_refl later_refl s.disk) (Int.le_refl _) hs.since_le hu'
      | pass q => exact ⟨fun h => absurd (hrunning hphase hu) h, hu'.deletions, hu'.listed⟩

theorem keeps (config : FilesystemStorageConfig) (maxDeletesPerRun : Nat) (p : Request → Bool) :
    Modular ((retention config maxDeletesPerRun).only p) Undisturbed Ordered (Keeps config p)
      Apart where
  symm := apart_symm
  call := by
    intro s request s' t hs hcall
    unfold Machine.only retention at hcall
    dsimp only at hcall
    split at hcall
    · next hp =>
      cases request with
      | store input =>
        obtain ⟨rfl, rfl⟩ := Prod.mk.inj (Option.some.inj hcall)
        refine ⟨hs, ⟨hp, ⟨fun _ h => (by cases h), fun _ _ _ h => (by cases h)⟩, Int.le_refl _,
          trivial⟩, fun u hu => ⟨hu, ?_⟩⟩
        cases u <;> trivial
      | run =>
        dsimp only at hcall
        split at hcall
        · obtain ⟨rfl, rfl⟩ := Prod.mk.inj (Option.some.inj hcall)
          refine ⟨hs, trivial, fun u hu => ⟨hu, ?_⟩⟩
          cases u <;> trivial
        · next hnone =>
          obtain ⟨rfl, rfl⟩ := Prod.mk.inj (Option.some.inj hcall)
          have hsince : s.since = s.disk.clock := by
            unfold Server.since
            rw [hnone]
            rfl
          refine ⟨⟨hs.linked, hs.timely, fun _ h => (Option.some.inj h).symm.le⟩,
            ⟨fun _ => rfl, fun _ h => absurd h List.not_mem_nil, fun _ _ _ _ h => (by cases h)⟩,
            fun u hu => ?_⟩
          cases u with
          | joined => exact ⟨trivial, trivial⟩
          | store t =>
            exact ⟨Stored.mono { s with running := some s.disk.clock }
              (Disk.extends_refl later_refl s.disk) (Int.le_refl _) hsince.le hu, trivial⟩
          | pass q =>
            -- nothing is running when a pass begins
            have hover : q.phase.Over := by
              apply not_not.mp
              intro hnot
              have hrunning := hu.running hnot
              rw [hnone] at hrunning
              cases hrunning
            exact ⟨⟨fun h => absurd hover h, hu.deletions, hu.listed⟩, .inr hover⟩
    · cases hcall
  resume := by
    intro s t answer s' t' others hs ht hothers hguard hresume
    unfold Machine.only retention at hresume
    dsimp only at hresume
    split at hresume
    · next t answer =>
      obtain ⟨⟨disk', t'⟩, hsegment, h⟩ := Option.map_eq_some_iff.mp hresume
      obtain ⟨rfl, rfl⟩ := Prod.mk.inj h
      have hstep := StoreTask.step_of_resume hsegment
      obtain ⟨hinput, hstarted, hlocated⟩ := ht.located.step hstep
      obtain ⟨hextends, hlinked, htimely, hclock, hplaced⟩ :=
        placed_step hs ht.started ht.placed hstep
      refine ⟨⟨hlinked, htimely, fun time h => ?_⟩, ⟨?_, hlocated, ?_, hplaced⟩, fun u hu => ⟨?_, ?_⟩⟩
      · rw [hclock]
        exact hs.running time h
      · rw [hinput]
        exact ht.input
      · rw [hstarted, hclock]
        exact ht.started
      · have hu' := (hothers u hu).1
        cases u with
        | joined => trivial
        | store u =>
          have hsince : s.since = ({ s with disk := disk' } : Server).since := by
            unfold Server.since
            rw [hclock]
          exact Stored.mono { s with disk := disk' } hextends hclock.symm.le hsince.le hu'
        | pass q =>
          refine ⟨hu'.running, hu'.deletions, ?_⟩
          rw [hclock]
          exact hu'.listed
      · cases u <;> trivial
    · next pass answer =>
      obtain ⟨⟨s', pass'⟩, hsegment, h⟩ := Option.map_eq_some_iff.mp hresume
      obtain ⟨rfl, rfl⟩ := Prod.mk.inj h
      exact keeps_pass hs ht hothers hguard (Pass.step_of_resume hsegment)
    · cases hresume
  env := by
    intro s elapsed s' hs henv
    obtain rfl := Option.some.inj henv
    have hclock : s.disk.clock ≤ s.disk.clock + elapsed := by omega
    refine ⟨⟨hs.linked, fun n f hf => ?_, fun time h => Int.le_trans (hs.running time h) hclock⟩,
      fun u hu => ?_⟩
    · have htimed := hs.timely n f hf
      exact ⟨htimed.1, fun time h => Int.le_trans (htimed.2 time h) hclock⟩
    · cases u with
      | joined => trivial
      | store t =>
        refine Stored.mono { s with disk := { s.disk with clock := _ } }
          (Disk.extends_clock later_refl s.disk _) hclock ?_ hu
        unfold Server.since
        cases s.running with
        | none => exact hclock
        | some time => exact Int.le_refl _
      | pass q =>
        refine ⟨hu.running, hu.deletions, fun object days path rest h => ?_⟩
        exact (hu.listed object days path rest h).mono hclock (Int.le_refl _)

/-! ## Fresh objects -/

/-- The object is read at the URI that its store returned. -/
def Readable (config : FilesystemStorageConfig) (s : Server) (stored : StoredObject) : Prop :=
  ∃ bytes, (StorageProvider.filesystem config).read stored.uri s.disk.world = .ok bytes

section
variable (config : FilesystemStorageConfig) (input : StoreInput) (path : Path)

/-- Two days. -/
def elapsed : Nat := 172800000

/-- A pass that finds one object and asks for its owner, whose policy is one day. -/
def choosing : List Answer :=
  [.pass (.found path), .pass .listed, .pass (.owned (some "did:iota:owner")), .pass (.days (some 1))]

/-- An object is stored, and two days later a pass decides to delete it. -/
def decided : List (Event Request Answer Nat) :=
  Event.alone 0 (.store input) ((creating input).map .store) ++
    .env elapsed :: Event.alone 1 .run (choosing path)

def chosen (twinId category : String) : ManagedStoredObject where
  uri := config.uriFor path
  twinId := twinId
  category := category
  createdAt := 0

/-- An object of a Twin. -/
structure OfTwin (twinId category : String) : Prop where
  path : ∃ name, path = config.root ++ ["twins", twinId, category, name]
  twinId : twinId ≠ "unscoped"
  category : category ≠ "plants"

variable {config input path} {twinId category : String} {s : Server}

theorem OfTwin.managedObject (h : OfTwin config path twinId category) (disk : Disk) :
    managedObject config disk path = (disk.file path).map fun f =>
      { uri := config.uriFor path, twinId, category, createdAt := f.modified } := by
  obtain ⟨name, hpath⟩ := h.path
  unfold Retention.managedObject
  rw [hpath, if_pos (List.isPrefixOf_iff_prefix.mpr (List.prefix_append _ _)), List.drop_left]
  exact if_neg h.twinId

end

end

/-! ## A data set of a Twin -/

end Retention
