-- SUMMARY: Updates of one Twin take effect one after the other, and the file denies everybody between the two commits of each.
import TwinServer.Sharing.Update

/-!
# The order of updates

What holds in every run of updates, whatever fails on the way: a revision is used up
by the first update that commits under it, the file of a Twin denies everybody from
the first commit of an update to its second, and every policy that is committed can
be read back.
-/

open Js Js.Json Async

namespace Sharing

/-! ## Plans -/

section
variable [Runtime] {o : SharingOptions}

theorem draft_eq_ok {fields input : Json} {uuid : String} {d : Draft}
    (h : draft o fields input uuid = .ok d) : d.revision = uuid := by
  simp only [draft] at h
  split at h
  case h_1 =>
    split at h
    · cases h
    split at h
    case h_1 =>
      split at h
      · cases h
      obtain ⟨dids, -, h⟩ := Except.bind_eq_ok.mp h
      split at h
      · cases h
      obtain ⟨owner, -, h⟩ := Except.bind_eq_ok.mp h
      obtain rfl := Except.ok.inj h
      rfl
    case h_2 => cases h
  case h_2 => cases h

/-- The storage access of a plan is granted to DIDs with access. -/
def Plan.Allowed (p : Plan) : Prop := ∀ did ∈ p.storageDids, did ∈ p.allowedDids

/-- A plan is made for the policy whose revision the request presents. -/
theorem plan_eq_ok {input : Json} {content : Option Json} {d : Draft} {p : Plan}
    (h : plan o input content d = .ok p) :
    p.toDraft = d ∧ p.Allowed ∧ ∃ current, stored content = .ok current ∧
      (input.get? "revision").any (·.strictEq (currentRevision current)) := by
  simp only [plan] at h
  obtain ⟨current, hcurrent, h⟩ := Except.bind_eq_ok.mp h
  split at h
  · cases h
  rename_i hrevision
  split at h
  case h_1 => cases h
  case h_2 =>
    split at h
    · cases h
    obtain ⟨dids, -, h⟩ := Except.bind_eq_ok.mp h
    split at h
    · cases h
    rename_i hall
    obtain ⟨m, -, h⟩ := Except.bind_eq_ok.mp h
    obtain rfl := Except.ok.inj h
    refine ⟨rfl, fun did hdid => ?_, current, hcurrent, by simpa using hrevision⟩
    simp only [Bool.not_eq_true', Bool.not_eq_false, List.all_eq_true] at hall
    simpa using hall did hdid

end

theorem includes_map {dids : List String} {did : String} (h : did ∈ dids) :
    includes (dids.map .string) did := by
  refine List.any_eq_true.mpr ⟨.string did, List.mem_map_of_mem h, ?_⟩
  simp [strictEq]

/-- Both policies of a plan are well formed. -/
theorem Plan.Allowed.wellFormed {p : Plan} (h : p.Allowed) (stage : Stage) :
    (p.policy stage).WellFormed := by
  cases stage with
  | pending => exact ⟨fun dids hdids => (by cases hdids), fun _ => ⟨rfl, rfl⟩⟩
  | final digest =>
    refine ⟨fun dids hdids did hdid => ?_, fun hmode => ?_⟩
    · obtain rfl := Option.some.inj hdids
      simp only [Plan.policy]
      split at hdid
      case isTrue hmode =>
        rw [if_pos hmode]
        exact includes_map (h did hdid)
      case isFalse => cases hdid
    · have hmode' : ¬ (p.mode == .restricted) = true := by simpa [Plan.policy] using hmode
      simp only [Plan.policy, if_neg hmode', Option.getD_some, and_self]

/-! ## Revisions and files -/

variable {s : UpdateState} {j : Job} {policy : StoredPolicy}

theorem files_commit (s : UpdateState) (j : Job) (policy : StoredPolicy) (id : String) :
    (s.commit j policy).files.get? id =
      if id = j.id then some policy.encode else s.files.get? id :=
  Record.get?_set s.files j.id policy.encode id

theorem revision_of_file {id : String} (h : policy.WellFormed)
    (hfile : s.files.get? id = some policy.encode) {r : String}
    (hr : policy.revision = some (.string r)) : s.revision id = .string r := by
  simp only [UpdateState.revision, hfile, stored_encode h, currentRevision, Option.bind_some, hr,
    coalesce, Option.getD_some]

theorem policy_revision (p : Plan) (stage : Stage) :
    (p.policy stage).revision = some (.string p.revision) := by
  cases stage <;> rfl

/-! ## The invariant -/

structure UpdateState.Sound (s : UpdateState) : Prop where
  queues : s.queues.Valid
  known : ∀ id r, s.revision id = .string r → r ∈ s.issued
  commits : ∀ c ∈ s.commits, c.policy.WellFormed

/-- The file of the Twin denies everybody. -/
def UpdateState.Shut (s : UpdateState) (id : String) : Prop :=
  ∃ policy : StoredPolicy, policy.WellFormed ∧ policy.pending ∧
    s.files.get? id = some policy.encode

/-- A later update of the same Twin has made its second commit. -/
def UpdateState.Reopened (s : UpdateState) (j : Job) : Prop :=
  ∃ c ∈ s.commits, c.id = j.id ∧ j.number < c.job ∧ c.policy.pending = false

/-- The file has moved on from the revision the request presents, and will not come back
to it. -/
structure Job.Spent (s : UpdateState) (j : Job) : Prop where
  moved : ∃ r, s.revision j.id = .string r ∧ j.presented ≠ some (.string r)
  known : ∀ r, j.presented = some (.string r) → r ∈ s.issued

/-- The file has the revision the request presents. -/
def Job.Current (s : UpdateState) (j : Job) : Prop :=
  j.presented.any (·.strictEq (s.revision j.id))

/-- The revision that was drawn is not yet in the file. -/
def Draft.Fresh (s : UpdateState) (j : Job) (d : Draft) : Prop :=
  d.revision ∈ s.issued ∧ s.revision j.id ≠ .string d.revision

/-- Where the job stands in its queue. -/
def Phase.Placed (q : Queues) (j : Job) : Phase → Prop
  | .queued prev => q.Waiting j.id j.number prev
  | .settled _ _ | .returned _ _ => q.Of j.id j.number ∧ j.number ∈ q.settled
  | _ => q.Running j.id j.number

/-- What holds of the file between the two commits of a job. -/
structure Plan.Between (s : UpdateState) (j : Job) (p : Plan) : Prop where
  allowed : p.Allowed
  file : s.files.get? j.id = some (p.policy .pending).encode
  spent : j.Spent s

/-- What holds of the file after a job that has settled. -/
structure Progress.After (s : UpdateState) (j : Job) (progress : Progress) : Prop where
  spent : progress ≠ .untouched → j.Spent s
  shut : progress = .closed → s.Shut j.id ∨ s.Reopened j

/-- What a job may rely on of the files. -/
def Phase.Backed (s : UpdateState) (j : Job) : Phase → Prop
  | .queued _ | .managing | .checking _ => True
  | .reading d => d.Fresh s j
  | .read d content => d.Fresh s j ∧ content = s.files.get? j.id
  | .opening .pending p | .moving .pending p => p.toDraft.Fresh s j ∧ p.Allowed ∧ j.Current s
  | .renamed .pending p | .mutating p _ | .opening (.final _) p | .moving (.final _) p =>
    p.Between s j
  | .renamed (.final _) _ => j.Spent s
  | .settled progress result | .returned progress result =>
    progress.After s j ∧ ∀ r, result = .ok r → progress = .opened

def UpdateTask.Backed (s : UpdateState) (t : UpdateTask) : Prop :=
  t.phase.Placed s.queues t.job ∧ t.phase.Backed s t.job

/-- The draft of a job that has not settled. -/
def Phase.draft? : Phase → Option Draft
  | .reading d | .read d _ => some d
  | .opening _ p | .moving _ p | .renamed _ p | .mutating p _ => some p.toDraft
  | _ => none

/-- The job has made its first commit. -/
def UpdateTask.touched (t : UpdateTask) : Prop := t.phase.progress ≠ .untouched

/-- The first job has committed, and the revision its request presents is not the one
that the second has drawn. -/
def UpdateTask.Behind (t u : UpdateTask) : Prop :=
  t.touched → ∀ d, u.phase.draft? = some d → t.job.presented ≠ some (.string d.revision)

structure UpdateTask.Distinct (t u : UpdateTask) : Prop where
  number : t.job.number ≠ u.job.number
  behind : t.job.id = u.job.id → t.Behind u ∧ u.Behind t
  presented : t.job.id = u.job.id → t.touched → u.touched → t.job.presented ≠ u.job.presented

theorem UpdateTask.Distinct.symm {t u : UpdateTask} (h : t.Distinct u) : u.Distinct t where
  number := h.number.symm
  behind heq := (h.behind heq.symm).symm
  presented heq hu ht := (h.presented heq.symm ht hu).symm

/-! ## What other jobs keep -/

variable {q : Queues} {phase : Phase}

theorem Phase.Placed.enqueue (h : phase.Placed q j) (key : String) :
    phase.Placed (q.enqueue key) j := by
  cases phase with
  | queued prev => exact Queues.Waiting.enqueue h key
  | settled | returned => exact ⟨Queues.of_enqueue.mpr (.inl h.1), h.2⟩
  | _ => exact Queues.Running.enqueue h key

theorem Phase.Placed.settle (h : phase.Placed q j) {job : Nat} (hne : j.number ≠ job) :
    phase.Placed (q.settle job) j := by
  cases phase with
  | queued prev => exact Queues.Waiting.settle h hne
  | settled | returned => exact ⟨h.1, List.mem_cons_of_mem _ h.2⟩
  | _ => exact Queues.Running.settle h hne

theorem Phase.Placed.release (h : phase.Placed q j) (key : String) (job : Nat) :
    phase.Placed (q.release key job) j := by
  cases phase with
  | queued prev => exact Queues.Waiting.release h key job
  | settled | returned =>
    obtain ⟨hkeys, hsettled⟩ := Queues.release_eq q key job
    refine ⟨?_, ?_⟩
    · rw [Queues.Of, hkeys]
      exact h.1
    · rw [hsettled]
      exact h.2
  | _ => exact Queues.Running.release h key job

theorem Phase.Placed.of (h : phase.Placed q j) : q.Of j.id j.number := by
  cases phase with
  | queued prev => exact Queues.Waiting.of h
  | settled | returned => exact h.1
  | _ => exact Queues.Running.of h

theorem Phase.Placed.running (h : phase.Placed q j) (hrunning : phase.running) :
    q.Running j.id j.number := by
  cases phase with
  | queued | settled | returned => cases hrunning
  | _ => exact h

/-- What a job relies on holds as long as the file of its Twin is left alone. -/
theorem Phase.Backed.mono {s' : UpdateState} (h : phase.Backed s j)
    (hfiles : s'.files.get? j.id = s.files.get? j.id) (hissued : s.issued ⊆ s'.issued)
    (hcommits : s.commits ⊆ s'.commits) : phase.Backed s' j := by
  have hrevision : s'.revision j.id = s.revision j.id := by
    simp only [UpdateState.revision, hfiles]
  have hfresh : ∀ d : Draft, d.Fresh s j → d.Fresh s' j := by
    rintro d ⟨hmem, hd⟩
    refine ⟨hissued hmem, ?_⟩
    rwa [hrevision]
  have hspent : j.Spent s → j.Spent s' := by
    rintro ⟨⟨r, hr, hne⟩, hknown⟩
    exact ⟨⟨r, hrevision.trans hr, hne⟩, fun x hx => hissued (hknown x hx)⟩
  have hcurrent : j.Current s → j.Current s' := by
    intro hc
    rwa [Job.Current, hrevision]
  have hbetween : ∀ p : Plan, p.Between s j → p.Between s' j := fun p hp =>
    ⟨hp.allowed, hfiles.trans hp.file, hspent hp.spent⟩
  have hafter : ∀ progress : Progress, progress.After s j → progress.After s' j := by
    rintro progress ⟨hs, hshut⟩
    refine ⟨fun hp => hspent (hs hp), fun hp => ?_⟩
    rcases hshut hp with ⟨policy, hwell, hpending, hfile⟩ | ⟨c, hc, hrest⟩
    · exact .inl ⟨policy, hwell, hpending, hfiles.trans hfile⟩
    · exact .inr ⟨c, hcommits hc, hrest⟩
  cases phase with
  | reading d => exact hfresh d h
  | read d content => exact ⟨hfresh d h.1, h.2.trans hfiles.symm⟩
  | opening stage p =>
    cases stage with
    | pending => exact ⟨hfresh _ h.1, h.2.1, hcurrent h.2.2⟩
    | final => exact hbetween p h
  | moving stage p =>
    cases stage with
    | pending => exact ⟨hfresh _ h.1, h.2.1, hcurrent h.2.2⟩
    | final => exact hbetween p h
  | renamed stage p =>
    cases stage with
    | pending => exact hbetween p h
    | final => exact hspent h
  | mutating p m => exact hbetween p h
  | settled progress | returned progress => exact ⟨hafter progress h.1, h.2⟩
  | queued | managing | checking => trivial

/-- A commit for the Twin leaves what a job relies on that is not running. -/
theorem Phase.Backed.commit_self (h : phase.Backed s j) (hrunning : phase.running = false)
    {j' : Job} (hid : j.id = j'.id) {p : Plan} (hallowed : p.Allowed) (stage : Stage)
    (hbehind : phase.progress ≠ .untouched → j.presented ≠ some (.string p.revision))
    (hlater : phase.progress ≠ .untouched → j.number < j'.number) :
    phase.Backed (s.commit j' (p.policy stage)) j := by
  have hfile : (s.commit j' (p.policy stage)).files.get? j.id = some (p.policy stage).encode := by
    rw [files_commit, if_pos hid]
  have hrevision := revision_of_file (hallowed.wellFormed stage) hfile (policy_revision p stage)
  have hafter : ∀ progress : Progress, progress.After s j → (progress ≠ .untouched →
      j.presented ≠ some (.string p.revision) ∧ j.number < j'.number) →
      progress.After (s.commit j' (p.policy stage)) j := by
    intro progress hold hprogress
    refine ⟨fun hp => ⟨⟨_, hrevision, (hprogress hp).1⟩, (hold.spent hp).known⟩, fun hp => ?_⟩
    cases stage with
    | pending => exact .inl ⟨_, hallowed.wellFormed .pending, rfl, hfile⟩
    | final digest =>
      have hne : progress ≠ .untouched := by
        rintro rfl
        cases hp
      refine .inr ⟨_, List.mem_append_right _ (List.mem_singleton_self _), hid.symm, ?_, rfl⟩
      exact (hprogress hne).2
  cases phase with
  | queued => trivial
  | settled progress result | returned progress result =>
    exact ⟨hafter progress h.1 fun hp => ⟨hbehind hp, hlater hp⟩, h.2⟩
  | managing | checking | reading | read | opening | moving | renamed | mutating =>
    cases hrunning

/-! ## What the segments keep -/

theorem UpdateState.Sound.issue (h : s.Sound) (uuid : String) :
    UpdateState.Sound { s with issued := uuid :: s.issued } where
  queues := h.queues
  known id r hr := List.mem_cons_of_mem _ (h.known id r hr)
  commits := h.commits

theorem UpdateState.Sound.withQueues (h : s.Sound) {q : Queues} (hq : q.Valid) :
    UpdateState.Sound { s with queues := q } where
  queues := hq
  known := h.known
  commits := h.commits

theorem UpdateState.Sound.commit (h : s.Sound) {p : Plan} (hallowed : p.Allowed)
    (hissued : p.revision ∈ s.issued) (j : Job) (stage : Stage) :
    (s.commit j (p.policy stage)).Sound where
  queues := h.queues
  known id r hr := by
    rcases Decidable.em (id = j.id) with rfl | hne
    · have hfile : (s.commit j (p.policy stage)).files.get? j.id = some (p.policy stage).encode := by
        rw [files_commit, if_pos rfl]
      rw [revision_of_file (hallowed.wellFormed stage) hfile (policy_revision p stage)] at hr
      obtain rfl := Json.string.inj hr
      exact hissued
    · refine h.known id r ?_
      have hfile : (s.commit j (p.policy stage)).files.get? id = s.files.get? id := by
        rw [files_commit, if_neg hne]
      simpa only [UpdateState.revision, hfile] using hr
  commits c hc := by
    rcases List.mem_append.mp hc with hc | hc
    · exact h.commits c hc
    · obtain rfl := List.mem_singleton.mp hc
      exact hallowed.wellFormed stage

theorem Plan.Between.revision {p : Plan} (h : p.Between s j) :
    s.revision j.id = .string p.revision :=
  revision_of_file (h.allowed.wellFormed .pending) h.file (policy_revision p .pending)

/-- A running job leaves behind what a settled job relies on. -/
theorem Phase.Backed.after (h : phase.Backed s j) (hrunning : phase.running) :
    phase.progress.After s j := by
  have hbetween : ∀ p : Plan, p.Between s j → Progress.After s j .closed := fun p hp =>
    ⟨fun _ => hp.spent, fun _ => .inl ⟨_, hp.allowed.wellFormed .pending, rfl, hp.file⟩⟩
  have huntouched : Progress.After s j .untouched :=
    ⟨fun hne => absurd rfl hne, fun heq => by cases heq⟩
  cases phase with
  | opening stage p =>
    cases stage with
    | pending => exact huntouched
    | final => exact hbetween p h
  | moving stage p =>
    cases stage with
    | pending => exact huntouched
    | final => exact hbetween p h
  | renamed stage p =>
    cases stage with
    | pending => exact hbetween p h
    | final => exact ⟨fun _ => h, fun heq => by cases heq⟩
  | mutating p m => exact hbetween p h
  | managing | checking | reading | read => exact huntouched
  | queued | settled | returned => cases hrunning

/-- The first commit of a job moves the file on from the revision it was checked
against. -/
theorem spent_of_current (h : s.Sound) {d : Draft} (hfresh : d.Fresh s j) (hcurrent : j.Current s) :
    j.presented ≠ some (.string d.revision) ∧ ∀ r, j.presented = some (.string r) → r ∈ s.issued := by
  have hstring : ∀ r, j.presented = some (.string r) → s.revision j.id = .string r := by
    intro r hr
    rw [Job.Current, hr, Option.any_some] at hcurrent
    cases hrevision : s.revision j.id with
    | string x =>
      rw [hrevision] at hcurrent
      simp only [strictEq, beq_iff_eq] at hcurrent
      rw [hcurrent]
    | null | bool | number | array | object =>
      rw [hrevision] at hcurrent
      cases hcurrent
  exact ⟨fun hp => hfresh.2 (hstring _ hp), fun r hr => h.known _ r (hstring r hr)⟩

theorem UpdateTask.Distinct.mono {t t' u : UpdateTask} (h : t.Distinct u) (hjob : t'.job = t.job)
    (htouched : t'.touched → t.touched)
    (hdraft : ∀ d, t'.phase.draft? = some d → t.phase.draft? = some d) : t'.Distinct u where
  number := hjob ▸ h.number
  behind heq := by
    rw [hjob] at heq
    obtain ⟨hbehind, hbehind'⟩ := h.behind heq
    refine ⟨fun ht d hd => ?_, fun hu d hd => hbehind' hu d (hdraft d hd)⟩
    rw [hjob]
    exact hbehind (htouched ht) d hd
  presented heq ht hu := by
    rw [hjob] at heq ⊢
    exact h.presented heq (htouched ht) hu

theorem Phase.running_of_draft? {d : Draft} (h : phase.draft? = some d) : phase.running := by
  cases phase with
  | queued | settled | returned => cases h
  | _ => rfl

/-- While a job runs, no other job of its Twin does. -/
theorem not_running {t u : UpdateTask} (ht : s.queues.Running t.job.id t.job.number)
    (hu : u.Backed s) (hid : t.job.id = u.job.id) (hne : t.job.number ≠ u.job.number) :
    u.phase.running = false := by
  cases hrunning : u.phase.running with
  | false => rfl
  | true =>
    have hu' := hu.1.running hrunning
    rw [← hid] at hu'
    exact absurd (ht.unique hu') hne

/-- What a touched job that is not running relies on. -/
theorem UpdateTask.Backed.idle {u : UpdateTask} (hu : u.Backed s) (hrunning : u.phase.running = false)
    (htouched : u.touched) : u.job.Spent s ∧ s.queues.Of u.job.id u.job.number ∧
      u.job.number ∈ s.queues.settled := by
  obtain ⟨j, phase⟩ := u
  obtain ⟨hplaced, hbacked⟩ := hu
  cases phase with
  | queued => exact absurd rfl htouched
  | settled | returned => exact ⟨hbacked.1.spent htouched, hplaced⟩
  | managing | checking | reading | read | opening | moving | renamed | mutating => cases hrunning

/-! ## The segments -/

section
variable {j : Job} {phase' : Phase} {others : List UpdateTask}

/-- A segment that leaves the state alone and draws nothing. -/
theorem quiet_update (hothers : ∀ u ∈ others, u.Backed s ∧ UpdateTask.Distinct ⟨j, phase⟩ u)
    (htouched : phase'.progress ≠ .untouched → phase.progress ≠ .untouched)
    (hdraft : ∀ d, phase'.draft? = some d → phase.draft? = some d) :
    ∀ u ∈ others, u.Backed s ∧ UpdateTask.Distinct ⟨j, phase'⟩ u :=
  fun u hu => ⟨(hothers u hu).1, (hothers u hu).2.mono rfl htouched hdraft⟩

/-- A revision is drawn. -/
theorem issue_segment {fields : Json} {d : Draft} (h : s.Sound)
    (ht : UpdateTask.Backed s ⟨j, .checking fields⟩)
    (hothers : ∀ u ∈ others, u.Backed s ∧ UpdateTask.Distinct ⟨j, .checking fields⟩ u)
    (hfresh : d.revision ∉ s.issued) :
    UpdateTask.Backed { s with issued := d.revision :: s.issued } ⟨j, .reading d⟩ ∧
      ∀ u ∈ others, u.Backed { s with issued := d.revision :: s.issued } ∧
        UpdateTask.Distinct ⟨j, .reading d⟩ u := by
  refine ⟨⟨ht.1, List.mem_cons_self, fun heq => hfresh (h.known _ _ heq)⟩, fun u hu => ?_⟩
  obtain ⟨hbacked, hdistinct⟩ := hothers u hu
  refine ⟨⟨hbacked.1, hbacked.2.mono rfl (List.subset_cons_self _ _) (fun _ hc => hc)⟩,
    hdistinct.number, fun heq => ⟨fun htouched => absurd rfl htouched, ?_⟩,
    fun _ htouched => absurd rfl htouched⟩
  intro htouched d' hd'
  obtain rfl := Option.some.inj hd'
  have hidle := not_running (t := ⟨j, .checking fields⟩) ht.1 hbacked heq hdistinct.number
  exact fun hp => hfresh ((hbacked.idle hidle htouched).1.known _ hp)

/-- The first commit. -/
theorem close_segment {p : Plan} (h : s.Sound) (ht : UpdateTask.Backed s ⟨j, .moving .pending p⟩)
    (hothers : ∀ u ∈ others, u.Backed s ∧ UpdateTask.Distinct ⟨j, .moving .pending p⟩ u) :
    (s.commit j (p.policy .pending)).Sound ∧
      UpdateTask.Backed (s.commit j (p.policy .pending)) ⟨j, .renamed .pending p⟩ ∧
      ∀ u ∈ others, u.Backed (s.commit j (p.policy .pending)) ∧
        UpdateTask.Distinct ⟨j, .renamed .pending p⟩ u := by
  obtain ⟨hrunning, hfresh, hallowed, hcurrent⟩ := ht
  obtain ⟨hne, hknown⟩ := spent_of_current h hfresh hcurrent
  have hfile : (s.commit j (p.policy .pending)).files.get? j.id =
      some (p.policy .pending).encode := by
    rw [files_commit, if_pos rfl]
  have hrevision := revision_of_file (hallowed.wellFormed .pending) hfile (policy_revision p .pending)
  refine ⟨h.commit hallowed hfresh.1 j .pending,
    ⟨hrunning, hallowed, hfile, ⟨⟨_, hrevision, hne⟩, hknown⟩⟩, fun u hu => ?_⟩
  obtain ⟨hbacked, hdistinct⟩ := hothers u hu
  rcases Decidable.em (u.job.id = j.id) with hid | hid
  · have hidle := not_running (t := ⟨j, .moving .pending p⟩) hrunning hbacked hid.symm
      hdistinct.number
    have hdraft : ∀ d, u.phase.draft? ≠ some d := by
      intro d hd
      rw [Phase.running_of_draft? hd] at hidle
      cases hidle
    refine ⟨⟨hbacked.1, hbacked.2.commit_self hidle hid hallowed .pending ?_ ?_⟩,
      hdistinct.number, fun heq => ⟨fun _ d hd => absurd hd (hdraft d), ?_⟩, ?_⟩
    · intro htouched
      exact (hdistinct.behind hid.symm).2 htouched _ rfl
    · intro htouched
      obtain ⟨-, hof, hsettled⟩ := hbacked.idle hidle htouched
      exact hrunning.lt_of_settled h.queues (hid ▸ hof) hsettled
    · intro htouched d hd
      exact (hdistinct.behind heq).2 htouched d hd
    · -- the other has moved the file on from what it presented, and this one is checked
      -- against the file
      intro _ _ htouched hp
      obtain ⟨⟨r, hr, hne'⟩, -⟩ := (hbacked.idle hidle htouched).1
      rw [hid] at hr
      simp only [Job.Current, hr] at hcurrent
      rw [Option.any_eq_true] at hcurrent
      obtain ⟨x, hx, hstrict⟩ := hcurrent
      cases x with
      | string y =>
        simp only [strictEq, beq_iff_eq] at hstrict
        exact hne' (hp ▸ hstrict ▸ hx)
      | null | bool | number | array | object => cases hstrict
  · have hfiles : (s.commit j (p.policy .pending)).files.get? u.job.id =
        s.files.get? u.job.id := by
      rw [files_commit, if_neg hid]
    refine ⟨⟨hbacked.1, hbacked.2.mono hfiles (fun _ hr => hr) (List.subset_append_left _ _)⟩,
      hdistinct.number, fun heq => absurd heq.symm hid, fun heq => absurd heq.symm hid⟩

/-- The second commit. -/
theorem open_segment {p : Plan} {digest : Json} (h : s.Sound)
    (ht : UpdateTask.Backed s ⟨j, .moving (.final digest) p⟩)
    (hothers : ∀ u ∈ others, u.Backed s ∧ UpdateTask.Distinct ⟨j, .moving (.final digest) p⟩ u) :
    (s.commit j (p.policy (.final digest))).Sound ∧
      UpdateTask.Backed (s.commit j (p.policy (.final digest))) ⟨j, .renamed (.final digest) p⟩ ∧
      ∀ u ∈ others, u.Backed (s.commit j (p.policy (.final digest))) ∧
        UpdateTask.Distinct ⟨j, .renamed (.final digest) p⟩ u := by
  obtain ⟨hrunning, hbetween⟩ := ht
  have hissued : p.revision ∈ s.issued := h.known _ _ hbetween.revision
  have hfile : (s.commit j (p.policy (.final digest))).files.get? j.id =
      some (p.policy (.final digest)).encode := by
    rw [files_commit, if_pos rfl]
  have hrevision := revision_of_file (hbetween.allowed.wellFormed (.final digest)) hfile
    (policy_revision p (.final digest))
  have hspent : j.Spent (s.commit j (p.policy (.final digest))) := by
    obtain ⟨⟨r, hr, hne⟩, hknown⟩ := hbetween.spent
    obtain rfl := Json.string.inj (hr.symm.trans hbetween.revision)
    exact ⟨⟨_, hrevision, hne⟩, hknown⟩
  refine ⟨h.commit hbetween.allowed hissued j _, ⟨hrunning, hspent⟩, fun u hu => ?_⟩
  obtain ⟨hbacked, hdistinct⟩ := hothers u hu
  refine ⟨⟨hbacked.1, ?_⟩, hdistinct.mono rfl (fun _ heq => by cases heq) fun _ hd => hd⟩
  rcases Decidable.em (u.job.id = j.id) with hid | hid
  · have hidle := not_running (t := ⟨j, .moving (.final digest) p⟩) hrunning hbacked hid.symm
      hdistinct.number
    refine hbacked.2.commit_self hidle hid hbetween.allowed _ ?_ ?_
    · intro htouched
      exact (hdistinct.behind hid.symm).2 htouched _ rfl
    · intro htouched
      obtain ⟨-, hof, hsettled⟩ := hbacked.idle hidle htouched
      exact hrunning.lt_of_settled h.queues (hid ▸ hof) hsettled
  · have hfiles : (s.commit j (p.policy (.final digest))).files.get? u.job.id =
        s.files.get? u.job.id := by
      rw [files_commit, if_neg hid]
    exact hbacked.2.mono hfiles (fun _ hr => hr) (List.subset_append_left _ _)

theorem settle_segment {result : Except Thrown UpdateResult} (h : s.Sound)
    (ht : UpdateTask.Backed s ⟨j, phase⟩)
    (hothers : ∀ u ∈ others, u.Backed s ∧ UpdateTask.Distinct ⟨j, phase⟩ u)
    (hrunning : phase.running) (hok : ∀ r, result = .ok r → phase.progress = .opened) :
    UpdateState.Sound { s with queues := s.queues.settle j.number } ∧
      UpdateTask.Backed { s with queues := s.queues.settle j.number }
        ⟨j, .settled phase.progress result⟩ ∧
      ∀ u ∈ others, u.Backed { s with queues := s.queues.settle j.number } ∧
        UpdateTask.Distinct ⟨j, .settled phase.progress result⟩ u := by
  have hjob := ht.1.running hrunning
  have hafter := ht.2.after hrunning
  refine ⟨h.withQueues (h.queues.settle hjob),
    ⟨⟨hjob.of, List.mem_cons_self⟩, ⟨fun hp => ?_, hafter.shut⟩, hok⟩, fun u hu => ?_⟩
  · exact ⟨(hafter.spent hp).moved, (hafter.spent hp).known⟩
  · obtain ⟨hbacked, hdistinct⟩ := hothers u hu
    refine ⟨⟨hbacked.1.settle hdistinct.number.symm,
      hbacked.2.mono rfl (fun _ hr => hr) (fun _ hc => hc)⟩, ?_⟩
    exact hdistinct.mono rfl (fun htouched => htouched) (fun _ hd => by cases hd)

theorem release_segment {progress : Progress} {result : Except Thrown UpdateResult} (h : s.Sound)
    (ht : UpdateTask.Backed s ⟨j, .settled progress result⟩)
    (hothers : ∀ u ∈ others, u.Backed s ∧ UpdateTask.Distinct ⟨j, .settled progress result⟩ u) :
    UpdateState.Sound { s with queues := s.queues.release j.id j.number } ∧
      UpdateTask.Backed { s with queues := s.queues.release j.id j.number }
        ⟨j, .returned progress result⟩ ∧
      ∀ u ∈ others, u.Backed { s with queues := s.queues.release j.id j.number } ∧
        UpdateTask.Distinct ⟨j, .returned progress result⟩ u := by
  refine ⟨h.withQueues (h.queues.release ht.1.2), ⟨Phase.Placed.release ht.1 _ _, ?_⟩, fun u hu => ?_⟩
  · exact Phase.Backed.mono ht.2 rfl (fun _ hr => hr) (fun _ hc => hc)
  · obtain ⟨hbacked, hdistinct⟩ := hothers u hu
    refine ⟨⟨hbacked.1.release _ _, hbacked.2.mono rfl (fun _ hr => hr) (fun _ hc => hc)⟩, ?_⟩
    exact hdistinct.mono rfl (fun htouched => htouched) (fun _ hd => by cases hd)

end

section
variable [Runtime] {o : SharingOptions}

theorem updateResume_sound {s' : UpdateState} {t t' : UpdateTask} {i : UpdateInput}
    {others : List UpdateTask} (h : s.Sound) (ht : t.Backed s)
    (hothers : ∀ u ∈ others, u.Backed s ∧ t.Distinct u) (hfresh : FreshRevisions s t others i)
    (hresume : updateResume o s t i = some (s', t')) :
    s'.Sound ∧ t'.Backed s' ∧ ∀ u ∈ others, u.Backed s' ∧ t'.Distinct u := by
  obtain ⟨hjob, hsegment⟩ := segment_of_updateResume hresume
  obtain ⟨j, phase⟩ := t
  obtain ⟨j', phase'⟩ := t'
  obtain rfl : j' = j := hjob
  cases hsegment with
  | started hready =>
    exact ⟨h, ⟨Queues.Waiting.start h.queues ht.1 hready, trivial⟩,
      quiet_update hothers (fun hp => hp) (fun _ hd => by cases hd)⟩
  | managed => exact ⟨h, ht, quiet_update hothers (fun hp => hp) (fun _ hd => by cases hd)⟩
  | drafted hi hdraft =>
    obtain rfl := draft_eq_ok hdraft
    obtain ⟨hbacked, hrest⟩ := issue_segment h ht hothers (hfresh _ _ hi)
    exact ⟨h.issue _, hbacked, hrest⟩
  | sampled =>
    exact ⟨h, ⟨ht.1, ht.2, rfl⟩, quiet_update hothers (fun hp => hp) (fun _ hd => hd)⟩
  | planned hplan =>
    obtain ⟨rfl, hallowed, current, hcurrent, hrevision⟩ := plan_eq_ok hplan
    obtain ⟨hrunning, hd, hcontent⟩ := ht
    rw [hcontent] at hcurrent
    refine ⟨h, ⟨hrunning, hd, hallowed, ?_⟩, quiet_update hothers (fun hp => hp) (fun _ hd => hd)⟩
    simpa only [Job.Current, Job.presented, UpdateState.revision, hcurrent] using hrevision
  | @written stage p =>
    cases stage with
    | pending => exact ⟨h, ht, quiet_update hothers (fun hp => hp) (fun _ hd => hd)⟩
    | final => exact ⟨h, ht, quiet_update hothers (fun hp => hp) (fun _ hd => hd)⟩
  | @committed stage p =>
    cases stage with
    | pending => exact close_segment h ht hothers
    | final => exact open_segment h ht hothers
  | sent => exact ⟨h, ht, quiet_update hothers (fun hp => hp) (fun _ hd => hd)⟩
  | mutated => exact ⟨h, ht, quiet_update hothers (fun hp => hp) (fun _ hd => hd)⟩
  | settled hrunning hok => exact settle_segment h ht hothers hrunning hok
  | released => exact release_segment h ht hothers

theorem updateCall_sound {k : UpdateCall} {s' : UpdateState} {t : UpdateTask} (h : s.Sound)
    (hcall : updateCall s k = some (s', t)) :
    s'.Sound ∧ t.Backed s' ∧ ∀ u, u.Backed s → u.Backed s' ∧ t.Distinct u := by
  simp only [updateCall] at hcall
  split at hcall
  case h_1 => cases hcall
  case h_2 id hid =>
    obtain ⟨rfl, rfl⟩ := Prod.mk.inj (Option.some.inj hcall)
    refine ⟨h.withQueues (h.queues.enqueue id), ⟨h.queues.waiting id, trivial⟩, fun u hu => ?_⟩
    have hlt : u.job.number < s.queues.next := hu.1.of.lt_next
    refine ⟨⟨hu.1.enqueue id, hu.2.mono rfl (fun _ hr => hr) (fun _ hc => hc)⟩,
      Nat.ne_of_gt hlt, fun _ => ⟨fun htouched => absurd rfl htouched, fun _ _ hd => by cases hd⟩,
      fun _ htouched => absurd rfl htouched⟩

theorem update_modular :
    Modular (updateMachine o) FreshRevisions UpdateState.Sound (fun s t => t.Backed s)
      UpdateTask.Distinct where
  symm := UpdateTask.Distinct.symm
  call := updateCall_sound
  resume := updateResume_sound
  env _ h := by cases h

end

/-! ## Runs -/

theorem sound_start (files : Record Json) : (UpdateState.start files).Sound where
  queues := Queues.valid_empty
  known id r hr := by
    simp only [UpdateState.revision, UpdateState.start] at hr
    cases hfile : files.get? id with
    | none =>
      rw [hfile] at hr
      cases hr
    | some content =>
      refine List.mem_filterMap.mpr ⟨(id, content), Record.mem_of_get? hfile, ?_⟩
      rw [hfile] at hr
      split at hr
      case h_1 current hcurrent => simp only [hcurrent, hr, asString?]
      case h_2 => cases hr
  commits c hc := by cases hc

/-- Every authorization that reads the content of the file is denied. -/
def Denied [Runtime] (o : SharingOptions) (content : Option Json) : Prop :=
  ∀ fields m did scope, ∃ e, authorizeStored o fields m content did scope = .error e

/-- The update has made its first commit, and is on its way to the second. -/
def UpdateTask.between (t : UpdateTask) : Prop := t.phase.running ∧ t.phase.progress = .closed

/-- The update has failed after its first commit. -/
def UpdateTask.failedClosed (t : UpdateTask) : Prop :=
  t.phase.running = false ∧ t.phase.progress = .closed

/-- The update has succeeded. -/
def UpdateTask.succeeded (t : UpdateTask) : Prop :=
  ∃ progress r, t.phase = .settled progress (.ok r) ∨ t.phase = .returned progress (.ok r)

section
variable [Runtime] {o : SharingOptions} {t : UpdateTask}

theorem UpdateState.Shut.denied {id : String} (h : s.Shut id) : Denied o (s.files.get? id) := by
  obtain ⟨policy, hwell, hpending, hfile⟩ := h
  intro fields m did scope
  rw [hfile, authorizeStored_pending o hwell hpending]
  exact ⟨_, rfl⟩

omit [Runtime] in
theorem UpdateTask.Backed.shut_of_between (h : t.Backed s) (hbetween : t.between) :
    s.Shut t.job.id := by
  obtain ⟨j, phase⟩ := t
  obtain ⟨hrunning, hclosed⟩ := hbetween
  have hshut : ∀ p : Plan, p.Between s j → s.Shut j.id := fun p hp =>
    ⟨_, hp.allowed.wellFormed .pending, rfl, hp.file⟩
  obtain ⟨-, hbacked⟩ := h
  cases phase with
  | opening stage p | moving stage p =>
    cases stage with
    | pending => cases hclosed
    | final => exact hshut p hbacked
  | renamed stage p =>
    cases stage with
    | pending => exact hshut p hbacked
    | final => cases hclosed
  | mutating p m => exact hshut p hbacked
  | managing | checking | reading | read => cases hclosed
  | queued | settled | returned => cases hrunning

omit [Runtime] in
theorem UpdateTask.Backed.shut_of_failed (h : t.Backed s) (hfailed : t.failedClosed) :
    s.Shut t.job.id ∨ s.Reopened t.job := by
  obtain ⟨j, phase⟩ := t
  obtain ⟨hidle, hclosed⟩ := hfailed
  cases phase with
  | settled | returned => exact h.2.1.shut hclosed
  | queued => cases hclosed
  | managing | checking | reading | read | opening | moving | renamed | mutating => cases hidle

omit [Runtime] in
theorem UpdateTask.Backed.touched_of_succeeded (h : t.Backed s) (hsucceeded : t.succeeded) :
    t.touched := by
  obtain ⟨j, phase⟩ := t
  obtain ⟨progress, r, hphase⟩ := hsucceeded
  simp only at hphase
  rcases hphase with rfl | rfl
  · have hopened := h.2.2 r rfl
    simp [UpdateTask.touched, Phase.progress, hopened]
  · have hopened := h.2.2 r rfl
    simp [UpdateTask.touched, Phase.progress, hopened]

/-- A segment that changes a file is a commit of its task, and what a task has committed
stays committed. -/
theorem updateResume_files {s' : UpdateState} {t' : UpdateTask} {i : UpdateInput}
    (hresume : updateResume o s t i = some (s', t')) :
    (t'.phase.progress = .untouched → s'.files = s.files) ∧ (t.touched → t'.touched) := by
  obtain ⟨-, hsegment⟩ := segment_of_updateResume hresume
  obtain ⟨j, phase⟩ := t
  obtain ⟨j', phase'⟩ := t'
  cases hsegment with
  | @committed stage p =>
    cases stage with
    | pending => exact ⟨fun h => (by cases h), fun _ h => by cases h⟩
    | final => exact ⟨fun h => (by cases h), fun _ h => by cases h⟩
  | @written stage p =>
    cases stage with
    | pending => exact ⟨fun _ => rfl, fun h => absurd rfl h⟩
    | final => exact ⟨fun _ => rfl, fun _ h => by cases h⟩
  | started | managed | drafted | sampled | planned => exact ⟨fun _ => rfl, fun h => absurd rfl h⟩
  | sent | mutated => exact ⟨fun _ => rfl, fun _ h => by cases h⟩
  | settled | released => exact ⟨fun _ => rfl, fun h => h⟩

end

/-- In every run of updates in which no revision is drawn twice: of the updates of a Twin
that present one revision at most one succeeds; the file of the Twin denies everybody
from the first commit of an update to its second, and when it fails in between, until a
later update has made its second commit; every policy that is committed is well formed
and read back as it was; and an update that ends without a commit has changed no file. -/
theorem update_serialised [Runtime] (o : SharingOptions) (files : Record Json)
    {es : List (Event UpdateCall UpdateInput Empty)} {c : Config UpdateState UpdateTask}
    (hrun : (updateMachine o).run ⟨.start files, []⟩ es = some c)
    (hmeets : (updateMachine o).Meets FreshRevisions ⟨.start files, []⟩ es) :
    (∀ (m n : Nat) (t u : UpdateTask), m ≠ n → c.tasks[m]? = some t → c.tasks[n]? = some u → t.job.id = u.job.id →
      t.succeeded → u.succeeded → t.job.presented ≠ u.job.presented) ∧
    (∀ t ∈ c.tasks,
      (t.between → Denied o (c.shared.files.get? t.job.id)) ∧
      (t.failedClosed → Denied o (c.shared.files.get? t.job.id) ∨ c.shared.Reopened t.job)) ∧
    (∀ commit ∈ c.shared.commits, commit.policy.WellFormed ∧
      stored (some commit.policy.encode) = .ok (some commit.policy)) ∧
    (∀ es₁ (n : Nat) i es₂ d d' t, es = es₁ ++ .resume n i :: es₂ →
      (updateMachine o).run ⟨.start files, []⟩ es₁ = some d →
      (updateMachine o).step d (.resume n i) = some d' → c.tasks[n]? = some t →
      t.phase.progress = .untouched → d'.shared.files = d.shared.files) := by
  have hholds := update_modular.run (Holds.init (sound_start files)) hmeets hrun
  refine ⟨?_, ?_, ?_, ?_⟩
  · intro m n t u hne ht hu hid hsucceeded hsucceeded'
    have hdistinct := hholds.pair UpdateTask.Distinct.symm hne ht hu
    have htouched := (hholds.tasks t (List.mem_of_getElem? ht)).touched_of_succeeded hsucceeded
    have htouched' := (hholds.tasks u (List.mem_of_getElem? hu)).touched_of_succeeded hsucceeded'
    exact hdistinct.presented hid htouched htouched'
  · intro t ht
    have hbacked := hholds.tasks t ht
    refine ⟨fun hbetween => (hbacked.shut_of_between hbetween).denied, fun hfailed => ?_⟩
    exact (hbacked.shut_of_failed hfailed).imp UpdateState.Shut.denied id
  · intro commit hcommit
    have hwell := hholds.shared.commits commit hcommit
    exact ⟨hwell, stored_encode hwell⟩
  · intro es₁ n i es₂ d d' t heq hrun₁ hstep ht huntouched
    rw [heq, (updateMachine o).run_append hrun₁, Machine.run, hstep, Option.bind_some] at hrun
    obtain ⟨u, s', u', hu, hresume, rfl⟩ := Machine.step_resume hstep
    obtain ⟨hfiles, -⟩ := updateResume_files hresume
    have hu' : (d.tasks.set n u')[n]? = some u' := by
      rw [List.getElem?_set_self (List.getElem?_eq_some_iff.mp hu).1]
    -- a task that has committed would still have at the end of the run
    refine hfiles (Decidable.byContradiction fun htouched => ?_)
    obtain ⟨t', ht', htouched'⟩ := Machine.run_task (P := UpdateTask.touched)
      (fun hp hr => (updateResume_files hr).2 hp) hu' htouched hrun
    obtain rfl := Option.some.inj (ht.symm.trans ht')
    exact htouched' huntouched

/-! ## The update of one Twin -/

def plainOptions : SharingOptions where
  network := "mainnet"
  packageId := "package"
  accessPackageId := none
  publicUrl := "https://dtis.example"
  parseJson _ := none

def plainOwner : String := "did:iota:" ++ objectId 'a'

/-- A Twin that was not migrated to the chain. -/
def plainTwin : Json :=
  .object [("type", .string "package::oid_twin::OIDTwin"),
    ("fields", .object [("owner_did", .string plainOwner), ("mutable_metadata", .object [])])]

/-- The owner makes his Twin private. -/
def plainUpdate : UpdateCall where
  id := objectId '1'
  did := plainOwner
  input := .object [("mode", .string "private"), ("visibility", .string "private"),
    ("liveLocationVisibility", .string "private"), ("allowedDids", .array []), ("revision", .null)]

/-- The update up to its first draw, and from there to its end. -/
def plainUpdateStart : List (Event UpdateCall UpdateInput Empty) :=
  [.call plainUpdate, .resume 0 .done, .resume 0 (.value plainTwin)]

def plainUpdateRest : List (Event UpdateCall UpdateInput Empty) :=
  [.resume 0 .done, .resume 0 .done, .resume 0 .done, .resume 0 .done, .resume 0 .done,
   .resume 0 (.value (.object [])), .resume 0 .done, .resume 0 .done, .resume 0 .done,
   .resume 0 .done]

/-- The fields of the Twin of an owner. -/
def plainFields (owner : String) : Json :=
  .object [("owner_did", .string owner), ("mutable_metadata", .object [])]

theorem manage_plainOwner [Runtime] : manage plainOptions plainOwner (plainFields plainOwner) = .ok () := by
  have hid : isObjectId (objectId 'a') := isObjectId_objectId rfl
  have hmainnet : ∀ c ∈ plainOptions.network.toList, isAscii c ∧ c.toLower = c := ascii_of_all (by decide)
  have howner : plainOwner = didPrefix plainOptions.network ++ objectId 'a' := by
    simp [plainOwner, plainOptions, didPrefix]
  have hdid := didOf_append plainOptions hid hmainnet
  have hlower := toLowerCase_did hid hmainnet
  rw [← howner] at hdid hlower
  exact manage_owner hdid hlower rfl

/-- Whatever the Twin and its owner are called, the update commits twice. -/
theorem run_private [Runtime] {id did : String} {input : Json} (hinput : plainUpdate.input = input)
    (hid : twinIdOf id = .ok id) (hmanage : manage plainOptions did (plainFields did) = .ok ()) :
    ∃ d, (updateMachine plainOptions).run ⟨.start [], []⟩ [.call ⟨id, did, input⟩, .resume 0 .done,
        .resume 0 (.value (.object [("type", .string "package::oid_twin::OIDTwin"), ("fields", plainFields did)]))] = some d ∧
      d.shared.issued = [] ∧ ∃ c, (updateMachine plainOptions).run d
        (.resume 0 (.answered none "first") :: plainUpdateRest) = some c ∧ c.shared.commits.length = 2 := by
  subst hinput
  have hcall : (updateMachine plainOptions).step ⟨.start [], []⟩ (.call ⟨id, did, plainUpdate.input⟩) =
      some ⟨{ UpdateState.start [] with queues := Queues.empty.enqueue id },
        [⟨⟨0, id, did, plainUpdate.input⟩, .queued none⟩]⟩ := by
    simp only [Machine.step, updateMachine, updateCall, hid, Option.map_some]
    rfl
  have htwin : twinFields plainOptions (.object [("type", .string "package::oid_twin::OIDTwin"),
      ("fields", plainFields did)]) = .ok (plainFields did) := if_pos rfl
  have hread (s : UpdateState) (j : Job) (hj : j.did = did) : (updateMachine plainOptions).step ⟨s, [⟨j, .managing⟩]⟩
      (.resume 0 (.value (.object [("type", .string "package::oid_twin::OIDTwin"), ("fields", plainFields did)]))) =
        some ⟨s, [⟨j, .checking (plainFields did)⟩]⟩ := by
    have hresume : updateResume plainOptions s ⟨j, .managing⟩
        (.value (.object [("type", .string "package::oid_twin::OIDTwin"), ("fields", plainFields did)])) =
          some (s, ⟨j, .checking (plainFields did)⟩) := by
      simp only [updateResume, htwin, hj, hmanage]
    simp [Machine.step, updateMachine, hresume]
  refine ⟨_, (Machine.run_cons _ hcall _).trans ((Machine.run_cons _ rfl _).trans (Machine.run_cons _ (hread _ _ rfl) _)),
    rfl, _, rfl, rfl⟩

theorem update_serialised_private :
    ∃ c, (@updateMachine Runtime.ascii plainOptions).run ⟨.start [], []⟩
        (plainUpdateStart ++ .resume 0 (.answered none "first") :: plainUpdateRest) = some c ∧
      c.shared.commits.length = 2 ∧
      ∀ commit ∈ c.shared.commits, commit.policy.WellFormed ∧
        stored (some commit.policy.encode) = .ok (some commit.policy) := by
  obtain ⟨d, hd, hissued, c, hc, hcommits⟩ : ∃ d, (@updateMachine Runtime.ascii plainOptions).run ⟨.start [], []⟩
      plainUpdateStart = some d ∧ d.shared.issued = [] ∧ ∃ c, (@updateMachine Runtime.ascii plainOptions).run d
        (.resume 0 (.answered none "first") :: plainUpdateRest) = some c ∧ c.shared.commits.length = 2 := by
    exact @run_private Runtime.ascii _ _ _ rfl (@twinIdOf_of_isObjectId Runtime.ascii _ (isObjectId_objectId rfl))
      (@manage_plainOwner Runtime.ascii)
  have hquiet : ∀ es : List (Event UpdateCall UpdateInput Empty),
      (∀ n i, .resume n i ∈ es → ∀ chain uuid, i ≠ .answered chain uuid) →
      ∀ d, (@updateMachine Runtime.ascii plainOptions).Meets FreshRevisions d es := by
    intro es hes d
    refine Machine.meets_of_inputs fun n i hi s t others chain uuid heq => ?_
    exact absurd heq (hes n i hi chain uuid)
  have hmeets : (@updateMachine Runtime.ascii plainOptions).Meets FreshRevisions ⟨.start [], []⟩
      (plainUpdateStart ++ .resume 0 (.answered none "first") :: plainUpdateRest) := by
    refine Machine.Meets.append (hquiet _ ?_ _) hd ⟨fun t _ chain uuid heq => ?_, fun d _ =>
      hquiet _ ?_ d⟩
    · intro n i hi chain uuid
      simp only [plainUpdateStart, List.mem_cons, Event.resume.injEq, reduceCtorEq,
        List.not_mem_nil, or_false, false_or] at hi
      rcases hi with ⟨-, rfl⟩ | ⟨-, rfl⟩ <;> simp
    · rw [hissued]
      simp
    · intro n i hi chain uuid
      simp only [plainUpdateRest, List.mem_cons, Event.resume.injEq, List.not_mem_nil,
        or_false] at hi
      rcases hi with h | h | h | h | h | h | h | h | h | h <;> (obtain ⟨-, rfl⟩ := h; simp)
  have hrun : (@updateMachine Runtime.ascii plainOptions).run ⟨.start [], []⟩
      (plainUpdateStart ++ .resume 0 (.answered none "first") :: plainUpdateRest) = some c := by
    rw [Machine.run_append _ hd, hc]
  exact ⟨c, hrun, hcommits,
    (@update_serialised Runtime.ascii plainOptions [] _ c hrun hmeets).2.2.1⟩

end Sharing
