-- SUMMARY: Final statuses are absorbing, in runs where no writer stores under another writer that has read.
import TwinServer.Commands.System

/-!
# The status of a command

The dispatcher, the result handlers and the expiry each read a record, suspend, and
store what they made of it. When nothing final is stored while another task holds a
record of the same id, and no answer while a `create` does, a final record stays as
it is and an answered command is never dispatched again.
-/

open Js Js.Json Async

namespace Commands

/-! ## The condition -/

/-- A final status is stored only while no other task holds a record of the id, and an
answer only while no `create` of the id is under way. -/
def StoresSettled : Guard Service Task Input := fun _ t others _ =>
  ∀ r, t.stores = some r → ∀ u ∈ others, ∀ r', u.held = some r' → r'.commandId = r.commandId →
    r.status.final = false ∧ (u.creating → r.status.underway = false)

/-! ## The invariant -/

/-- What is stored under the id of a record satisfies a condition, if anything is. -/
def Service.Allows (s : Service) (r : CommandRecord) (p : CommandStatus → Bool) : Prop :=
  ∀ r', s.record? r.commandId = some r' → p r'.status

/-- The device has not answered, nor the command ended. -/
def CommandStatus.unanswered : CommandStatus → Bool
  | .authorized | .dispatched => true
  | _ => false

def CommandStatus.open_ (status : CommandStatus) : Bool := !status.final

theorem CommandStatus.open_of_unanswered {status : CommandStatus} (h : status.unanswered) :
    status.open_ := by
  cases status <;> first | rfl | cases h

/-- A status that is neither final nor an answer. -/
theorem CommandStatus.unanswered_iff {status : CommandStatus} :
    status.unanswered ↔ status.final = false ∧ status.underway = false := by
  cases status <;> decide

/-- What a task may rely on: while `create` holds a record the command is unanswered,
and a result or an expiry is made of a command that is still open. -/
def Task.Fresh (s : Service) : Task → Prop
  | .checking r => r.status.unanswered
  | .inserting r | .persisting r | .signing r | .publishing r | .putting .dispatch r =>
    r.status.unanswered ∧ s.Allows r CommandStatus.unanswered
  | .reading _ m => m.status.unanswered = false
  | .putting (.result _) r | .putting .expiry r =>
    r.status.unanswered = false ∧ s.Allows r CommandStatus.open_
  | _ => True

/-! ## What the writes keep -/

variable {s : Service} {r : CommandRecord}

theorem Service.Allows.set {r' : CommandRecord} {p : CommandStatus → Bool} (h : s.Allows r' p)
    (hr : r'.commandId = r.commandId → p r.status) : (s.set r).Allows r' p := by
  intro r₀ hr₀
  rw [Service.record?_set] at hr₀
  split at hr₀
  case isTrue hk =>
    obtain rfl := Option.some.inj hr₀
    exact hr hk
  case isFalse => exact h r₀ hr₀

/-- A write that the guard allows keeps what another task relies on. -/
theorem Task.Fresh.set {u : Task} (hu : u.Fresh s)
    (hr : ∀ r', u.held = some r' → r'.commandId = r.commandId →
      r.status.final = false ∧ (u.creating → r.status.underway = false)) : u.Fresh (s.set r) := by
  have hcreating : ∀ r', u.held = some r' → u.creating → r'.commandId = r.commandId →
      r.status.unanswered := by
    intro r' hheld hcreating hid
    obtain ⟨hfinal, hunderway⟩ := hr r' hheld hid
    exact CommandStatus.unanswered_iff.mpr ⟨hfinal, hunderway hcreating⟩
  cases u with
  | inserting r' => exact ⟨hu.1, hu.2.set (hcreating r' rfl rfl)⟩
  | persisting r' => exact ⟨hu.1, hu.2.set (hcreating r' rfl rfl)⟩
  | signing r' => exact ⟨hu.1, hu.2.set (hcreating r' rfl rfl)⟩
  | publishing r' => exact ⟨hu.1, hu.2.set (hcreating r' rfl rfl)⟩
  | putting w r' =>
    have hopen : r'.commandId = r.commandId → r.status.open_ := by
      intro hid
      simp only [CommandStatus.open_, (hr r' rfl hid).1, Bool.not_false]
    cases w with
    | dispatch => exact ⟨hu.1, hu.2.set (hcreating r' rfl rfl)⟩
    | result topic => exact ⟨hu.1, hu.2.set hopen⟩
    | expiry => exact ⟨hu.1, hu.2.set hopen⟩
  | checking | reading => exact hu
  | looking | saving | returned | ignored | threw => trivial

theorem Service.Allows.of_find (hs : s.Keyed) {twinId commandId : String} {r₀ : CommandRecord}
    (hfind : s.find twinId commandId = some r₀) (hid : r.commandId = r₀.commandId)
    (hopen : r₀.status.final = false) : s.Allows r CommandStatus.open_ := by
  obtain ⟨hr₀, hkey, -⟩ := hs.find hfind
  intro r₁ hr₁
  rw [hid, hkey] at hr₁
  obtain rfl := Option.some.inj (hr₀.symm.trans hr₁)
  simp only [CommandStatus.open_, hopen, Bool.not_false]

/-! ## The segments -/

theorem resume_fresh {t t' : Task} {i : Input} {s' : Service} {others : List Task}
    (h : s.Keyed) (ht : t.Fresh s) (hothers : ∀ u ∈ others, u.Fresh s)
    (hguard : StoresSettled s t others i) (hresume : resume s t i = some (s', t')) :
    s'.Keyed ∧ t'.Fresh s' ∧ ∀ u ∈ others, u.Fresh s' := by
  cases segment_of_resume hresume with
  | @free r hfree =>
    refine ⟨h, ⟨ht, fun r' hr' => ?_⟩, hothers⟩
    rw [hfree] at hr'
    cases hr'
  | @inserted r =>
    refine ⟨h.set r, ⟨ht.1, ht.2.set fun _ => ht.1⟩, fun u hu => ?_⟩
    exact (hothers u hu).set (hguard r rfl u hu)
  | persisted => exact ⟨h, ht, hothers⟩
  | published => exact ⟨h, ht, hothers⟩
  | acknowledged => exact ⟨h, ⟨rfl, ht.2⟩, hothers⟩
  | @answered topic m r now hfind hopen =>
    exact ⟨h, ⟨ht, .of_find h hfind rfl hopen⟩, hothers⟩
  | @overdue twinId commandId r now hfind hopen =>
    exact ⟨h, ⟨rfl, .of_find h hfind rfl hopen⟩, hothers⟩
  | @written w r => exact ⟨h.set r, trivial, fun u hu => (hothers u hu).set (hguard r rfl u hu)⟩
  | ended hover =>
    cases t' with
    | returned | ignored | threw => exact ⟨h, trivial, hothers⟩
    | _ => cases hover

section
variable [Runtime] {config : CommandConfig} {lib : Library} {writable : Bool}
  {mayPublish : String → String → Bool}

/-- A message carries no status that only the server gives. -/
theorem parseResult_answered {message : Json} {m : Result}
    (h : parseResult message = .ok (some m)) : m.status.unanswered = false := by
  simp only [parseResult, Except.bind_eq_ok] at h
  obtain ⟨_, -, _, -, text, -, h⟩ := h
  split at h
  case h_1 status hstatus =>
    split at h
    · cases h
    · obtain rfl := Option.some.inj (Except.ok.inj h)
      obtain ⟨hauthorized, hdispatched, -⟩ := CommandStatus.ofResult_ne hstatus
      revert hauthorized hdispatched
      cases status <;> simp [CommandStatus.unanswered]
  case h_2 => cases h

theorem call_fresh {k : Call} {s' : Service} {t : Task} (h : s.Keyed)
    (hcall : call config lib writable mayPublish s k = some (s', t)) :
    s'.Keyed ∧ t.Fresh s' ∧ ∀ u : Task, u.Fresh s → u.Fresh s' ∧ True := by
  obtain ⟨rfl, hcases⟩ := call_cases hcall
  refine ⟨h, ?_, fun u hu => ⟨hu, trivial⟩⟩
  rcases hcases with ⟨r, rfl, hr⟩ | ⟨twinId, commandId, rfl⟩ | ⟨topic, m, rfl, _, _, hm⟩ | hover
  · simp only [Task.Fresh, hr, CommandStatus.unanswered]
  · trivial
  · exact parseResult_answered hm
  · cases t with
    | returned | ignored | threw => trivial
    | _ => cases hover

theorem status_modular :
    Modular (machine config lib writable mayPublish) StoresSettled Service.Keyed Task.Fresh
      (fun _ _ => True) where
  symm _ := trivial
  call := call_fresh
  resume h ht hothers hguard hresume := by
    obtain ⟨hkeyed, hfresh, hrest⟩ :=
      resume_fresh h ht (fun u hu => (hothers u hu).1) hguard hresume
    exact ⟨hkeyed, hfresh, fun u hu => ⟨hrest u hu, trivial⟩⟩
  env _ h := by cases h

end

/-! ## Runs -/

/-- A final record keeps its status, result and error, and an answered command is not
authorized or dispatched again. -/
def KeepsStatus (s s' : Service) : Prop :=
  ∀ k r, s.record? k = some r → ∃ r', s'.record? k = some r' ∧
    (r.status.final → r'.status = r.status ∧ r'.result = r.result ∧ r'.error = r.error) ∧
    (r.status.underway → r'.status ≠ .authorized ∧ r'.status ≠ .dispatched)

theorem underway_ne {status : CommandStatus} (h : status.underway) :
    status ≠ .authorized ∧ status ≠ .dispatched := by
  cases status <;> first | decide | cases h

theorem keepsStatus_refl (s : Service) : KeepsStatus s s :=
  fun _ r hr => ⟨r, hr, fun _ => ⟨rfl, rfl, rfl⟩, underway_ne⟩

theorem answered_cases {status : CommandStatus} (h : status ≠ .authorized ∧ status ≠ .dispatched) :
    status.final ∨ status.underway := by
  cases status <;> simp_all [CommandStatus.final, CommandStatus.underway]

theorem final_ne {status : CommandStatus} (h : status.final) :
    status ≠ .authorized ∧ status ≠ .dispatched := by
  cases status <;> first | decide | cases h

theorem KeepsStatus.trans {a b c : Service} (h : KeepsStatus a b) (h' : KeepsStatus b c) :
    KeepsStatus a c := by
  intro k r hr
  obtain ⟨r', hr', hfinal, hunderway⟩ := h k r hr
  obtain ⟨r'', hr'', hfinal', hunderway'⟩ := h' k r' hr'
  refine ⟨r'', hr'', fun hf => ?_, fun hu => ?_⟩
  · obtain ⟨hstatus, hresult, herror⟩ := hfinal hf
    obtain ⟨hstatus', hresult', herror'⟩ := hfinal' (hstatus ▸ hf)
    exact ⟨hstatus'.trans hstatus, hresult'.trans hresult, herror'.trans herror⟩
  · rcases answered_cases (hunderway hu) with hf | hu'
    · rw [(hfinal' hf).1]
      exact final_ne hf
    · exact hunderway' hu'

/-- A write over an open record keeps the statuses, unless it takes an answer back. -/
theorem keepsStatus_set (hopen : s.Allows r CommandStatus.open_)
    (hback : r.status.unanswered → s.Allows r CommandStatus.unanswered) :
    KeepsStatus s (s.set r) := by
  intro k r₀ hr₀
  by_cases hk : k = r.commandId
  · subst hk
    refine ⟨r, Service.record?_set_self s r, fun hfinal => ?_, fun hunderway => ?_⟩
    · have := hopen r₀ hr₀
      rw [CommandStatus.open_, hfinal] at this
      cases this
    · cases hr : r.status.unanswered with
      | true =>
        have := CommandStatus.unanswered_iff.mp (hback hr r₀ hr₀)
        rw [hunderway] at this
        cases this.2
      | false =>
        revert hr
        cases r.status <;> simp [CommandStatus.unanswered]
  · refine ⟨r₀, by rw [Service.record?_set_ne s hk, hr₀], fun _ => ⟨rfl, rfl, rfl⟩, underway_ne⟩

theorem resume_keepsStatus {t t' : Task} {i : Input} {s' : Service} (ht : t.Fresh s)
    (hresume : resume s t i = some (s', t')) : KeepsStatus s s' := by
  cases segment_of_resume hresume with
  | inserted =>
    exact keepsStatus_set (fun r' hr' => CommandStatus.open_of_unanswered (ht.2 r' hr'))
      fun _ => ht.2
  | @written w r =>
    cases w with
    | dispatch =>
      exact keepsStatus_set (fun r' hr' => CommandStatus.open_of_unanswered (ht.2 r' hr'))
        fun _ => ht.2
    | result topic =>
      refine keepsStatus_set ht.2 fun hunanswered => ?_
      rw [ht.1] at hunanswered
      cases hunanswered
    | expiry =>
      refine keepsStatus_set ht.2 fun hunanswered => ?_
      rw [ht.1] at hunanswered
      cases hunanswered
  | free | persisted | published | acknowledged | answered | overdue | ended =>
    exact keepsStatus_refl s

/-- In every run in which nothing final is stored under another writer of the same id,
and no answer under its `create`, final records stay as they are from any state of the
run on, and an answered command is not dispatched again. -/
theorem final_absorbing [Runtime] (config : CommandConfig) (lib : Library)
    (writable : Bool) (mayPublish : String → String → Bool) (data : List CommandRecord)
    {es es' : List (Event Call Input Empty)} {c c' : Config Service Task}
    (hrun : (machine config lib writable mayPublish).run ⟨.load data, []⟩ es = some c)
    (hmeets : (machine config lib writable mayPublish).Meets StoresSettled ⟨.load data, []⟩ es)
    (hrun' : (machine config lib writable mayPublish).run c es' = some c')
    (hmeets' : (machine config lib writable mayPublish).Meets StoresSettled c es') :
    KeepsStatus c.shared c'.shared := by
  have hholds := status_modular.run (Holds.init (Service.keyed_load data)) hmeets hrun
  refine status_modular.run_rel keepsStatus_refl KeepsStatus.trans ?_ ?_ ?_ hholds hmeets' hrun'
  · intro s k s' t _ hcall
    obtain ⟨rfl, -⟩ := call_cases hcall
    exact keepsStatus_refl s'
  · intro s t i s' t' others _ ht _ _ hresume
    exact resume_keepsStatus ht hresume
  · intro s e s' _ h
    cases h

/-! ## Runs of the simulator -/

/-- A `create` from its call to its end. -/
def creation : List (Event Call Input Empty) :=
  [.call (.create (objectId 'a') "did:iota:a" pauseRequest 0 ""), .resume 0 (.done 0),
   .resume 0 (.done 0), .resume 0 (.done 0), .resume 0 (.done 0), .resume 0 (.done 0),
   .resume 0 (.done 0), .resume 0 (.done 0)]

/-- The device reports the end of the command on the result topic of its Twin. -/
def successMessage : Call :=
  .message "device" (concreteResultTopic simulatorConfig.resultTopic (objectId 'a')
      simulatorCommandId)
    (.object [("commandId", .string simulatorCommandId), ("twinId", .string (objectId 'a')),
      ("status", .string "succeeded")]) 0

/-- The report is read and stored. -/
def report : List (Event Call Input Empty) :=
  [.call successMessage, .resume 1 (.done 0), .resume 1 (.done 0)]

theorem step_creation : simulatorMachine.step ⟨.load [], []⟩
    (.call (.create (objectId 'a') "did:iota:a" pauseRequest 0 "")) =
      some ⟨.load [], [.checking (simulatorRecord (objectId 'a') "did:iota:a")]⟩ := by
  simp [Machine.step, call_pauseRequest]

/-- What the report says. -/
def simulatorSuccess : Result := ⟨objectId 'a', simulatorCommandId, .succeeded, none, none⟩

theorem parseResult_success [Runtime] {topic twinId commandId : String} {now : Nat} (hcommand : commandId ≠ "")
    (htwin : twinId ≠ "") :
    parseResult (.object [("topic", .string topic),
        ("value", .object [("commandId", .string commandId), ("twinId", .string twinId), ("status", .string "succeeded")]),
        ("observedAt", .number now)]) = .ok (some ⟨twinId, commandId, .succeeded, none, none⟩) := by
  have hmissing : (decide (commandId = "") || decide (twinId = "")) = false := by simp [hcommand, htwin]
  show (if decide (commandId = "") || decide (twinId = "") then _ else _) = _
  rw [hmissing]
  rfl

/-- The report is read, whatever the state and the tasks are. -/
theorem step_report (s : Service) (tasks : List Task) :
    simulatorMachine.step ⟨s, tasks⟩ (.call successMessage) = some ⟨s, tasks ++ [.reading
      (concreteResultTopic simulatorConfig.resultTopic (objectId 'a') simulatorCommandId) simulatorSuccess]⟩ := by
  have hslash : '/' ∉ (objectId 'a').toList := by
    simp only [objectId, String.toList_append, String.toList_ofList, String.reduceToList]
    simp
  have hcommand : simulatorCommandId ≠ "" := by
    intro h
    have hnil := congrArg String.toList h
    rw [toList_simulatorCommandId] at hnil
    cases hnil
  have htwin : objectId 'a' ≠ "" := by simp [objectId]
  have hmatch := mqttMatch_concreteResultTopic hslash
  simp only [simulatorSuccess, Machine.step, successMessage, simulatorMachine, machine]
  generalize concreteResultTopic simulatorConfig.resultTopic (objectId 'a') simulatorCommandId = topic at hmatch ⊢
  generalize objectId 'a' = twinId at htwin ⊢
  generalize simulatorCommandId = commandId at hcommand ⊢
  simp only [call, hmatch, Bool.and_self, if_true, acceptResult,
    @parseResult_success Runtime.ascii topic _ _ 0 hcommand htwin, Option.map_some]

/-- A command that is still open will be stored with what is read of it. -/
theorem step_reading {s : Service} {m : Result} {r : CommandRecord} (t : Task) (topic : String)
    (hfind : s.find m.twinId m.commandId = some r) (hopen : r.status.final = false) :
    simulatorMachine.step ⟨s, [t, .reading topic m]⟩ (.resume 1 (.done 0)) =
      some ⟨s, [t, .putting (.result topic) (r.accept m 0)]⟩ := by
  simp [Machine.step, simulatorMachine, machine, resume, hfind, hopen]

theorem step_storing (s : Service) (t : Task) (w : Writer) (r : CommandRecord) :
    simulatorMachine.step ⟨s, [t, .putting w r]⟩ (.resume 1 (.done 0)) = some ⟨s.set r, [t, .saving r]⟩ := rfl

def createdRecord : CommandRecord := simulatorRecord (objectId 'a') "did:iota:a"

/-- The state once the request is published, and once it is stored that it was. -/
def publishedService : Service := ((Service.load []).set createdRecord).publish createdRecord

def dispatchedService : Service := publishedService.set (createdRecord.dispatch 0)

theorem find_createdRecord (s : Service) (r : CommandRecord) (htwin : r.twinId = createdRecord.twinId)
    (hid : r.commandId = createdRecord.commandId) :
    (s.set r).find simulatorSuccess.twinId simulatorSuccess.commandId = some r := by
  rw [show simulatorSuccess.twinId = r.twinId from htwin.symm, show simulatorSuccess.commandId = r.commandId from hid.symm]
  simp [Service.find]

theorem run_creation : simulatorMachine.run ⟨.load [], []⟩ creation =
    some ⟨dispatchedService, [.returned (createdRecord.dispatch 0)]⟩ := by
  have hrest (r : CommandRecord) : simulatorMachine.run ⟨.load [], [.checking r]⟩
      (List.replicate 7 (.resume 0 (.done 0))) =
        some ⟨(((Service.load []).set r).publish r).set (r.dispatch 0), [.returned (r.dispatch 0)]⟩ := rfl
  exact (Machine.run_cons _ step_creation _).trans (hrest _)

theorem final_absorbing_report :
    ∃ c c', simulatorMachine.run ⟨.load [], []⟩ creation = some c ∧
      simulatorMachine.run c report = some c' ∧
      ((c'.shared.record? simulatorCommandId).map (·.status)) = some .succeeded ∧
      KeepsStatus c.shared c'.shared := by
  have halone : ∀ s t i, StoresSettled s t [] i := fun _ _ _ _ _ _ h => absurd h List.not_mem_nil
  have hmeets : simulatorMachine.Meets StoresSettled ⟨.load [], []⟩ creation :=
    .cons step_creation trivial (Machine.meets_alone (fun _ i _ s t => halone s t i) (le_refl 1) (by simp))
  obtain ⟨c', hc', hstatus, hmeets'⟩ : ∃ c',
      simulatorMachine.run ⟨dispatchedService, [.returned (createdRecord.dispatch 0)]⟩ report = some c' ∧
      ((c'.shared.record? simulatorCommandId).map (·.status)) = some .succeeded ∧
      simulatorMachine.Meets StoresSettled ⟨dispatchedService, [.returned (createdRecord.dispatch 0)]⟩ report := by
    have hreport := step_report dispatchedService [.returned (createdRecord.dispatch 0)]
    have hreading (topic : String) := step_reading (.returned (createdRecord.dispatch 0)) topic
      (find_createdRecord publishedService (createdRecord.dispatch 0) rfl rfl) rfl
    refine ⟨_, (Machine.run_cons _ hreport _).trans
      ((Machine.run_cons _ (hreading _) _).trans (Machine.run_cons _ (step_storing ..) _)), ?_, ?_⟩
    · exact congrArg (Option.map (·.status)) (Service.record?_set_self dispatchedService _)
    · refine .cons hreport trivial (.cons (hreading _) ?_ (.cons (step_storing ..) ?_ trivial))
      all_goals
        intro t ht r hr u hu r' hr'
        -- the `create` is at its end and holds nothing
        obtain rfl := List.mem_singleton.mp hu
        cases hr'
  exact ⟨_, c', run_creation, hc', hstatus,
    @final_absorbing Runtime.ascii _ _ _ _ [] creation report _ c' run_creation hmeets hc' hmeets'⟩

/-- The device reports the end of the command before the broker has acknowledged the
request. -/
def earlyReport : List (Event Call Input Empty) := creation.take 5 ++ report

/-- The `create` goes on to its last write. -/
def lateDispatch : List (Event Call Input Empty) := creation.drop 5

theorem run_earlyReport : simulatorMachine.run ⟨.load [], []⟩ earlyReport =
    some ⟨publishedService.set (createdRecord.accept simulatorSuccess 0),
      [.publishing createdRecord, .saving (createdRecord.accept simulatorSuccess 0)]⟩ := by
  have hrest (r : CommandRecord) : simulatorMachine.run ⟨.load [], [.checking r]⟩
      (List.replicate 4 (.resume 0 (.done 0))) =
        some ⟨((Service.load []).set r).publish r, [.publishing r]⟩ := rfl
  have hfind : publishedService.find simulatorSuccess.twinId simulatorSuccess.commandId = some createdRecord :=
    find_createdRecord (.load []) createdRecord rfl rfl
  have hreading (topic : String) := step_reading (.publishing createdRecord) topic hfind rfl
  refine (Machine.run_append _ ((Machine.run_cons _ step_creation _).trans (hrest _)) report).trans ?_
  exact (Machine.run_cons _ (step_report ..) _).trans
    ((Machine.run_cons _ (hreading _) _).trans (Machine.run_cons _ (step_storing ..) _))

theorem final_overwritten :
    ∃ c c', simulatorMachine.run ⟨.load [], []⟩ earlyReport = some c ∧
      simulatorMachine.run c lateDispatch = some c' ∧
      ((c.shared.record? simulatorCommandId).map (·.status)) = some .succeeded ∧
      ((c'.shared.record? simulatorCommandId).map (·.status)) = some .dispatched ∧
      ¬ KeepsStatus c.shared c'.shared := by
  have hrest (s : Service) (r : CommandRecord) (t : Task) : simulatorMachine.run ⟨s, [.publishing r, t]⟩ lateDispatch =
      some ⟨s.set (r.dispatch 0), [.returned (r.dispatch 0), t]⟩ := rfl
  have hrecord (s : Service) {r : CommandRecord} (h : r.commandId = simulatorCommandId) :
      (s.set r).record? simulatorCommandId = some r := by
    rw [← h]
    exact Service.record?_set_self s r
  refine ⟨_, _, run_earlyReport, hrest .., congrArg (Option.map (·.status)) (hrecord _ rfl),
    congrArg (Option.map (·.status)) (hrecord _ rfl), fun hkeeps => ?_⟩
  obtain ⟨r, hr, hfinal, -⟩ := hkeeps simulatorCommandId _ (hrecord _ rfl)
  rw [hrecord _ rfl] at hr
  obtain rfl := Option.some.inj hr
  have hstatus : CommandStatus.dispatched = .succeeded := (hfinal rfl).1
  cases hstatus

end Commands
