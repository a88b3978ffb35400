-- SUMMARY: Which messages change the status of a command, in runs where messages name the command of their topic.
import TwinServer.Commands.Dispatch
import TwinServer.Security.Tenants

/-!
# Command results

The broker decides by topic who may publish, the connector matches the topic against
the result subscription, and the handler decides by the payload alone. When every
message that names an open command arrives on the result topic of that command, a
status changes through the handler only by a message on the topic of its own Twin.
-/

open Js Js.Json Async

namespace Commands

/-! ## The condition -/

/-- A message that names an open command has arrived on the result topic of the
command. -/
def OnOwnTopic (config : CommandConfig) : Guard Service Task Input := fun s t _ _ =>
  ∀ topic m, t = .reading topic m → ∀ r, s.find m.twinId m.commandId = some r →
    r.status.final = false →
    topic = concreteResultTopic config.resultTopic r.twinId r.commandId

/-! ## The invariant -/

/-- What a handler will store belongs to the topic of its message. -/
def Task.Own (config : CommandConfig) : Task → Prop
  | .putting (.result topic) r =>
    topic = concreteResultTopic config.resultTopic r.twinId r.commandId
  | _ => True

/-- The topic of the message a task handles. -/
def Task.topic? : Task → Option String
  | .reading topic _ | .putting (.result topic) _ => some topic
  | _ => none

theorem Task.own_of_topic? {config : CommandConfig} {t : Task} (h : t.topic? = none) :
    t.Own config := by
  cases t with
  | putting w r =>
    cases w with
    | result topic => cases h
    | dispatch | expiry => trivial
  | _ => trivial

theorem Task.topic?_of_over {t : Task} (h : t.over) : t.topic? = none := by
  cases t with
  | returned | ignored | threw => rfl
  | _ => cases h

/-! ## The segments -/

theorem resume_own {config : CommandConfig} {s s' : Service} {t t' : Task} {i : Input}
    {others : List Task} (hguard : OnOwnTopic config s t others i)
    (hresume : resume s t i = some (s', t')) : t'.Own config := by
  cases segment_of_resume hresume with
  | @answered topic m r now hfind hopen => exact hguard topic m rfl r hfind hopen
  | free | inserted | persisted | published | acknowledged | overdue | written => trivial
  | ended hover => exact Task.own_of_topic? (Task.topic?_of_over hover)

/-- A segment keeps the topic of the message, or is done with it. -/
theorem resume_topic? {s s' : Service} {t t' : Task} {i : Input}
    (hresume : resume s t i = some (s', t')) {topic : String} (h : t'.topic? = some topic) :
    t.topic? = some topic := by
  cases segment_of_resume hresume with
  | answered => exact h
  | free | inserted | persisted | published | acknowledged | overdue | written => cases h
  | ended hover =>
    rw [Task.topic?_of_over hover] at h
    cases h

section
variable [Runtime] {config : CommandConfig} {lib : Library} {writable : Bool}
  {mayPublish : String → String → Bool}

theorem call_own {s s' : Service} {k : Call} {t : Task}
    (hcall : call config lib writable mayPublish s k = some (s', t)) : t.Own config := by
  obtain ⟨-, hcases⟩ := call_cases hcall
  rcases hcases with ⟨r, rfl, -⟩ | ⟨twinId, commandId, rfl⟩ | ⟨topic, m, rfl, -⟩ | hover
  · trivial
  · trivial
  · trivial
  · exact Task.own_of_topic? (Task.topic?_of_over hover)

/-- A handler starts with a message that the broker let through. -/
theorem call_topic? {s s' : Service} {k : Call} {t : Task}
    (hcall : call config lib writable mayPublish s k = some (s', t)) {topic : String}
    (h : t.topic? = some topic) :
    ∃ user value now, k = .message user topic value now ∧ mayPublish user topic := by
  cases k with
  | create twinId callerDid input now uuid =>
    simp only [call] at hcall
    split at hcall
    all_goals
      obtain ⟨-, rfl⟩ := Prod.mk.inj (Option.some.inj hcall)
      cases h
  | get twinId commandId =>
    obtain ⟨-, rfl⟩ := Prod.mk.inj (Option.some.inj hcall)
    cases h
  | message user topic' value now =>
    simp only [call] at hcall
    split at hcall
    case isFalse => cases hcall
    case isTrue hmay =>
      obtain ⟨-, rfl⟩ := Prod.mk.inj (Option.some.inj hcall)
      rw [Bool.and_eq_true] at hmay
      have htopic : topic' = topic := by
        simp only [acceptResult] at h
        split at h
        case h_1 => cases h
        case h_2 => cases h
        case h_3 => exact Option.some.inj h
      subst htopic
      exact ⟨user, value, now, rfl, hmay.1⟩

theorem own_modular :
    Modular (machine config lib writable mayPublish) (OnOwnTopic config) (fun _ => True)
      (fun _ t => t.Own config) (fun _ _ => True) where
  symm _ := trivial
  call _ hcall := ⟨trivial, call_own hcall, fun _ hu => ⟨hu, trivial⟩⟩
  resume _ _ hothers hguard hresume :=
    ⟨trivial, resume_own hguard hresume, fun u hu => ⟨(hothers u hu).1, trivial⟩⟩
  env _ h := by cases h

/-- The topic of a task is the one of a message of the run. -/
theorem message_of_topic? {s : Service} {es : List (Event Call Input Empty)}
    {c : Config Service Task}
    (hrun : (machine config lib writable mayPublish).run ⟨s, []⟩ es = some c) {t : Task}
    (ht : t ∈ c.tasks) {topic : String} (htopic : t.topic? = some topic) :
    ∃ user value now, .call (.message user topic value now) ∈ es ∧ mayPublish user topic := by
  obtain ⟨k, hk, hP⟩ := Machine.task_origin
    (P := fun k t => ∀ topic, t.topic? = some topic →
      ∃ user value now, k = Call.message user topic value now ∧ mayPublish user topic)
    (fun hcall topic h => call_topic? hcall h)
    (fun hP hresume topic h => hP topic (resume_topic? hresume h)) rfl hrun ht
  obtain ⟨user, value, now, rfl, hmay⟩ := hP topic htopic
  exact ⟨user, value, now, hk, hmay⟩

end

/-! ## Runs -/

/-- In every run in which messages that name an open command arrive on its topic, and in
which ids are inserted alone, a handler changes the status of a command only for a
message on the result topic of the command's own Twin, published by a user the broker
lets publish there. -/
theorem results_authentic [Runtime] (config : CommandConfig) (lib : Library) (writable : Bool)
    (mayPublish : String → String → Bool) (data : List CommandRecord)
    {es : List (Event Call Input Empty)} {c c' : Config Service Task}
    (hrun : (machine config lib writable mayPublish).run ⟨.load data, []⟩ es = some c)
    (hmeets : (machine config lib writable mayPublish).Meets
      (InsertsAlone.and (OnOwnTopic config)) ⟨.load data, []⟩ es)
    {n : Nat} {i : Input} (hstep : (machine config lib writable mayPublish).step c (.resume n i) = some c')
    {topic : String} {u : CommandRecord} (htask : c.tasks[n]? = some (.putting (.result topic) u))
    {k : String} {r r' : CommandRecord} (hr : c.shared.record? k = some r)
    (hr' : c'.shared.record? k = some r') (hchanged : r'.status ≠ r.status) :
    topic = concreteResultTopic config.resultTopic r.twinId k ∧
      ∃ user value now, .call (.message user topic value now) ∈ es ∧ mayPublish user topic := by
  have hholds := (dispatch_modular.and own_modular).run
    (Holds.init ⟨dispatched_load data, trivial⟩) hmeets hrun
  obtain ⟨⟨r₀, hr₀, hsame⟩, hown⟩ := hholds.tasks _ (List.mem_of_getElem? htask)
  obtain ⟨t, s, t', ht, hresume, rfl⟩ := Machine.step_resume hstep
  obtain rfl := Option.some.inj (htask.symm.trans ht)
  refine ⟨?_, ?_⟩
  · cases segment_of_resume hresume with
    | ended =>
      rw [hr] at hr'
      obtain rfl := Option.some.inj hr'
      exact absurd rfl hchanged
    | written =>
      rw [Service.record?_set] at hr'
      split at hr'
      case isTrue hk =>
        subst hk
        obtain rfl := Option.some.inj (hr₀.symm.trans hr)
        rw [hsame.2.1]
        exact hown
      case isFalse =>
        rw [hr] at hr'
        obtain rfl := Option.some.inj hr'
        exact absurd rfl hchanged
  · exact message_of_topic? hrun (List.mem_of_getElem? htask) rfl

/-! ## Two Twins of one plant -/

/-- A device credential of a Twin. -/
def deviceCredential (user twinId : String) : Security.TwinDeviceCredential where
  bootstrap := false
  twinId := twinId
  username := user
  version := 1
  rotatedAt := 0

/-- Two Twins, each with the user of its device. -/
def deviceTenants : List Security.TenantDefinition :=
  [Security.plantTenant "plant" 'a'
    [deviceCredential "device-a" (objectId 'a'), deviceCredential "device-b" (objectId 'b')]]

/-- What the generated access list lets a user publish. -/
def deviceMayPublish : String → String → Bool :=
  Security.mayPublish (Security.aclLines Security.plantProvisioning deviceTenants)

/-- The result topic of a Twin for the command of the simulator. -/
def deviceTopic (twinId : String) : String :=
  concreteResultTopic simulatorConfig.resultTopic twinId simulatorCommandId

/-- The levels of a result topic around the Twin id. -/
def deviceLevels (twinId : String) : List String :=
  ["objectid", "twins", twinId, "commands", .ofList (.replicate 36 'a'), "result"]

theorem slash_notMem_objectId (digit : Char) (h : digit ≠ '/') : '/' ∉ (objectId digit).toList := by
  simp only [objectId, String.toList_append, String.toList_ofList, String.reduceToList]
  simp [h.symm]

theorem levels_deviceTopic :
    Mqtt.levels (deviceTopic (objectId 'a')) = deviceLevels (objectId 'a') ∧
      Mqtt.levels (deviceTopic (objectId 'b')) = deviceLevels (objectId 'b') :=
  ⟨levels_concreteResultTopic (slash_notMem_objectId 'a' (by decide)),
    levels_concreteResultTopic (slash_notMem_objectId 'b' (by decide))⟩

theorem matchLevels_deviceLevels (twinId : String) :
    Mqtt.matchLevels (Mqtt.levels simulatorConfig.resultTopic) (deviceLevels twinId) := by
  have hlevels : Mqtt.levels simulatorConfig.resultTopic =
      ["objectid", "twins", "+", "commands", "+", "result"] := by decide
  rw [hlevels]
  simp [deviceLevels, Mqtt.matchLevels]

theorem deviceMayPublish_own : deviceMayPublish "device-a" (deviceTopic (objectId 'a')) := by
  have hlines : Security.topicsOf "device-a" false
      (Security.aclLines Security.plantProvisioning deviceTenants) =
        Security.topicsOf "device-a" true
          (Security.twinTopics Security.plantProvisioning "plant" (objectId 'a')) := by
    decide
  have hmem : (Security.Access.write, "objectid/twins/" ++ objectId 'a' ++ "/commands/+/result") ∈
      Security.topicsOf "device-a" true
        (Security.twinTopics Security.plantProvisioning "plant" (objectId 'a')) := by
    decide
  rw [← hlines] at hmem
  refine Security.mayPublish_of_mem hmem (by decide) ?_
  have hfilter : Mqtt.levels ("objectid/twins/" ++ objectId 'a' ++ "/commands/+/result") =
      ["objectid", "twins", objectId 'a', "commands", "+", "result"] := by
    have hslash := slash_notMem_objectId 'a' (by decide)
    generalize objectId 'a' = twinId at hslash ⊢
    have hsplit : "objectid/twins/" ++ twinId ++ "/commands/+/result" =
        "objectid/twins" ++ "/" ++ twinId ++ "/" ++ "commands/+/result" := by
      apply String.toList_inj.mp
      simp
    have htwins : Mqtt.levels "objectid/twins" = ["objectid", "twins"] := by decide
    have hresult : Mqtt.levels "commands/+/result" = ["commands", "+", "result"] := by decide
    rw [hsplit, Mqtt.levels_append, Mqtt.levels_append, htwins, hresult, Mqtt.levels_of_not_mem hslash]
    rfl
  have hstart : startsWith (deviceTopic (objectId 'a')) "$" = false := by
    simp only [startsWith, deviceTopic, concreteResultTopic_simulator, String.toList_append, String.reduceToList]
    rfl
  rw [Mqtt.filterMatches, hfilter, levels_deviceTopic.1, hstart]
  simp [deviceLevels, Mqtt.filterLevels]

/-- A command of the second Twin that was handed to the broker. -/
def pendingRecord : CommandRecord where
  commandId := simulatorCommandId
  twinId := objectId 'b'
  interfaceId := "urn:objectid:interface:simulator-control:v1"
  command := { name := "pauseSimulation", version := "1.0", parameters := .object [] }
  requestedBy := "did:iota:b"
  requestedAt := 0
  expiresAt := 30000
  proof := none
  idempotencyKey := simulatorCommandId
  correlationId := none
  status := .dispatched
  statusUpdatedAt := 0
  transport :=
    { requestTopic := "objectid/twins/" ++ objectId 'b' ++ "/commands/request",
      resultTopic := deviceTopic (objectId 'b') }

/-- The report that the command has succeeded. -/
def successResult : Result where
  twinId := objectId 'b'
  commandId := simulatorCommandId
  status := .succeeded
  result := none
  error := none

/-- The command after the report. -/
def succeededRecord : CommandRecord := pendingRecord.accept successResult 0

/-- A user reports on a topic that the second Twin's command has succeeded. -/
def deviceReport (user topic : String) : Call :=
  .message user topic (.object [("commandId", .string simulatorCommandId),
    ("twinId", .string (objectId 'b')), ("status", .string "succeeded")]) 0

/-- The server with one pending command, when a report about it is being handled. -/
def reportConfig (t : Task) : Config Service Task where
  shared := .load [pendingRecord]
  tasks := [t]

/-- A report that the broker lets through is read, whatever its topic. -/
theorem step_deviceReport {mayPublish : String → String → Bool} {user topic : String}
    (hmay : mayPublish user topic) (hmatch : Mqtt.mqttMatch simulatorConfig.resultTopic topic) :
    (@machine Runtime.ascii simulatorConfig simulatorLibrary true mayPublish).step
      ⟨.load [pendingRecord], []⟩ (.call (deviceReport user topic)) =
        some (reportConfig (.reading topic successResult)) := by
  simp only [Machine.step, machine, deviceReport, call, hmay, hmatch, Bool.and_self, if_true]
  rfl

/-- It is about to be stored. -/
theorem run_deviceReport {mayPublish : String → String → Bool} {user topic : String}
    (hmay : mayPublish user topic) (hmatch : Mqtt.mqttMatch simulatorConfig.resultTopic topic) :
    (@machine Runtime.ascii simulatorConfig simulatorLibrary true mayPublish).run
      ⟨.load [pendingRecord], []⟩ [.call (deviceReport user topic), .resume 0 (.done 0)] =
        some (reportConfig (.putting (.result topic) succeededRecord)) := by
  rw [Machine.run, step_deviceReport hmay hmatch]
  rfl

/-- It is stored. -/
theorem step_putting (mayPublish : String → String → Bool) (topic : String) :
    ∃ c, (@machine Runtime.ascii simulatorConfig simulatorLibrary true mayPublish).step
        (reportConfig (.putting (.result topic) succeededRecord)) (.resume 0 (.done 0)) = some c ∧
      c.shared.record? simulatorCommandId = some succeededRecord :=
  ⟨_, rfl, rfl⟩

theorem results_authentic_report :
    deviceTopic (objectId 'b') = concreteResultTopic simulatorConfig.resultTopic
        pendingRecord.twinId simulatorCommandId ∧
      ∃ user value now, Event.call (.message user (deviceTopic (objectId 'b')) value now) ∈
      [(.call (deviceReport "device-b" (deviceTopic (objectId 'b'))) :
        Event Call Input Empty), .resume 0 (.done 0)] := by
  have hmatch : Mqtt.mqttMatch simulatorConfig.resultTopic (deviceTopic (objectId 'b')) := by
    rw [Mqtt.mqttMatch, levels_deviceTopic.2]
    exact matchLevels_deviceLevels _
  have hmeets : simulatorMachine.Meets (InsertsAlone.and (OnOwnTopic simulatorConfig))
      ⟨.load [pendingRecord], []⟩
      [.call (deviceReport "device-b" (deviceTopic (objectId 'b'))), .resume 0 (.done 0)] := by
    refine .cons (step_deviceReport rfl hmatch) trivial ⟨?_, fun _ _ => trivial⟩
    intro t ht
    obtain rfl := Option.some.inj ht
    refine ⟨fun r h => by (cases h), fun topic m h r hfind _ => ?_⟩
    obtain ⟨rfl, rfl⟩ := Task.reading.inj h
    obtain rfl := Option.some.inj hfind
    rfl
  obtain ⟨c, hstep, hr'⟩ := step_putting (fun _ _ => true) (deviceTopic (objectId 'b'))
  obtain ⟨htopic, user, value, now, hmem, -⟩ :=
    @results_authentic Runtime.ascii simulatorConfig simulatorLibrary true (fun _ _ => true)
      [pendingRecord] _ _ c (run_deviceReport rfl hmatch) hmeets 0 (.done 0) hstep _ _ rfl _
      pendingRecord succeededRecord rfl hr' (by decide)
  exact ⟨htopic, user, value, now, hmem⟩

/-- The device of the first Twin completes the second's command on a topic of its own. -/
theorem foreign_result_accepted :
    ∃ c c' u r r', (@machine Runtime.ascii simulatorConfig simulatorLibrary true
          deviceMayPublish).run ⟨.load [pendingRecord], []⟩
        [.call (deviceReport "device-a" (deviceTopic (objectId 'a'))), .resume 0 (.done 0)] =
          some c ∧
      (@machine Runtime.ascii simulatorConfig simulatorLibrary true deviceMayPublish).step c
        (.resume 0 (.done 0)) = some c' ∧
      c.tasks[0]? = some (.putting (.result (deviceTopic (objectId 'a'))) u) ∧
      c.shared.record? simulatorCommandId = some r ∧
      c'.shared.record? simulatorCommandId = some r' ∧ r.twinId = objectId 'b' ∧
      r.status = .dispatched ∧ r'.status = .succeeded ∧
      deviceTopic (objectId 'a') ≠ deviceTopic r.twinId := by
  have hmatch : Mqtt.mqttMatch simulatorConfig.resultTopic (deviceTopic (objectId 'a')) := by
    rw [Mqtt.mqttMatch, levels_deviceTopic.1]
    exact matchLevels_deviceLevels _
  have hne : deviceTopic (objectId 'a') ≠ deviceTopic (objectId 'b') := by
    intro heq
    have hlevels := congrArg Mqtt.levels heq
    rw [levels_deviceTopic.1, levels_deviceTopic.2] at hlevels
    exact absurd hlevels (by decide)
  obtain ⟨c, hstep, hr'⟩ := step_putting deviceMayPublish (deviceTopic (objectId 'a'))
  exact ⟨_, c, succeededRecord, pendingRecord, succeededRecord,
    run_deviceReport deviceMayPublish_own hmatch, hstep, rfl, rfl, hr', rfl, rfl, rfl, hne⟩

end Commands
