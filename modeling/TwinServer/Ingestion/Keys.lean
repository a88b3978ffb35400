-- SUMMARY: No job of another message is taken for a committed one exactly when the keys of the connector messages are distinct.
import Mathlib.Data.List.Perm.Subperm
import TwinServer.Base.Serial
import TwinServer.Base.Simulation
import TwinServer.Ingestion.Ambiguity

/-!
# The keys of connector messages

`src/twin/mqttMapping.ts` and `ingestMqttMessage` of `src/api/app.ts`. A message of a
connector becomes a job whose idempotency key names the Twin, the source and the
millisecond of the message. The lookup after an ambiguous failure finds a mutation by
that key, whichever message it came from.
-/

open Js Async Ledger Security

namespace Ingestion

/-! ## From messages to jobs -/

inductive MappingMode where
  | state | dataset
  deriving DecidableEq

/-- `MqttMapping` and `OpcUaMapping`. -/
structure Mapping where
  twinId : String
  mode : Option MappingMode := none
  aspect : Option String := none
  sampleType : Option String := none

/-- The value is `undefined` or JSON. -/
structure MappedMqttMessage where
  mapping : Mapping
  topic : Option String := none
  nodeId : Option String := none
  value : Option Json
  observedAt : Number

/-- What a message makes of a Twin: a state and the key under which it is published. -/
structure Publication where
  twinId : String
  state : Record Json
  idempotencyKey : String

def missing (field : Option String) : Bool := field.getD "" == ""

def publicConnectorUri (message : MappedMqttMessage) : String :=
  if missing message.nodeId then "objectid-connector://mqtt" else "objectid-connector://opcua"

section
variable [Runtime] (sha256 : String → String)

def mqttMessageToState (message : MappedMqttMessage) : Except Raised (String × Record Json) :=
  let { twinId, mode, aspect, sampleType } := message.mapping
  if mode.getD .state ≠ .state then
    .error (.app { code := "MQTT_MAPPING_MODE_INVALID", message := "Dataset mappings cannot be converted to state",
                   status := 422, category := .CONNECTOR })
  else if twinId == "" || missing aspect || missing sampleType then
    .error (.app { code := "MQTT_MAPPING_INVALID", message := "MQTT mapping requires twinId, aspect and sampleType",
                   status := 422, category := .CONNECTOR })
  else match message.value with
    | none => .error (.native "TypeError" ("The \"data\" argument must be of type string or an instance of " ++
        "Buffer, TypedArray, or DataView. Received undefined"))
    | some value => .ok (twinId, [("aspectCode", .string (aspect.getD "")),
        ("sampleType", .string (sampleType.getD "")),
        ("sourceUri", .string (publicConnectorUri message)),
        ("payloadHash", .string (sha256 value.stringify)), ("payloadInline", .string ""),
        ("observedAt", .number message.observedAt)])

def connectorKey (twinId : String) (message : MappedMqttMessage) : String :=
  let source := (message.topic.or message.nodeId).getD "unknown"
  "connector-state:" ++ twinId ++ ":" ++ source ++ ":" ++ numberToString message.observedAt

/-- What is published of a message; a dataset goes to the aggregator. -/
def ingestMqttMessage (message : MappedMqttMessage) : Except Raised (Option Publication) :=
  if message.mapping.mode = some .dataset then .ok none
  else do
    let (twinId, state) ← mqttMessageToState sha256 message
    pure (some ⟨twinId, state, connectorKey twinId message⟩)

def createJob (type : IngestionJobType) (twinId : String) (payload : Record Json)
    (idempotencyKey : String) (accounting : Option AccountingContext) (id : String)
    (createdAt : Nat) : IngestionJob :=
  { id, idempotencyKey, type, twinId, payload, attempts := 0, createdAt, accounting }

/-- The publications of messages, of those that can be published. -/
def publications (messages : List MappedMqttMessage) : List Publication :=
  messages.filterMap fun message => (ingestMqttMessage sha256 message).toOption.join

end

/-! ## The property -/

/-- The jobs that are enqueued. -/
def enqueues (es : List (Event Call Input Nat)) : List IngestionJob := es.filterMap fun
  | .call (.enqueue job) => some job
  | _ => none

/-- The job publishes the state. -/
def Publishes (job : IngestionJob) (p : Publication) : Prop :=
  ∃ accounting id createdAt,
    job = createJob .PUBLISH_STATE p.twinId p.state p.idempotencyKey accounting id createdAt

/-- The jobs of the run are those of publications, or of some of them, in some order. -/
def Ingests (ps : List Publication) (es : List (Event Call Input Nat)) : Prop :=
  ∃ qs, qs.Subperm ps ∧ List.Forall₂ Publishes (enqueues es) qs

/-- What the ledger finds a mutation by. -/
def IngestionJob.reference (job : IngestionJob) : String × String := (job.twinId, job.idempotencyKey)

def QueueItem.reference (item : QueueItem) : String × String := item.payload.reference

def Publication.reference (p : Publication) : String × String := (p.twinId, p.idempotencyKey)

/-- A lookup finds a mutation when one was committed under the key for the Twin. -/
def byReference : Guard Worker Task Input := fun w t _ i =>
  ∀ item found, t.phase = .looking item → i = .lookup (.ok (some found)) →
    (found = true ↔ ∃ other outcome, .ended other outcome ∈ w.journal ∧ outcome.committed ∧
      other.reference = item.reference)

/-- A job is taken for committed only if its own mutation was. -/
def Faithful (w : Worker) : Prop := ∀ k ∈ w.confirmed, 0 < commits k w.journal

/-- In every run of the jobs of the publications, whatever fails. -/
def NothingDropped (maxAttempts : ℕ+) (writer : Writer) (ps : List Publication) : Prop :=
  ∀ now es c, Ingests ps es →
    (ingestionWorker maxAttempts writer).Meets byReference ⟨.start now, []⟩ es →
    (ingestionWorker maxAttempts writer).run ⟨.start now, []⟩ es = some c → Faithful c.shared

/-! ## References along a run -/

/-- Every item has the reference of its ticket. -/
structure Referenced (refs : List (String × String)) (c : Config Worker Task) : Prop where
  queue : ∀ item ∈ c.shared.queue, refs[item.ticket]? = some item.reference
  tasks : ∀ t ∈ c.tasks, ∀ item, t.phase.held? = some item →
    refs[item.ticket]? = some item.reference
  ended : ∀ item outcome, .ended item outcome ∈ c.shared.journal →
    refs[item.ticket]? = some item.reference

section
variable {maxAttempts : ℕ+} {writer : Writer} {w w' : Worker}

/-- A segment meets no item but those it finds, and their next attempts. -/
theorem Segment.items {deadline : Option Nat} {phase phase' : Phase} {i : Input}
    (h : Segment maxAttempts writer w deadline phase i w' phase') (P : QueueItem → Prop)
    (hretry : ∀ item, P item → P item.retry) (hqueue : ∀ item ∈ w.queue, P item)
    (hheld : ∀ item, phase.held? = some item → P item)
    (hended : ∀ item outcome, .ended item outcome ∈ w.journal → P item) :
    (∀ item ∈ w'.queue, P item) ∧ (∀ item, phase'.held? = some item → P item) ∧
      ∀ item outcome, .ended item outcome ∈ w'.journal → P item := by
  have hsame : ∀ item, phase.held? = some item →
      ∀ item', some item = some item' → P item' := by
    intro item hitem item' heq
    exact Option.some.inj heq ▸ hheld item hitem
  -- a mark that is written, and the item it is about
  have hmark : ∀ (item : QueueItem) (mark : Mark), P item →
      (∀ item' outcome, mark = .ended item' outcome → item' = item) →
      ∀ item' outcome, .ended item' outcome ∈ (w.mark mark).journal → P item' := by
    intro item mark hitem hmark item' outcome hmem
    rcases List.mem_append.mp hmem with hmem | hmem
    · exact hended item' outcome hmem
    · exact hmark item' outcome (List.mem_singleton.mp hmem).symm ▸ hitem
  cases h with
  | accepted item =>
    exact ⟨List.forall_mem_append.mpr ⟨hqueue, List.forall_mem_singleton.mpr (hheld item rfl)⟩,
      fun _ h => (by cases h), hended⟩
  | back item =>
    exact ⟨List.forall_mem_append.mpr ⟨hqueue, List.forall_mem_singleton.mpr
      (hretry item (hheld item rfl))⟩, fun _ h => (by cases h), hended⟩
  | took hitem =>
    exact ⟨fun q hq => hqueue q ((List.eraseIdx_sublist _ _).subset hq),
      fun q hq => Option.some.inj hq ▸ hqueue _ (List.mem_of_getElem? hitem), hended⟩
  | tested htests htested => exact ⟨hqueue, fun _ h => (by cases htested <;> cases h), hended⟩
  | finished hphase =>
    refine ⟨hqueue, fun _ h => ?_, hended⟩
    obtain rfl | ⟨error, rfl⟩ := hphase <;> cases h
  | declined | failed | nothing | idle | dropped => exact ⟨hqueue, fun _ h => (by cases h), hended⟩
  | began item =>
    exact ⟨hqueue, hsame item rfl, hmark item _ (hheld item rfl) fun _ _ h => (by cases h)⟩
  | succeeded item | gaveUp =>
    refine ⟨hqueue, fun _ h => (by cases h), hmark _ _ (hheld _ rfl) fun _ _ h => ?_⟩
    exact (Mark.ended.inj h).1.symm
  | unsure | again =>
    refine ⟨hqueue, hsame _ rfl, hmark _ _ (hheld _ rfl) fun _ _ h => ?_⟩
    exact (Mark.ended.inj h).1.symm
  | missing item =>
    exact ⟨hqueue, hsame item rfl, hmark item _ (hheld item rfl) fun _ _ h => (by cases h)⟩
  | confirmed item | unavailable item | unanswered item =>
    exact ⟨hqueue, fun _ h => (by cases h),
      hmark item _ (hheld item rfl) fun _ _ h => (by cases h)⟩

/-- A job is confirmed by a lookup that has found its reference; the journal only grows. -/
theorem Segment.confirms {deadline : Option Nat} {phase phase' : Phase} {i : Input}
    (h : Segment maxAttempts writer w deadline phase i w' phase') :
    w.journal <+: w'.journal ∧ (w'.confirmed = w.confirmed ∨
      ∃ item, phase = .looking item ∧ i = .lookup (.ok (some true)) ∧
        w'.confirmed = w.confirmed ++ [item.ticket]) := by
  cases h with
  | confirmed item => exact ⟨List.prefix_append _ _, .inr ⟨item, rfl, rfl, rfl⟩⟩
  | began | succeeded | gaveUp | unsure | again | unavailable | missing | unanswered =>
    exact ⟨List.prefix_append _ _, .inl rfl⟩
  | accepted | declined | tested | failed | nothing | took | idle | back | dropped | finished =>
    exact ⟨List.prefix_rfl, .inl rfl⟩

theorem commits_mono {journal journal' : List Mark} (h : journal <+: journal') (k : Nat) :
    commits k journal ≤ commits k journal' := by
  obtain ⟨more, rfl⟩ := h
  unfold commits
  rw [List.countP_append]
  exact Nat.le_add_right _ _

theorem commits_pos {journal : List Mark} {item : QueueItem} {outcome : Outcome}
    (hmem : .ended item outcome ∈ journal) (hcommitted : outcome.committed) :
    0 < commits item.ticket journal := by
  refine List.countP_pos_iff.mpr ⟨_, hmem, ?_⟩
  simp [Mark.commits, hcommitted]

variable {refs : List (String × String)}

/-- One step of a run whose references are distinct. -/
theorem referenced_step (hrefs : refs.Nodup) {c c' : Config Worker Task}
    {e : Event Call Input Nat} (h : Referenced refs c) (hfaithful : Faithful c.shared)
    (hcall : ∀ job, e = .call (.enqueue job) → refs[c.shared.calls]? = some job.reference)
    (hallows : byReference.Allows c e)
    (hstep : (ingestionWorker maxAttempts writer).step c e = some c') :
    Referenced refs c' ∧ Faithful c'.shared := by
  cases e with
  | env ms =>
    obtain ⟨w, henv, rfl⟩ := Machine.step_env hstep
    obtain rfl := Option.some.inj henv
    exact ⟨⟨h.queue, h.tasks, h.ended⟩, hfaithful⟩
  | call k =>
    obtain ⟨w, t, hk, rfl⟩ := Machine.step_call hstep
    have htasks : (∀ item, t.phase.held? = some item → refs[item.ticket]? = some item.reference) →
        ∀ u ∈ c.tasks ++ [t], ∀ item, u.phase.held? = some item →
          refs[item.ticket]? = some item.reference := fun ht =>
      List.forall_mem_append.mpr ⟨h.tasks, List.forall_mem_singleton.mpr ht⟩
    cases k with
    | enqueue job =>
      obtain ⟨rfl, rfl⟩ := Prod.mk.inj (Option.some.inj hk)
      refine ⟨⟨h.queue, htasks fun item hitem => ?_, h.ended⟩, hfaithful⟩
      obtain rfl := Option.some.inj hitem
      exact hcall job rfl
    | processNext | drain =>
      obtain ⟨rfl, rfl⟩ := Prod.mk.inj (Option.some.inj hk)
      exact ⟨⟨h.queue, htasks fun item hitem => (by cases hitem), h.ended⟩, hfaithful⟩
  | resume n i =>
    obtain ⟨t, w', t', ht, hresume, rfl⟩ := Machine.step_resume hstep
    obtain ⟨-, hsegment⟩ := segment_of_resume maxAttempts writer hresume
    have hheld := h.tasks t (List.mem_of_getElem? ht)
    obtain ⟨hqueue', hheld', hended'⟩ := hsegment.items
      (fun item => refs[item.ticket]? = some item.reference) (fun _ hitem => hitem) h.queue hheld h.ended
    refine ⟨⟨hqueue', fun u hu => ?_, hended'⟩, fun k hk => ?_⟩
    · rcases List.mem_or_eq_of_mem_set hu with hu | rfl
      · exact h.tasks u hu
      · exact hheld'
    · obtain ⟨hjournal, hsame | ⟨item, hphase, hi, hconfirmed⟩⟩ := hsegment.confirms
      · refine Nat.lt_of_lt_of_le (hfaithful k ?_) (commits_mono hjournal k)
        exact hsame ▸ hk
      · show 0 < commits k w'.journal
        refine Nat.lt_of_lt_of_le ?_ (commits_mono hjournal k)
        rw [hconfirmed] at hk
        rcases List.mem_append.mp hk with hk | hk
        · exact hfaithful k hk
        · -- the mutation that was found has the reference, hence the ticket, of the job
          obtain rfl := List.mem_singleton.mp hk
          obtain ⟨other, outcome, hmem, hcommitted, href⟩ :=
            (hallows t ht item true hphase hi).mp rfl
          have hitem := hheld item (by rw [hphase]; rfl)
          have hother := h.ended other outcome hmem
          have hlt : item.ticket < refs.length := (List.getElem?_eq_some_iff.mp hitem).1
          have hsame : item.ticket = other.ticket := by
            refine (List.getElem?_inj hlt hrefs).mp ?_
            rw [hitem, hother, href]
          rw [hsame]
          exact commits_pos hmem hcommitted

/-- A step issues a ticket for each call of `enqueue`. -/
theorem calls_step {c c' : Config Worker Task} {e : Event Call Input Nat}
    (hstep : (ingestionWorker maxAttempts writer).step c e = some c') :
    c'.shared.calls = c.shared.calls + (enqueues [e]).length := by
  cases e with
  | env ms =>
    obtain ⟨w, henv, rfl⟩ := Machine.step_env hstep
    obtain rfl := Option.some.inj henv
    rfl
  | call k =>
    obtain ⟨w, t, hk, rfl⟩ := Machine.step_call hstep
    cases k <;> obtain ⟨rfl, rfl⟩ := Prod.mk.inj (Option.some.inj hk) <;> rfl
  | resume n i =>
    obtain ⟨t, w', t', ht, hresume, rfl⟩ := Machine.step_resume hstep
    obtain ⟨-, hsegment⟩ := segment_of_resume maxAttempts writer hresume
    cases hsegment.moves <;> assumption

theorem referenced_run (hrefs : refs.Nodup) {c c' : Config Worker Task}
    {es : List (Event Call Input Nat)} (h : Referenced refs c) (hfaithful : Faithful c.shared)
    (hcalls : ∀ i job, (enqueues es)[i]? = some job →
      refs[c.shared.calls + i]? = some job.reference)
    (hmeets : (ingestionWorker maxAttempts writer).Meets byReference c es)
    (hrun : (ingestionWorker maxAttempts writer).run c es = some c') : Faithful c'.shared := by
  induction es generalizing c with
  | nil =>
      obtain rfl := Option.some.inj hrun
      exact hfaithful
  | cons e es ih =>
      obtain ⟨hallows, hrest⟩ := hmeets
      obtain ⟨d, hstep, hrun⟩ := Option.bind_eq_some_iff.mp hrun
      obtain ⟨hreferenced, hfaithful'⟩ := referenced_step hrefs h hfaithful
        (fun job he => hcalls 0 job (by rw [he]; rfl)) hallows hstep
      refine ih hreferenced hfaithful' (fun i job hi => ?_) (hrest d hstep) hrun
      have hall : enqueues (e :: es) = enqueues [e] ++ enqueues es := List.filterMap_append (l := [e])
      have hjob := hcalls ((enqueues [e]).length + i) job ?_
      · rw [calls_step hstep, Nat.add_assoc]
        exact hjob
      · rw [hall, List.getElem?_append_right (Nat.le_add_right _ _), Nat.add_sub_cancel_left, hi]

/-- Distinct references keep every job from being taken for another one. -/
theorem faithful_of_nodup {ps : List Publication} {now : Nat} {es : List (Event Call Input Nat)}
    {c : Config Worker Task} (hrefs : (ps.map Publication.reference).Nodup) (hingests : Ingests ps es)
    (hmeets : (ingestionWorker maxAttempts writer).Meets byReference ⟨.start now, []⟩ es)
    (hrun : (ingestionWorker maxAttempts writer).run ⟨.start now, []⟩ es = some c) :
    Faithful c.shared := by
  obtain ⟨qs, ⟨ps', hperm, hsub⟩, hjobs⟩ := hingests
  have hqs : (qs.map Publication.reference).Nodup := by
    rw [← (hperm.map _).nodup_iff]
    exact hrefs.sublist (hsub.map _)
  have hstart : Referenced (qs.map Publication.reference) ⟨.start now, []⟩ := by
    refine ⟨fun item hitem => ?_, fun t ht => ?_, fun item outcome hmem => ?_⟩
    · cases hitem
    · cases ht
    · cases hmem
  refine referenced_run hqs hstart (fun k hk => by cases hk) (fun i job hi => ?_) hmeets hrun
  obtain ⟨p, hp, accounting, id, createdAt, rfl⟩ := forall₂_getElem? hjobs hi
  show (qs.map Publication.reference)[0 + i]? = some p.reference
  rw [Nat.zero_add, List.getElem?_map, hp, Option.map_some]

/-! ## One attempt -/

variable (writer) in
/-- With one attempt no job is looked up. -/
theorem confirms_nothing (hone : ¬ 1 < maxAttempts) :
    Modular (ingestionWorker maxAttempts writer) Guard.any (fun w => w.confirmed = [])
      (fun _ t => ∀ item, t.phase ≠ .looking item) (fun _ _ => True) where
  symm _ := trivial
  call {w k w' t} hw hcall := by
    cases k <;> obtain ⟨rfl, rfl⟩ := Prod.mk.inj (Option.some.inj hcall) <;>
      exact ⟨hw, fun item h => (by cases h), fun u hu => ⟨hu, trivial⟩⟩
  env hw henv := by
    obtain rfl := Option.some.inj henv
    exact ⟨hw, fun u hu => hu⟩
  resume {w t i w' t' others} hw ht hothers _ hresume := by
    obtain ⟨-, hsegment⟩ := segment_of_resume maxAttempts writer hresume
    obtain ⟨-, hsame | ⟨item, hphase, -⟩⟩ := hsegment.confirms
    · refine ⟨hsame.trans hw, fun item hphase' => ?_, fun u hu => ⟨(hothers u hu).1, trivial⟩⟩
      rw [hphase'] at hsegment
      generalize t.phase = phase at hsegment
      cases hsegment with
      | tested htests htested => cases htested
      | finished hphase => obtain h | ⟨error, h⟩ := hphase <;> cases h
      | unsure herror hretryable hmore hunknown =>
        refine hone (PNat.coe_lt_coe _ _ |>.mp ?_)
        exact Nat.lt_of_le_of_lt (Nat.le_add_left 1 _) hmore
    · exact absurd hphase (ht item)

/-! ## Two publications of one reference -/

/-- The jobs are enqueued one after the other. -/
def acceptAll (n : Nat) : List IngestionJob → List (Event Call Input Nat)
  | [] => []
  | job :: jobs => .call (.enqueue job) :: .resume n (.enqueued (.ok ())) :: acceptAll (n + 1) jobs

def itemsFrom (n : Nat) : List IngestionJob → List QueueItem
  | [] => []
  | job :: jobs => itemOf job n :: itemsFrom (n + 1) jobs

theorem getElem?_itemsFrom {jobs : List IngestionJob} {i : Nat} {job : IngestionJob}
    (h : jobs[i]? = some job) (n : Nat) : (itemsFrom n jobs)[i]? = some (itemOf job (n + i)) := by
  induction jobs generalizing i n with
  | nil => cases h
  | cons first jobs ih =>
      cases i with
      | zero =>
        obtain rfl := Option.some.inj h
        rfl
      | succ i =>
        rw [Nat.add_comm i 1, ← Nat.add_assoc]
        rw [show 1 + i = i + 1 from Nat.add_comm 1 i]
        exact ih h (n + 1)

theorem enqueues_acceptAll (n : Nat) (jobs : List IngestionJob) :
    enqueues (acceptAll n jobs) = jobs := by
  induction jobs generalizing n with
  | nil => rfl
  | cons job jobs ih => exact congrArg (job :: ·) (ih (n + 1))

variable (maxAttempts writer) in
theorem run_acceptAll (jobs : List IngestionJob) (w : Worker) (tasks : List Task)
    (hcalls : w.calls = tasks.length) :
    ∃ w' tasks', (ingestionWorker maxAttempts writer).run ⟨w, tasks⟩
        (acceptAll tasks.length jobs) = some ⟨w', tasks'⟩ ∧
      w'.queue = w.queue ++ itemsFrom tasks.length jobs ∧ w'.processing = w.processing ∧
      w'.journal = w.journal ∧ w'.confirmed = w.confirmed := by
  induction jobs generalizing w tasks with
  | nil => exact ⟨w, tasks, rfl, (List.append_nil _).symm, rfl, rfl, rfl⟩
  | cons job jobs ih =>
      let w₁ : Worker := { w with calls := w.calls + 1 }
      let w₂ : Worker :=
        { w₁ with queue := w.queue ++ [itemOf job w.calls], accepted := w.accepted ++ [w.calls] }
      have hcall : (ingestionWorker maxAttempts writer).step ⟨w, tasks⟩ (.call (.enqueue job)) =
          some ⟨w₁, tasks ++ [⟨none, .enqueueing (itemOf job w.calls)⟩]⟩ := rfl
      have hthread : (ingestionWorker maxAttempts writer).thread w₁
          ⟨none, .enqueueing (itemOf job w.calls)⟩ [.enqueued (.ok ())] =
          some (w₂, ⟨none, .enqueued⟩) := rfl
      have haccept := Machine.run_thread hthread tasks
      obtain ⟨w', tasks', hrun, hqueue, hrest⟩ := ih w₂ (tasks ++ [⟨none, .enqueued⟩])
        (by rw [List.length_append, List.length_singleton, ← hcalls])
      refine ⟨w', tasks', ?_, ?_, hrest⟩
      · rw [List.length_append, List.length_singleton] at hrun
        exact (Machine.run_cons _ hcall _).trans ((Machine.run_append _ haccept _).trans hrun)
      · rw [hqueue, List.length_append, List.length_singleton, List.append_assoc, hcalls]
        rfl

variable (maxAttempts writer) in
/-- A call takes an item, whose mutation is committed. -/
theorem thread_success {w : Worker} {k : Nat} {item : QueueItem} (hfree : w.processing = false)
    (hitem : w.queue[k]? = some item) :
    (ingestionWorker maxAttempts writer).thread w ⟨none, .started⟩
      [.go, .take (.ok (some k)), .go, .outcome .success, .go] =
    some ({ w with
        queue := w.queue.eraseIdx k
        taken := w.taken ++ [item]
        journal := w.journal ++ [.began item] ++ [.ended item .success]
        succeeded := w.succeeded ++ [item.ticket]
        processing := false }, ⟨none, .returned true⟩) := by
  simp only [Machine.thread, ingestionWorker, resume, hfree, hitem, Option.bind_some, Option.map_some,
    ended, Bool.false_eq_true, if_false]

variable (writer) in
/-- A call takes an item; the connection breaks while its mutation is submitted. -/
theorem thread_unsure {w : Worker} {k : Nat} {item : QueueItem} (hfree : w.processing = false)
    (hitem : w.queue[k]? = some item) (hmore : item.payload.attempts + 1 < maxAttempts) :
    (ingestionWorker maxAttempts writer).thread w ⟨none, .started⟩
      [.go, .take (.ok (some k)), .go, .outcome (.lost (.native "Error" "read ECONNRESET") false)] =
    some ({ w with
        queue := w.queue.eraseIdx k
        taken := w.taken ++ [item]
        journal := w.journal ++ [.began item] ++
          [.ended item (.lost (.native "Error" "read ECONNRESET") false)]
        processing := true }, ⟨none, .looking item⟩) := by
  have hfailure : ∀ w : Worker, handleFailure maxAttempts w item
      (normalizeError (writer.surface (.native "Error" "read ECONNRESET"))) = (w, .looking item) := by
    intro w
    have hretryable : retryable (normalizeError
        (writer.surface (.native "Error" "read ECONNRESET"))) = true := by cases writer <;> rfl
    have hunknown : submissionUnknown (normalizeError
        (writer.surface (.native "Error" "read ECONNRESET"))) = true := by cases writer <;> rfl
    unfold handleFailure
    rw [if_neg, if_pos hunknown]
    rw [hretryable, Bool.not_true, Bool.false_or, decide_eq_true_eq]
    exact Nat.not_le_of_lt hmore
  simp only [Machine.thread, ingestionWorker, resume, hfree, hitem, Option.bind_some, Option.map_some,
    ended, hfailure, Bool.false_eq_true, if_false]

/-- The job of a publication. -/
def jobOf (p : Publication) : IngestionJob :=
  createJob .PUBLISH_STATE p.twinId p.state p.idempotencyKey none "j" 0

/-- The jobs are enqueued; the one at `j` succeeds, and the one at `i` is looked up after its
submission has failed. -/
def twins (jobs : List IngestionJob) (i j n m : Nat) : List (Event Call Input Nat) :=
  acceptAll 0 jobs ++ Event.alone n .processNext [.go, .take (.ok (some j)), .go, .outcome .success, .go] ++
    Event.alone m .processNext [.go, .take (.ok (some i)), .go,
      .outcome (.lost (.native "Error" "read ECONNRESET") false)]

theorem lookup_notMem_acceptAll {n m : Nat} {jobs : List IngestionJob}
    {answer : Except Raised (Option Bool)} : .resume m (.lookup answer) ∉ acceptAll n jobs := by
  induction jobs generalizing n with
  | nil => exact List.not_mem_nil
  | cons job jobs ih =>
      simp only [acceptAll, List.mem_cons, reduceCtorEq, Event.resume.injEq, and_false, false_or]
      exact ih

theorem lookup_notMem_twins {i j n m k : Nat} {jobs : List IngestionJob}
    {answer : Except Raised (Option Bool)} : .resume k (.lookup answer) ∉ twins jobs i j n m := by
  simp [twins, Event.alone, lookup_notMem_acceptAll]

theorem enqueues_twins (jobs : List IngestionJob) (i j n m k : Nat) (answer : Bool) :
    enqueues (twins jobs i j n m ++ [.resume k (.lookup (.ok (some answer)))]) = jobs := by
  have happend : ∀ es es' : List (Event Call Input Nat),
      enqueues (es ++ es') = enqueues es ++ enqueues es' := fun _ _ => List.filterMap_append
  unfold twins
  rw [happend, happend, happend, enqueues_acceptAll]
  show jobs ++ [] ++ [] ++ [] = jobs
  simp only [List.append_nil]

variable (maxAttempts writer) in
/-- A publication is dropped when another one with its reference was committed. -/
theorem drops {ps : List Publication} {p q : Publication} {i j : Nat} (hmany : 1 < maxAttempts)
    (hij : i < j) (hp : ps[i]? = some p) (hq : ps[j]? = some q) (href : p.reference = q.reference) :
    ¬ NothingDropped maxAttempts writer ps := by
  intro hnothing
  let M := ingestionWorker maxAttempts writer
  let jobs := ps.map jobOf
  have hjob : ∀ {n : Nat} {r : Publication}, ps[n]? = some r →
      (itemsFrom 0 jobs)[n]? = some (itemOf (jobOf r) n) := by
    intro n r hr
    have hmap : jobs[n]? = some (jobOf r) := by
      rw [List.getElem?_map, hr, Option.map_some]
    have hget := getElem?_itemsFrom hmap 0
    rwa [Nat.zero_add] at hget
  obtain ⟨w, tasks, haccept, hqueue, hfree, hjournal, hconfirmed⟩ :=
    run_acceptAll maxAttempts writer jobs (.start 0) [] rfl
  rw [show (Worker.start 0).queue = [] from rfl, List.nil_append] at hqueue
  -- the later publication is committed
  have hlater : w.queue[j]? = some (itemOf (jobOf q) j) := hqueue ▸ hjob hq
  obtain ⟨w₁, hthread₁, hqueue₁, hfree₁, hjournal₁, hconfirmed₁⟩ : ∃ w₁,
      M.thread w ⟨none, .started⟩ [.go, .take (.ok (some j)), .go, .outcome .success, .go] =
        some (w₁, ⟨none, .returned true⟩) ∧ w₁.queue = w.queue.eraseIdx j ∧
      w₁.processing = false ∧ w₁.journal = w.journal ++ [.began (itemOf (jobOf q) j)] ++
        [.ended (itemOf (jobOf q) j) .success] ∧ w₁.confirmed = w.confirmed :=
    ⟨_, thread_success maxAttempts writer hfree hlater, rfl, rfl, rfl, rfl⟩
  -- the earlier one is not
  have hearlier : w₁.queue[i]? = some (itemOf (jobOf p) i) := by
    rw [hqueue₁, List.getElem?_eraseIdx_of_lt hij, hqueue]
    exact hjob hp
  have hmore : (itemOf (jobOf p) i).payload.attempts + 1 < maxAttempts :=
    PNat.coe_lt_coe _ _ |>.mpr hmany
  obtain ⟨w₂, hthread₂, hjournal₂, hconfirmed₂⟩ : ∃ w₂,
      M.thread w₁ ⟨none, .started⟩ [.go, .take (.ok (some i)), .go,
        .outcome (.lost (.native "Error" "read ECONNRESET") false)] =
        some (w₂, ⟨none, .looking (itemOf (jobOf p) i)⟩) ∧
      w₂.journal = w₁.journal ++ [.began (itemOf (jobOf p) i)] ++
        [.ended (itemOf (jobOf p) i) (.lost (.native "Error" "read ECONNRESET") false)] ∧
      w₂.confirmed = w₁.confirmed :=
    ⟨_, thread_unsure writer hfree₁ hearlier hmore, rfl, rfl⟩
  let tasks₁ : List Task := tasks ++ [⟨none, .returned true⟩]
  have hrun : M.run ⟨.start 0, []⟩ (twins jobs i j tasks.length tasks₁.length) =
      some ⟨w₂, tasks₁ ++ [⟨none, .looking (itemOf (jobOf p) i)⟩]⟩ := by
    have hcall : ∀ w, M.call w .processNext = some (w, ⟨none, .started⟩) := fun _ => rfl
    have hfirst := (Machine.run_append _ haccept _).trans (Machine.run_call (hcall w) hthread₁ tasks)
    exact (Machine.run_append _ hfirst _).trans (Machine.run_call (hcall w₁) hthread₂ tasks₁)
  -- the lookup finds the mutation of the later publication
  have hfound : ∃ other outcome, .ended other outcome ∈ w₂.journal ∧ outcome.committed ∧
      other.reference = (itemOf (jobOf p) i).reference := by
    refine ⟨itemOf (jobOf q) j, .success, ?_, rfl, href.symm⟩
    rw [hjournal₂, hjournal₁]
    simp
  have hlast : M.run ⟨w₂, tasks₁ ++ [⟨none, .looking (itemOf (jobOf p) i)⟩]⟩
      [.resume tasks₁.length (.lookup (.ok (some true)))] = some
        ⟨{ w₂.mark (.looked (itemOf (jobOf p) i) (.ok (some true))) with confirmed := w₂.confirmed ++ [i] },
          tasks₁ ++ [⟨none, .finishing (.ok ())⟩]⟩ := by
    have hlook : M.thread w₂ ⟨none, .looking (itemOf (jobOf p) i)⟩ [.lookup (.ok (some true))] =
        some ({ w₂.mark (.looked (itemOf (jobOf p) i) (.ok (some true))) with
          confirmed := w₂.confirmed ++ [i] }, ⟨none, .finishing (.ok ())⟩) := rfl
    exact Machine.run_thread hlook tasks₁
  have hmeets : M.Meets byReference ⟨.start 0, []⟩ (twins jobs i j tasks.length tasks₁.length ++
      [.resume tasks₁.length (.lookup (.ok (some true)))]) := by
    refine Machine.Meets.append (Machine.meets_of_inputs fun n input hmem w t others => ?_) hrun
      ⟨fun t ht => ?_, fun _ _ => trivial⟩
    · intro item found _ hinput
      exact absurd (hinput ▸ hmem) lookup_notMem_twins
    · intro item found hphase hinput
      obtain rfl := Option.some.inj (List.getElem?_concat_length.symm.trans ht)
      obtain rfl := Phase.looking.inj hphase
      obtain rfl := Option.some.inj (Except.ok.inj (Input.lookup.inj hinput))
      exact ⟨fun _ => hfound, fun _ => rfl⟩
  have hingests : Ingests ps (twins jobs i j tasks.length tasks₁.length ++
      [.resume tasks₁.length (.lookup (.ok (some true)))]) := by
    refine ⟨ps, List.Subperm.refl _, ?_⟩
    rw [enqueues_twins]
    exact List.forall₂_map_left_iff.mpr (List.forall₂_same.mpr fun r _ => ⟨none, "j", 0, rfl⟩)
  have hfaithful := hnothing 0 _ _ hingests hmeets ((Machine.run_append _ hrun _).trans hlast)
  have hcommits := hfaithful i (List.mem_append_right _ List.mem_cons_self)
  have hnone : commits i (w₂.journal ++ [.looked (itemOf (jobOf p) i) (.ok (some true))]) = 0 := by
    rw [hjournal₂, hjournal₁, hjournal]
    have hne : (j == i) = false := beq_eq_false_iff_ne.mpr (Nat.ne_of_gt hij)
    simp [commits, Mark.commits, Outcome.committed, itemOf, Worker.start, hne]
  exact absurd hcommits (by
    show ¬ 0 < commits i (w₂.journal ++ [.looked (itemOf (jobOf p) i) (.ok (some true))])
    rw [hnone]
    exact Nat.lt_irrefl 0)

/-! ## Every sequence of messages -/

variable (maxAttempts writer) in
/-- **No message is dropped for another one** exactly when the references of the messages, the
Twin and the key, are distinct, or nothing is looked up because there is one attempt only. -/
theorem nothingDropped_iff [Runtime] (sha256 : String → String) (messages : List MappedMqttMessage) :
    NothingDropped maxAttempts writer (publications sha256 messages) ↔
      (1 < maxAttempts → ((publications sha256 messages).map Publication.reference).Nodup) := by
  constructor
  · intro hnothing hmany
    refine List.nodup_iff_getElem?_ne_getElem?.mpr fun i j hij hj heq => ?_
    rw [List.length_map] at hj
    have hp := List.getElem?_eq_getElem (Nat.lt_trans hij hj)
    have hq := List.getElem?_eq_getElem hj
    rw [List.getElem?_map, List.getElem?_map, hp, hq] at heq
    exact drops maxAttempts writer hmany hij hp hq (Option.some.inj heq) hnothing
  · intro hrefs now es c hingests hmeets hrun
    by_cases hmany : 1 < maxAttempts
    · exact faithful_of_nodup (hrefs hmany) hingests hmeets hrun
    · have hholds := (confirms_nothing writer hmany).run (Holds.init (s := .start now) rfl)
        (Machine.meets_any _ _ _) hrun
      intro k hk
      rw [hholds.shared] at hk
      cases hk

end

/-- A message of a sensor in a millisecond; its value is given. -/
def sample (value : Nat) : MappedMqttMessage where
  mapping := { twinId := "0x1", aspect := some "temperature", sampleType := some "reading" }
  topic := some "plant/boiler"
  value := some (.number value)
  observedAt := 1700000000000

/-- Two values of one millisecond have one key: the job of one is taken for committed when the
other one was. -/
theorem same_millisecond_dropped :
    @connectorKey Runtime.ascii "0x1" (sample 20) = @connectorKey Runtime.ascii "0x1" (sample 21) ∧
    ¬ NothingDropped 3 .mutate (@publications Runtime.ascii id [sample 20, sample 21]) := by
  have hkeys : @connectorKey Runtime.ascii "0x1" (sample 20) =
      @connectorKey Runtime.ascii "0x1" (sample 21) := rfl
  have hpublished : ∀ value, ∃ state, (@ingestMqttMessage Runtime.ascii id (sample value)).toOption.join =
      some ⟨"0x1", state, @connectorKey Runtime.ascii "0x1" (sample value)⟩ := fun _ => ⟨_, rfl⟩
  obtain ⟨first, hfirst⟩ := hpublished 20
  obtain ⟨second, hsecond⟩ := hpublished 21
  have hboth : @publications Runtime.ascii id [sample 20, sample 21] =
      [⟨"0x1", first, @connectorKey Runtime.ascii "0x1" (sample 20)⟩,
        ⟨"0x1", second, @connectorKey Runtime.ascii "0x1" (sample 21)⟩] := by
    unfold publications
    simp only [List.filterMap_cons, hfirst, hsecond, List.filterMap_nil]
  have hmany : (1 : ℕ+) < 3 := PNat.coe_lt_coe _ _ |>.mp (Nat.le.step Nat.le.refl)
  refine ⟨hkeys, ?_⟩
  rw [hboth]
  exact drops 3 .mutate hmany Nat.zero_lt_one rfl rfl (congrArg (Prod.mk "0x1") hkeys)

end Ingestion
