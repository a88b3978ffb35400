-- SUMMARY: Which payload hashes the publisher submits, and when a thread written through it has no hash that the verifier refuses.
import TwinServer.Objectid.Publisher
import TwinServer.Thread.Verdict

/-!
# Written hashes

A state, a dataset and a business event carry a payload hash into the event that the contract
emits. The verifier of threads has its own grammar for these hashes. Only the writer of states
brings what it is given into a form of that grammar.
-/

open Js Js.Json Thread

namespace ObjectId

/-! ## Canonical hashes -/

theorem isHex64_ascii {cs : List Char} (h : isHex64 cs) : cs.all isAscii := by
  simp only [isHex64, Bool.and_eq_true, List.all_eq_true] at h ⊢
  intro c hc
  exact (isLowerHex_ascii (h.2 c hc)).1

/-- A string of digits has no capital letters. -/
theorem map_toLower_isHex64 {cs : List Char} (h : isHex64 cs) : cs.map Char.toLower = cs := by
  simp only [isHex64, Bool.and_eq_true, List.all_eq_true] at h
  have hlower : cs.map Char.toLower = cs.map id :=
    List.map_congr_left fun c hc => (isLowerHex_ascii (h.2 c hc)).2
  rw [hlower, List.map_id]

/-- What the verifier accepts is a scheme and 64 digits. -/
theorem isValidHash_iff {s : String} :
    isValidHash s ↔ ∃ cs, isHex64 cs ∧
      (s.toList = "sha256:".toList ++ cs ∨ s.toList = "0x".toList ++ cs) := by
  have hscheme (p : String) (n : Nat) (hn : p.toList.length = n) :
      (startsWith s p && isHex64 (s.toList.drop n)) = true ↔
        ∃ cs, isHex64 cs ∧ s.toList = p.toList ++ cs := by
    rw [Bool.and_eq_true, startsWith, List.isPrefixOf_iff_prefix]
    constructor
    · rintro ⟨⟨cs, hcs⟩, hhex⟩
      rw [← hcs, List.drop_left' hn] at hhex
      exact ⟨cs, hhex, hcs.symm⟩
    · rintro ⟨cs, hhex, hcs⟩
      rw [hcs, List.drop_left' hn]
      exact ⟨List.prefix_append _ _, hhex⟩
  rw [isValidHash, Bool.or_eq_true, hscheme "sha256:" 7 rfl, hscheme "0x" 2 rfl]
  constructor
  · rintro (⟨cs, hhex, hcs⟩ | ⟨cs, hhex, hcs⟩)
    · exact ⟨cs, hhex, .inl hcs⟩
    · exact ⟨cs, hhex, .inr hcs⟩
  · rintro ⟨cs, hhex, hcs | hcs⟩
    · exact .inl ⟨cs, hhex, hcs⟩
    · exact .inr ⟨cs, hhex, hcs⟩

section
variable [Runtime]

/-- What is accepted is lower-case. -/
theorem toLowerCase_of_isValidHash {s : String} (h : isValidHash s) : toLowerCase s = s := by
  obtain ⟨cs, hhex, hs⟩ := isValidHash_iff.mp h
  have hparts : ∃ p : String, p.toList.all isAscii ∧ p.toList.map Char.toLower = p.toList ∧
      s.toList = p.toList ++ cs := by
    rcases hs with hs | hs
    · exact ⟨"sha256:", by decide, by decide, hs⟩
    · exact ⟨"0x", by decide, by decide, hs⟩
  obtain ⟨p, hascii, hlower, hs⟩ := hparts
  rw [Runtime.toLowerCase_ascii, asciiLower]
  · apply String.toList_inj.mp
    rw [String.toList_ofList, hs, List.map_append, hlower, map_toLower_isHex64 hhex]
  · rw [hs, List.all_append, hascii, isHex64_ascii hhex]
    rfl

/-- The writer of states submits what the verifier accepts. -/
theorem isValidHash_canonicalPayloadHash {s h : String} (hs : canonicalPayloadHash s = .ok h) :
    isValidHash h := by
  unfold canonicalPayloadHash at hs
  dsimp only at hs
  split at hs
  case isTrue hhex =>
    obtain rfl := Except.ok.inj hs
    apply isValidHash_iff.mpr
    exact ⟨_, hhex, .inl String.toList_append⟩
  case isFalse =>
    split at hs
    case isTrue hvalid =>
      obtain rfl := Except.ok.inj hs
      exact hvalid
    case isFalse => cases hs

/-- What the verifier accepts, the writer of states leaves as it is. -/
theorem canonicalPayloadHash_eq_self {s : String} : canonicalPayloadHash s = .ok s ↔ isValidHash s := by
  refine ⟨isValidHash_canonicalPayloadHash, fun h => ?_⟩
  unfold canonicalPayloadHash
  rw [toLowerCase_of_isValidHash h]
  dsimp only
  split
  case isTrue hhex =>
    -- a scheme and 64 digits are more than 64 characters
    obtain ⟨cs, hcs, hs⟩ := isValidHash_iff.mp h
    have hlength : s.toList.length = 64 := by
      simp only [isHex64, Bool.and_eq_true, beq_iff_eq] at hhex
      exact hhex.1
    have hdigits : cs.length = 64 := by
      simp only [isHex64, Bool.and_eq_true, beq_iff_eq] at hcs
      exact hcs.1
    rcases hs with hs | hs <;>
    · rw [hs, List.length_append, hdigits] at hlength
      cases hlength
  case isFalse => rfl

end

/-! ## Submissions -/

inductive Writer where
  | publishState | addDataset | emitTwinEvent
  deriving DecidableEq

/-- A call of one of the three writers. -/
structure Submission where
  publisher : IotaStatePublisher
  writer : Writer
  twinId : String
  input : Record Json
  accounting : Option AccountingContext

/-- The argument that the contract records as payload hash in the event. -/
def MoveCall.payloadHash (call : MoveCall) : Option TransactionArgument :=
  if call.function = "publish_state" then call.arguments[3]?
  else if call.function = "add_dataset" then call.arguments[5]?
  else if call.function = "record_business_event" then call.arguments[2]?
  else none

/-- The hash that is submitted is empty, or one the verifier accepts. -/
def MoveCall.Verifies (call : MoveCall) : Prop :=
  ∃ h, call.payloadHash = some (.string h) ∧ (h = "" ∨ isValidHash h)

/-- The payload hash that the caller gave. -/
def Submission.given (s : Submission) : String :=
  stringValue (value s.input ["payloadHash", "payload_hash"]) ""

theorem requiredString_eq_ok {input : Option Json} {name s : String}
    (h : requiredString input name = .ok s) : s = stringValue input "" ∧ s ≠ "" := by
  unfold requiredString at h
  dsimp only at h
  split at h
  case isTrue => cases h
  case isFalse hne =>
    obtain rfl := Except.ok.inj h
    exact ⟨rfl, hne⟩

theorem twinCall_eq_ok [Runtime] {p : IotaStatePublisher} {function twinId : String}
    {arguments : Except Thrown (List TransactionArgument)} {accounting : Option AccountingContext}
    {call : MoveCall} (h : p.twinCall function twinId arguments accounting = .ok call) :
    call.function = function ∧ arguments = .ok call.arguments := by
  unfold IotaStatePublisher.twinCall at h
  obtain ⟨_, -, h⟩ := Except.bind_eq_ok.mp h
  obtain ⟨_, -, h⟩ := Except.bind_eq_ok.mp h
  obtain ⟨_, -, h⟩ := Except.bind_eq_ok.mp h
  obtain ⟨_, -, h⟩ := Except.bind_eq_ok.mp h
  obtain ⟨_, harguments, h⟩ := Except.bind_eq_ok.mp h
  obtain rfl := Except.pure_eq_ok.mp h
  exact ⟨rfl, harguments⟩

section
variable [Services]

@[local grind] def Submission.call (s : Submission) : Except Thrown MoveCall :=
  match s.writer with
  | .publishState => s.publisher.publishState s.twinId s.input s.accounting
  | .addDataset => s.publisher.addDataset s.twinId s.input s.accounting
  | .emitTwinEvent => s.publisher.emitTwinEvent s.twinId s.input s.accounting

/-- The writer of states would not change the hash that was given to one of the others. -/
def Submission.Canonical (s : Submission) : Prop :=
  match s.writer with
  | .publishState => True
  | .addDataset => canonicalPayloadHash s.given = .ok s.given
  | .emitTwinEvent => s.given = "" ∨ canonicalPayloadHash s.given = .ok s.given

variable {p : IotaStatePublisher} {twinId : String} {input : Record Json}
  {accounting : Option AccountingContext} {call : MoveCall}

theorem payloadHash_publishState (h : p.publishState twinId input accounting = .ok call) :
    ∃ hash, call.payloadHash = some (.string hash) ∧ isValidHash hash := by
  unfold IotaStatePublisher.publishState at h
  obtain ⟨hash, hhash, h⟩ := Except.bind_eq_ok.mp h
  obtain ⟨_, -, h⟩ := Except.bind_eq_ok.mp h
  obtain ⟨_, -, h⟩ := Except.bind_eq_ok.mp h
  obtain ⟨_, -, h⟩ := Except.bind_eq_ok.mp h
  obtain ⟨hfunction, harguments⟩ := twinCall_eq_ok h
  obtain ⟨_, -, harguments⟩ := Except.bind_eq_ok.mp harguments
  obtain ⟨_, -, harguments⟩ := Except.bind_eq_ok.mp harguments
  obtain ⟨_, -, harguments⟩ := Except.bind_eq_ok.mp harguments
  obtain ⟨_, -, harguments⟩ := Except.bind_eq_ok.mp harguments
  refine ⟨hash, ?_, isValidHash_canonicalPayloadHash hhash⟩
  rw [MoveCall.payloadHash, hfunction, if_pos rfl, ← Except.pure_eq_ok.mp harguments]
  rfl

theorem payloadHash_addDataset (h : p.addDataset twinId input accounting = .ok call) :
    call.payloadHash = some (.string (stringValue (value input ["payloadHash", "payload_hash"]) "")) ∧
      stringValue (value input ["payloadHash", "payload_hash"]) "" ≠ "" := by
  obtain ⟨hfunction, harguments⟩ := twinCall_eq_ok h
  obtain ⟨_, -, harguments⟩ := Except.bind_eq_ok.mp harguments
  obtain ⟨_, -, harguments⟩ := Except.bind_eq_ok.mp harguments
  obtain ⟨_, -, harguments⟩ := Except.bind_eq_ok.mp harguments
  obtain ⟨hash, hhash, harguments⟩ := Except.bind_eq_ok.mp harguments
  obtain ⟨_, -, harguments⟩ := Except.bind_eq_ok.mp harguments
  obtain ⟨_, -, harguments⟩ := Except.bind_eq_ok.mp harguments
  obtain ⟨rfl, hne⟩ := requiredString_eq_ok hhash
  refine ⟨?_, hne⟩
  rw [MoveCall.payloadHash, hfunction, if_neg (by decide), if_pos rfl,
    ← Except.pure_eq_ok.mp harguments]
  rfl

theorem payloadHash_emitTwinEvent (h : p.emitTwinEvent twinId input accounting = .ok call) :
    call.payloadHash =
      some (.string (stringValue (value input ["payloadHash", "payload_hash"]) "")) := by
  obtain ⟨hfunction, harguments⟩ := twinCall_eq_ok h
  obtain ⟨_, -, harguments⟩ := Except.bind_eq_ok.mp harguments
  rw [MoveCall.payloadHash, hfunction, if_neg (by decide), if_neg (by decide), if_pos rfl,
    ← Except.pure_eq_ok.mp harguments]
  rfl

/-- An accepted submission submits one hash. -/
theorem exists_payloadHash {s : Submission} (h : s.call = .ok call) :
    ∃ hash, call.payloadHash = some (.string hash) ∧ ((hash = "" ∨ isValidHash hash) ↔ s.Canonical) := by
  unfold Submission.call at h
  unfold Submission.Canonical
  split at h
  · obtain ⟨hash, hhash, hvalid⟩ := payloadHash_publishState h
    exact ⟨hash, hhash, iff_of_true (.inr hvalid) trivial⟩
  · obtain ⟨hhash, hne⟩ := payloadHash_addDataset h
    refine ⟨_, hhash, ?_⟩
    simp only [canonicalPayloadHash_eq_self, Submission.given, hne, false_or]
  · refine ⟨_, payloadHash_emitTwinEvent h, ?_⟩
    simp only [canonicalPayloadHash_eq_self, Submission.given]

theorem verifies_iff {s : Submission} (h : s.call = .ok call) : call.Verifies ↔ s.Canonical := by
  obtain ⟨hash, hhash, hiff⟩ := exists_payloadHash h
  rw [← hiff]
  constructor
  · rintro ⟨hash', hhash', hok⟩
    rw [hhash] at hhash'
    obtain rfl := TransactionArgument.string.inj (Option.some.inj hhash')
    exact hok
  · exact fun hok => ⟨hash, hhash, hok⟩

end

/-! ## Threads -/

/-- What the verifier says of a hash outside its grammar. -/
def payloadHashFormat : String := "payloadHash must be sha256:<64 lowercase hex> or 0x<64 hex>"

section
variable [Services]

/-- The events of a thread that only the server wrote: every accepted submission has its event, with
the hash that was submitted, and the other events carry no hash. -/
structure WrittenThrough (submissions : List Submission) (events : List TwinEvent) : Prop where
  recorded : ∀ s ∈ submissions, ∃ call, s.call = .ok call ∧
    ∃ e ∈ events, call.payloadHash = some (.string e.payloadHash)
  only : ∀ e ∈ events, e.payloadHash = "" ∨
    ∃ s ∈ submissions, ∃ call, s.call = .ok call ∧ call.payloadHash = some (.string e.payloadHash)

omit [Services] in
theorem payloadHash_unique {call : MoveCall} {h h' : String} (hh : call.payloadHash = some (.string h))
    (hh' : call.payloadHash = some (.string h')) : h = h' := by
  rw [hh] at hh'
  exact TransactionArgument.string.inj (Option.some.inj hh')

/-- The hashes of a thread are in the grammar when all the submissions were canonical. -/
theorem WrittenThrough.valid_iff {submissions : List Submission} {events : List TwinEvent}
    (h : WrittenThrough submissions events) :
    (∀ e ∈ events, e.payloadHash = "" ∨ isValidHash e.payloadHash) ↔
      ∀ s ∈ submissions, s.Canonical := by
  constructor
  · intro hvalid s hs
    obtain ⟨call, hcall, e, he, hhash⟩ := h.recorded s hs
    obtain ⟨hash, hhash', hiff⟩ := exists_payloadHash hcall
    obtain rfl := payloadHash_unique hhash hhash'
    exact hiff.mp (hvalid e he)
  · intro hcanonical e he
    rcases h.only e he with hempty | ⟨s, hs, call, hcall, hhash⟩
    · exact .inl hempty
    · obtain ⟨hash, hhash', hiff⟩ := exists_payloadHash hcall
      obtain rfl := payloadHash_unique hhash hhash'
      exact hiff.mpr (hcanonical s hs)

theorem append_hashErrors (exists? : Option TransactionCheck) (v : IncrementalThreadVerifier)
    (event : TwinEvent) : (v.append exists? event).progress.result.hashErrors =
      v.progress.result.hashErrors ++ (eventHashErrors event).map (EventError.mk event.eventId) := by
  obtain ⟨_, _, _, _, -, hresult⟩ := append_result exists? v event
  rw [hresult]
  rfl

/-- A page adds the errors of its events. -/
theorem appendPage_hashErrors (exists? : Option TransactionCheck) (v : IncrementalThreadVerifier)
    (events : List TwinEvent) : (v.appendPage exists? events).progress.result.hashErrors =
      v.progress.result.hashErrors ++
        events.flatMap fun e => (eventHashErrors e).map (EventError.mk e.eventId) := by
  have hfold (v : IncrementalThreadVerifier) :
      (events.foldl (IncrementalThreadVerifier.append exists?) v).progress.result.hashErrors =
        v.progress.result.hashErrors ++
          events.flatMap fun e => (eventHashErrors e).map (EventError.mk e.eventId) := by
    induction events generalizing v with
    | nil => simp
    | cons e events ih =>
        rw [List.foldl_cons, ih, append_hashErrors, List.flatMap_cons, List.append_assoc]
  exact hfold v.countPage

theorem appendPages_hashErrors (exists? : Option TransactionCheck) (v : IncrementalThreadVerifier)
    (pages : List (List TwinEvent)) :
    (pages.foldl (IncrementalThreadVerifier.appendPage exists?) v).progress.result.hashErrors =
      v.progress.result.hashErrors ++
        pages.flatten.flatMap fun e => (eventHashErrors e).map (EventError.mk e.eventId) := by
  induction pages generalizing v with
  | nil => simp
  | cons page pages ih =>
      rw [List.foldl_cons, ih, appendPage_hashErrors, List.flatten_cons, List.flatMap_append,
        List.append_assoc]

theorem finish_hashErrors (v : IncrementalThreadVerifier) (complete : Bool) (reason : Option String) :
    (v.finish complete reason).findings.hashErrors = v.progress.result.hashErrors := rfl

/-- An event has an error of the format exactly when its hash is not empty and outside the grammar. -/
theorem mem_eventHashErrors {event : TwinEvent} :
    payloadHashFormat ∈ eventHashErrors event ↔
      ¬ (event.payloadHash = "" ∨ isValidHash event.payloadHash) := by
  have hother : payloadHashFormat ≠
      "referenced state payloadHash does not match the immutable publication event" := by
    decide
  unfold eventHashErrors
  rw [List.mem_append]
  constructor
  · rintro (h | h)
    · split at h
      case isTrue hformat =>
        simp only [Bool.and_eq_true, bne_iff_ne, Bool.not_eq_true'] at hformat
        rintro (hempty | hvalid)
        · exact hformat.1 hempty
        · rw [hvalid] at hformat
          cases hformat.2
      case isFalse => cases h
    · split at h
      · exact absurd (List.mem_singleton.mp h) hother
      · cases h
  · intro h
    apply Or.inl
    rw [if_pos]
    · exact List.mem_singleton.mpr rfl
    · simp only [not_or, Bool.not_eq_true] at h
      simp [h.1, h.2]

/-- No error of the format is among the errors of events whose hashes are all in the grammar. -/
theorem format_notMem_iff (events : List TwinEvent) :
    (∀ item ∈ events.flatMap fun e => (eventHashErrors e).map (EventError.mk e.eventId),
        item.error ≠ payloadHashFormat) ↔
      ∀ e ∈ events, e.payloadHash = "" ∨ isValidHash e.payloadHash := by
  constructor
  · intro h e he
    by_contra hinvalid
    refine h ⟨e.eventId, payloadHashFormat⟩ ?_ rfl
    apply List.mem_flatMap_of_mem he
    exact List.mem_map_of_mem (mem_eventHashErrors.mpr hinvalid)
  · intro h item hitem heq
    obtain ⟨e, he, hitem⟩ := List.mem_flatMap.mp hitem
    obtain ⟨error, herror, rfl⟩ := List.mem_map.mp hitem
    apply mem_eventHashErrors.mp _ (h e he)
    exact heq ▸ herror

/-- A submitted hash is empty or accepted by the verifier exactly when the submission is canonical,
and a thread written through the server has no error of the format exactly when all its submissions
are. -/
theorem written_hashes_verify {submissions : List Submission} {events : List TwinEvent}
    {indexer : TwinIndexer} {twinId : String} {options : PaginationOptions} {pages : List IndexedPage}
    {whole : Bool} {fuel : Nat} (hwritten : WrittenThrough submissions events)
    (hdelivers : Delivers indexer twinId options 0 options.cursor [] pages whole)
    (hevents : ∀ e, e ∈ pages.flatMap IndexedPage.items ↔ e ∈ events) (hfuel : pages.length ≤ fuel) :
    (∀ s : Submission, ∀ call, s.call = .ok call → (call.Verifies ↔ s.Canonical)) ∧
      ∃ result, verifyDigitalThread indexer twinId options fuel = some (.ok result) ∧
        ((∀ item ∈ result.findings.hashErrors, item.error ≠ payloadHashFormat) ↔
          ∀ s ∈ submissions, s.Canonical) := by
  refine ⟨fun s call hcall => verifies_iff hcall, ?_⟩
  obtain ⟨reason, hresult⟩ := verifyPages_of_delivers hdelivers hfuel { twinId, options }
  refine ⟨_, hresult, ?_⟩
  rw [finish_hashErrors, appendPages_hashErrors, ← List.flatMap_def, List.nil_append,
    format_notMem_iff, ← hwritten.valid_iff]
  simp only [hevents]

end

/-! ## A sample -/

/-- An account with one credit and a Twin of it. -/
def smallChain (id : String) : ChainObject :=
  if id = objectId 'a' then {
    type := some "0x2::oid_twin::SubscriptionAccount"
    fields := [("period_end", .number 1), ("credit_limit", .number 1), ("status", .number 1)] }
  else {
    type := some "0x2::oid_twin::OIDTwin"
    fields := [("subscription_id", .string (objectId 'a'))] }

def smallPublisher : IotaStatePublisher where
  packageId := "0x2"
  clockId := "0x6"
  objects := .ok ⟨"0x3", objectId 'a'⟩
  getObject id := .ok (smallChain id)
  now := 0

def zeroDigest : String := .ofList (.replicate 64 '0')

/-- A dataset with the payload hash. -/
def datasetSubmission (payloadHash : String) : Submission where
  publisher := smallPublisher
  writer := .addDataset
  twinId := objectId '1'
  input := [("datasetType", .string "d"), ("storageUri", .string "u"), ("payloadHash", .string payloadHash)]
  accounting := none

/-- The event of the dataset. -/
def datasetEvent (payloadHash : String) : TwinEvent :=
  { sampleEvent 1 with twinId := objectId '1', eventType := 70, payloadHash }

/-- An indexer with one page. -/
def onePage (events : List TwinEvent) : TwinIndexer where
  findTwinEvents _ _ _ := .ok { items := events, hasMore := false }

theorem delivers_onePage (events : List TwinEvent) (twinId : String) :
    Delivers (onePage events) twinId {} 0 none [] [{ items := events, hasMore := false }] true :=
  .last rfl (fun h => by cases h) rfl

/-- A dataset whose hash has its scheme is verified. -/
theorem written_hashes_verify_dataset :
    ∃ result, @verifyDigitalThread Services.plain (onePage [datasetEvent ("sha256:" ++ zeroDigest)])
        (objectId '1') {} 1 = some (.ok result) ∧
      ∀ item ∈ result.findings.hashErrors, item.error ≠ payloadHashFormat := by
  let services : Services := Services.plain
  have hcall : ∃ call, (datasetSubmission ("sha256:" ++ zeroDigest)).call = .ok call ∧
      call.payloadHash = some (.string ("sha256:" ++ zeroDigest)) := by
    obtain ⟨call, hcall, hhash⟩ := Except.exists_ok_of_any
      (x := (datasetSubmission ("sha256:" ++ zeroDigest)).call)
      (p := fun call => call.payloadHash == some (.string ("sha256:" ++ zeroDigest)))
      (by decide +kernel)
    exact ⟨call, hcall, by simpa using hhash⟩
  have hwritten : WrittenThrough [datasetSubmission ("sha256:" ++ zeroDigest)]
      [datasetEvent ("sha256:" ++ zeroDigest)] := by
    obtain ⟨call, hcall, hhash⟩ := hcall
    constructor
    · intro s hs
      obtain rfl := List.mem_singleton.mp hs
      exact ⟨call, hcall, _, List.mem_singleton.mpr rfl, hhash⟩
    · intro e he
      obtain rfl := List.mem_singleton.mp he
      exact .inr ⟨_, List.mem_singleton.mpr rfl, call, hcall, hhash⟩
  obtain ⟨-, result, hresult, hiff⟩ := written_hashes_verify hwritten
    (delivers_onePage [datasetEvent ("sha256:" ++ zeroDigest)] (objectId '1')) (fun e => by simp)
    (Nat.le_refl 1)
  refine ⟨result, hresult, hiff.mpr fun s hs => ?_⟩
  obtain rfl := List.mem_singleton.mp hs
  apply canonicalPayloadHash_eq_self.mpr
  decide +kernel

/-- A digest without a scheme is submitted as it is, and the thread with its event has an error. -/
theorem datasetHash_unverified :
    (∃ call, @Submission.call Services.plain (datasetSubmission zeroDigest) = .ok call ∧
      ¬ call.Verifies) ∧
    ∃ result, @verifyDigitalThread Services.plain (onePage [datasetEvent zeroDigest]) (objectId '1') {} 1 =
        some (.ok result) ∧
      ∃ item ∈ result.findings.hashErrors, item.error = payloadHashFormat := by
  let services : Services := Services.plain
  constructor
  · obtain ⟨call, hcall, hhash⟩ := Except.exists_ok_of_any
      (x := (datasetSubmission zeroDigest).call)
      (p := fun call => call.payloadHash == some (.string zeroDigest)) (by decide +kernel)
    refine ⟨call, hcall, ?_⟩
    rintro ⟨h, hh, hverifies⟩
    rw [beq_iff_eq.mp hhash] at hh
    obtain rfl := TransactionArgument.string.inj (Option.some.inj hh)
    revert hverifies
    decide +kernel
  · exact ⟨_, rfl, by decide⟩

end ObjectId
