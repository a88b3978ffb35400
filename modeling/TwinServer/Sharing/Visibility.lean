-- SUMMARY: Which measurements a DID sees under an accepted policy.
import Mathlib.Data.List.Nodup
import TwinServer.Base.Errors
import TwinServer.Sharing.Filter

/-!
# Visibility of measurements

The outcome of `filterPayload` composed with `policyRights` is characterised by
`Granted`, which says directly when a policy lets a DID see a measurement: owner,
public scope, or the one reader entry of the DID.
-/

open Js Js.Json

namespace Sharing

/-! ## Scope bits -/

/-- The public scopes are realtime, location and evidence only. -/
theorem scope_eq_one_of_public {scopes scope : Nat} (h : scopes &&& 25 = scopes)
    (hscope : scope ∈ [1, 2, 4]) (hpublic : hasScope scopes scope) : scope = 1 := by
  simp only [List.mem_cons, List.not_mem_nil, or_false] at hscope
  rcases hscope with rfl | rfl | rfl
  · rfl
  · rw [← h] at hpublic; simp [hasScope, Nat.and_assoc] at hpublic
  · rw [← h] at hpublic; simp [hasScope, Nat.and_assoc] at hpublic

theorem hasScope_owner {scope : Nat} (hscope : scope ∈ [1, 2, 4]) : hasScope 31 scope := by
  simp only [List.mem_cons, List.not_mem_nil, or_false] at hscope
  rcases hscope with rfl | rfl | rfl <;> rfl

/-! ## Accepted policies -/

@[simp] theorem rejectIf_eq_ok {c : Bool} {message : String} {status : Nat} {u : Unit} :
    rejectIf c message status = .ok u ↔ c = false := by
  cases c <;> simp [rejectIf, reject]

section
variable [Runtime] {input ownerDid : Option Json} {network : String} {now₀ : Number}
  {P : AccessPolicy}

/-- What normalisation guarantees of the policies it accepts. -/
structure Accepted (P : AccessPolicy) : Prop where
  publicScopes : P.publicScopes &&& 25 = P.publicScopes
  readers : (P.readers.map (·.did)).Nodup

theorem accepted_of_normalizePolicy (h : normalizePolicy input network ownerDid now₀ = .ok P) :
    Accepted P := by
  simp only [normalizePolicy, Except.bind_eq_ok, Except.pure_eq_ok, rejectIf_eq_ok] at h
  obtain ⟨⟨mode, items⟩, -, scopes, -, -, hscopes, readers, -, -, hreaders, -, -, revision, -,
    owner, -, updatedAt, -, rfl⟩ := h
  simp only [Bool.or_eq_false_iff, bne_eq_false_iff_eq] at hscopes
  exact ⟨hscopes.1.1, by simpa using hreaders⟩

end

section
variable [Runtime] {P : AccessPolicy} {did : String} {now : Number} {scope : Nat}
  {observedAt : Number} {key : String}

/-! ## The reader entry in force -/

omit [Runtime] in
theorem reader_unique (hP : Accepted P) {r r' : Reader} (hr : r ∈ P.readers) (hr' : r' ∈ P.readers)
    (hdid : r.did = r'.did) : r = r' :=
  List.inj_on_of_nodup_map hP.readers hr hr' hdid

theorem policyRights_reader (hP : Accepted P) {r : Reader} :
    (policyRights P did now).reader = some r ↔
      r ∈ P.readers ∧ r.did = toLowerCase did ∧ r.active now := by
  simp only [policyRights]
  constructor
  · intro h
    have hmem := List.mem_of_find?_eq_some h
    have hprop := List.find?_some h
    simp only [Bool.and_eq_true, beq_iff_eq] at hprop
    exact ⟨hmem, hprop⟩
  · rintro ⟨hmem, hdid, hactive⟩
    cases hfind : P.readers.find? (fun r => r.did == toLowerCase did && r.active now) with
    | none =>
      have := List.find?_eq_none.mp hfind r hmem
      simp [hdid, hactive] at this
    | some r' =>
      have hmem' := List.mem_of_find?_eq_some hfind
      have hprop := List.find?_some hfind
      simp only [Bool.and_eq_true, beq_iff_eq] at hprop
      rw [reader_unique hP hmem' hmem (hprop.1.trans hdid.symm)]

/-- The policy without the entries of other readers and those not in force. -/
def AccessPolicy.inForce (P : AccessPolicy) (did : String) (now : Number) : AccessPolicy :=
  { P with readers := P.readers.filter fun r => r.did == toLowerCase did && r.active now }

/-- Entries of other readers, and entries that are not in force, do not enter the
rights. -/
theorem policyRights_inForce (P : AccessPolicy) (did : String) (now : Number) :
    policyRights P did now = policyRights (P.inForce did now) did now := by
  have hfind : (P.inForce did now).readers.find?
      (fun r => r.did == toLowerCase did && r.active now) =
        P.readers.find? (fun r => r.did == toLowerCase did && r.active now) := by
    simp only [AccessPolicy.inForce, List.find?_filter]
    congr 1
    funext r
    simp only [and_self, Bool.decide_eq_true]
  simp only [policyRights, hfind]
  rfl

/-! ## Granted measurements -/

/-- The policy lets the DID see a measurement of a sample. -/
def Granted (P : AccessPolicy) (did : String) (now : Number) (scope : Nat) (observedAt : Number)
    (key : String) : Prop :=
  toLowerCase did = P.ownerDid ∨ hasScope P.publicScopes scope ∨
    ∃ r ∈ P.readers, r.did = toLowerCase did ∧ r.active now ∧ hasScope r.scopes scope ∧
      r.grants key ∧ (scope ≠ 1 → r.historyContains observedAt)

theorem hasScope_policyRights (howner : toLowerCase did ≠ P.ownerDid) :
    hasScope (policyRights P did now).scopes scope =
      (hasScope P.publicScopes scope ||
        (policyRights P did now).reader.any fun r => hasScope r.scopes scope) := by
  have hne : ¬ P.ownerDid = toLowerCase did := fun h => howner h.symm
  simp only [policyRights, beq_iff_eq, hne, if_false, hasScope_or]
  cases P.readers.find? fun r => r.did == toLowerCase did && r.active now with
  | none => simp [hasScope]
  | some r => rfl

omit [Runtime] in
/-- A history interval that contains the time is not left on either side. -/
theorem not_outside_of_historyContains {r : Reader} {t : Number} (h : r.historyContains t) :
    (t.lt r.historyFrom || (r.historyTo != 0 && (r.historyTo : Number).le t)) = false := by
  simp only [Reader.historyContains, Bool.and_eq_true, Bool.or_eq_true, beq_iff_eq] at h
  obtain ⟨hfrom, hto⟩ := h
  rw [Number.lt_eq_false_of_le hfrom, Bool.false_or]
  rcases hto with hzero | hto
  · simp [hzero]
  · rw [Number.le_eq_false_of_lt hto, Bool.and_false]

omit [Runtime] in
theorem measurementAllowed_iff {rights : Rights} (hscope : scope ∈ [1, 2, 4]) :
    measurementAllowed rights scope key observedAt ↔
      hasScope rights.scopes scope ∧ (rights.owner ∨ hasScope rights.publicScopes scope ∨
        ∃ r, rights.reader = some r ∧ hasScope r.scopes scope ∧ r.grants key ∧
          (scope ≠ 1 → r.historyContains observedAt)) := by
  have hcontains : [1, 2, 4].contains scope = true := List.contains_iff_mem.mpr hscope
  rw [measurementAllowed, hcontains]
  cases hasScope rights.scopes scope with
  | false => simp
  | true =>
    cases rights.owner with
    | true => simp
    | false =>
      cases hasScope rights.publicScopes scope with
      | true => simp
      | false =>
        cases rights.reader with
        | none => simp
        | some r => simp [and_assoc, imp_iff_not_or]

/-- The rights of a policy admit a sample and a key exactly when the policy grants
the measurement. -/
theorem admitted_iff_granted (hP : Accepted P) (hscope : scope ∈ [1, 2, 4]) :
    (hasScope (policyRights P did now).scopes scope ∧
      outsideHistory (policyRights P did now) scope observedAt = false ∧
      measurementAllowed (policyRights P did now) scope key observedAt) ↔
    Granted P did now scope observedAt key := by
  have hpublic : (policyRights P did now).publicScopes = P.publicScopes := rfl
  rw [measurementAllowed_iff hscope, hpublic]
  by_cases howner : toLowerCase did = P.ownerDid
  case pos =>
    have howner' : (policyRights P did now).owner = true := by simp [policyRights, howner]
    have hscopes : hasScope (policyRights P did now).scopes scope = true := by
      simpa [policyRights, howner] using hasScope_owner hscope
    refine iff_of_true ⟨hscopes, ?_, hscopes, .inl howner'⟩ (.inl howner)
    simp [outsideHistory, howner']
  case neg =>
    have howner' : ¬ (policyRights P did now).owner = true :=
      fun h => howner (beq_iff_eq.mp h).symm
    constructor
    · rintro ⟨-, -, -, hown | hpub | ⟨r, hr, hgrant⟩⟩
      · exact absurd hown howner'
      · exact .inr (.inl hpub)
      · obtain ⟨hmem, hdid, hactive⟩ := (policyRights_reader hP).mp hr
        exact .inr (.inr ⟨r, hmem, hdid, hactive, hgrant⟩)
    · rintro (hown | hpub | ⟨r, hmem, hdid, hactive, hgrant⟩)
      · exact absurd hown howner
      · obtain rfl := scope_eq_one_of_public hP.publicScopes hscope hpub
        have hscopes : hasScope (policyRights P did now).scopes 1 = true := by
          rw [hasScope_policyRights howner, hpub, Bool.true_or]
        exact ⟨hscopes, rfl, hscopes, .inr (.inl hpub)⟩
      · have hr : (policyRights P did now).reader = some r :=
          (policyRights_reader hP).mpr ⟨hmem, hdid, hactive⟩
        have hscopes : hasScope (policyRights P did now).scopes scope = true := by
          rw [hasScope_policyRights howner, hr, Option.any_some, hgrant.1, Bool.or_true]
        refine ⟨hscopes, ?_, hscopes, .inr (.inr ⟨r, hr, hgrant⟩)⟩
        by_cases hone : scope = 1
        · simp [outsideHistory, hone]
        · simp only [outsideHistory, hr, Option.any_some,
            not_outside_of_historyContains (hgrant.2.2 hone), Bool.and_false]

/-! ## The outcome of the filter -/

omit [Runtime] in
/-- A payload that is not encrypted is filtered exactly when the scope is held and
the sample lies in the history of the reader. -/
theorem filterPayload_eq_ok {rights : Rights} {payload : Record Json} {out : Json}
    (hlegacy : rights.legacy = false) (henc : isEncrypted (.object payload) = false) :
    filterPayload (.object payload) rights scope observedAt = .ok out ↔
      hasScope rights.scopes scope ∧ outsideHistory rights scope observedAt = false ∧
        out = .object (filterFields payload rights scope observedAt) := by
  simp only [filterPayload, hlegacy, henc, Bool.false_and, Bool.false_eq_true, if_false]
  cases hasScope rights.scopes scope with
  | false => simp [rejectIf, reject, bind, Except.bind]
  | true =>
    cases outsideHistory rights scope observedAt with
    | true => simp [rejectIf, reject, bind, Except.bind]
    | false => simp [rejectIf, bind, Except.bind, pure, Except.pure, eq_comm]

omit [Runtime] in
theorem hasOwn_filterMeasurements (measurements : Record Json) (rights : Rights) :
    (filterMeasurements measurements rights scope observedAt).hasOwn key ↔
      admitsKey rights scope observedAt key ∧
        ∃ v, measurements.get? key = some v ∧
          (scalar v ∨ ∃ w, v.get? "value" = some w ∧ scalar w) := by
  rw [Record.hasOwn, get?_filterMeasurements]
  cases admitsKey rights scope observedAt key with
  | false => simp
  | true =>
    cases measurements.get? key with
    | none => simp
    | some v => simpa using reading_isSome v

end

/-- The key appears among the measurements of the filtered payload. -/
def Appears [Runtime] (payload : Record Json) (P : AccessPolicy) (did : String) (now : Number)
    (scope : Nat) (observedAt : Number) (key : String) : Prop :=
  ∃ out measurements : Record Json,
    filterPayload (.object payload) (policyRights P did now) scope observedAt = .ok (.object out) ∧
      out.get? "measurements" = some (.object measurements) ∧ measurements.hasOwn key

/-- End-to-end visibility: under an accepted policy a measurement appears exactly
when its key and value are well formed and the policy grants it. The reader entry
of a DID is unique, only realtime can be public, and what another reader holds, or
what is not in force, never matters. -/
theorem measurement_appears_iff [Runtime] {input ownerDid : Option Json} {network : String}
    {now₀ : Number} {P : AccessPolicy}
    (hP : normalizePolicy input network ownerDid now₀ = .ok P) (did : String) (now : Number)
    {scope : Nat} (hscope : scope ∈ [1, 2, 4]) (observedAt : Number) :
    (∀ (payload measurements : Record Json) (key : String),
      isEncrypted (.object payload) = false →
      measurementsOf (.object payload) = some measurements →
      (Appears payload P did now scope observedAt key ↔
        isKeySyntax key ∧ isPrototypeKey key = false ∧ isLocationKey key = false ∧
        (∃ v, measurements.get? key = some v ∧
          (scalar v ∨ ∃ w, v.get? "value" = some w ∧ scalar w)) ∧
        Granted P did now scope observedAt key)) ∧
    (hasScope P.publicScopes scope → scope = 1) ∧
    (∀ r ∈ P.readers, ∀ r' ∈ P.readers, r.did = r'.did → r = r') ∧
    (∀ payload : Json,
      filterPayload payload (policyRights P did now) scope observedAt =
        filterPayload payload (policyRights (P.inForce did now) did now) scope observedAt) := by
  have haccepted := accepted_of_normalizePolicy hP
  refine ⟨?_, scope_eq_one_of_public haccepted.publicScopes hscope,
    fun r hr r' hr' => reader_unique haccepted hr hr', fun payload => ?_⟩
  · intro payload measurements key henc hm
    have hlegacy : (policyRights P did now).legacy = false := rfl
    rw [← admitted_iff_granted haccepted hscope]
    simp only [Appears, filterPayload_eq_ok hlegacy henc, Json.object.injEq]
    constructor
    · rintro ⟨out, ms, ⟨hbit, hout, rfl⟩, hget, hown⟩
      rw [get?_filterFields_measurements _ _ _ hm, Option.some.injEq, Json.object.injEq] at hget
      subst hget
      obtain ⟨hadmits, hvalue⟩ := (hasOwn_filterMeasurements measurements _).mp hown
      simp only [admitsKey, Bool.and_eq_true, Bool.not_eq_true'] at hadmits
      obtain ⟨⟨⟨hkey, hproto⟩, hloc⟩, hallow⟩ := hadmits
      exact ⟨hkey, hproto, hloc, hvalue, hbit, hout, hallow⟩
    · rintro ⟨hkey, hproto, hloc, hvalue, hbit, hout, hallow⟩
      refine ⟨_, _, ⟨hbit, hout, rfl⟩, get?_filterFields_measurements _ _ _ hm, ?_⟩
      refine (hasOwn_filterMeasurements measurements _).mpr ⟨?_, hvalue⟩
      simp [admitsKey, hkey, hproto, hloc, hallow]
  · rw [← policyRights_inForce]

/-! ### A restricted policy with one reader -/

/-- The untyped policy that grants one DID realtime, history and export of
`pvPower`. -/
def pvPowerPolicy : Json :=
  .object [("mode", .string "restricted"), ("revision", .string "1"), ("publicScopes", .number 0),
    ("readers", .array [.object
      [("did", .string ("did:iota:0x" ++ .ofList (.replicate 64 '2'))), ("scopes", .number 7),
       ("validFrom", .number 100), ("expiresAt", .number 2000), ("historyFrom", .number 100),
       ("historyTo", .number 300), ("allMeasurements", .bool false),
       ("measurements", .array [.string "pvPower"])]])]

/-- What normalisation makes of it. -/
def pvPowerAccepted : AccessPolicy where
  mode := .restricted
  publicScopes := 0
  readers := [{ did := "did:iota:0x" ++ .ofList (.replicate 64 '2'), scopes := 7, validFrom := 100,
                expiresAt := 2000, historyFrom := 100, historyTo := 300, allMeasurements := false,
                measurements := ["pvPower"] }]
  ownerDid := "did:iota:0x" ++ .ofList (.replicate 64 '1')
  revision := "1"
  updatedAt := 0

theorem canonicalDid_digit [Runtime] {digit : Char} (h : isLowerHex digit) :
    canonicalDid (some (.string ("did:iota:0x" ++ .ofList (.replicate 64 digit)))) "mainnet" =
      .ok ("did:iota:0x" ++ .ofList (.replicate 64 digit)) := by
  have heq : "did:iota:0x" ++ .ofList (.replicate 64 digit) = didPrefix "mainnet" ++ objectId digit := by
    apply String.toList_inj.mp
    simp only [didPrefix, if_true, objectId, String.toList_append, String.toList_ofList, String.reduceToList]
    rfl
  rw [heq]
  exact canonicalDid_append (isObjectId_objectId h) (ascii_of_all (by decide))

/-- Whoever the reader and the owner are, the policy is accepted. -/
theorem normalizePolicy_reader [Runtime] {reader owner : String}
    (hreader : canonicalDid (some (.string reader)) "mainnet" = .ok reader)
    (howner : canonicalDid (some (.string owner)) "mainnet" = .ok owner) :
    normalizePolicy
      (some (.object [("mode", .string "restricted"), ("revision", .string "1"), ("publicScopes", .number 0),
        ("readers", .array [.object
          [("did", .string reader), ("scopes", .number 7), ("validFrom", .number 100), ("expiresAt", .number 2000),
           ("historyFrom", .number 100), ("historyTo", .number 300), ("allMeasurements", .bool false),
           ("measurements", .array [.string "pvPower"])]])])) "mainnet" (some (.string owner)) 1000 =
      .ok { mode := .restricted, publicScopes := 0, ownerDid := owner, revision := "1", updatedAt := 0
            readers := [{ did := reader, scopes := 7, validFrom := 100, expiresAt := 2000, historyFrom := 100,
                          historyTo := 300, allMeasurements := false, measurements := ["pvPower"] }] } := by
  let entry : Json := .object
    [("did", .string reader), ("scopes", .number 7), ("validFrom", .number 100), ("expiresAt", .number 2000),
     ("historyFrom", .number 100), ("historyTo", .number 300), ("allMeasurements", .bool false),
     ("measurements", .array [.string "pvPower"])]
  have hread : normalizeReader (some entry) "mainnet" 1000 = .ok
      { did := reader, scopes := 7, validFrom := 100, expiresAt := 2000, historyFrom := 100, historyTo := 300,
        allMeasurements := false, measurements := ["pvPower"] } := by
    have hdid : coalesce ((object (some entry)).get? "did") ((object (some entry)).get? "subject_did") =
        some (.string reader) := rfl
    rw [normalizeReader, hdid, hreader]
    rfl
  have hreaders : [entry].mapM (fun r => normalizeReader (some r) "mainnet" 1000) = .ok
      [{ did := reader, scopes := 7, validFrom := 100, expiresAt := 2000, historyFrom := 100, historyTo := 300,
         allMeasurements := false, measurements := ["pvPower"] }] := by
    simp [hread, bind, Except.bind, pure, Except.pure]
  have hshape : policyShape (some (.object [("mode", .string "restricted"), ("revision", .string "1"),
      ("publicScopes", .number 0), ("readers", .array [entry])])) = .ok (.restricted, [entry]) := rfl
  refine (show normalizePolicy _ _ _ _ = (policyShape _ >>= _) from rfl).trans ?_
  rw [hshape]
  refine (show _ = ([entry].mapM (fun r => normalizeReader (some r) "mainnet" 1000) >>= _) from rfl).trans ?_
  rw [hreaders]
  refine (show _ = (canonicalDid (some (.string owner)) "mainnet" >>= _) from rfl).trans ?_
  rw [howner]
  rfl

theorem normalizePolicy_pvPowerPolicy :
    @normalizePolicy Runtime.ascii (some pvPowerPolicy) "mainnet"
      (some (.string pvPowerAccepted.ownerDid)) 1000 = .ok pvPowerAccepted :=
  @normalizePolicy_reader Runtime.ascii _ _ (@canonicalDid_digit Runtime.ascii _ rfl)
    (@canonicalDid_digit Runtime.ascii _ rfl)

theorem measurement_appears_iff_pvPower :
    @Appears Runtime.ascii [("measurements", .object [("pvPower", .number 9)])] pvPowerAccepted
      ("did:iota:0x" ++ .ofList (.replicate 64 '2')) 1000 2 200 "pvPower" := by
  let := Runtime.ascii
  refine ((measurement_appears_iff normalizePolicy_pvPowerPolicy _ 1000
    (by decide) 200).1 _ [("pvPower", .number 9)] "pvPower" rfl rfl).mpr ?_
  refine ⟨by decide, by decide, by decide, ⟨_, rfl, .inl rfl⟩, .inr (.inr ⟨_, .head _, ?_⟩)⟩
  exact ⟨by decide, by decide, by decide, by decide, fun _ => by decide⟩

end Sharing
