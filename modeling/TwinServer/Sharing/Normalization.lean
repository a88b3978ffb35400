-- SUMMARY: The form that policies are brought into: it is its own form, and it forgets how the policy was written down.
import Mathlib.Algebra.Group.Nat.Defs
import TwinServer.Base.Records
import TwinServer.Sharing.Visibility

/-!
# Normalisation

A policy is accepted when its values, under either name and as a number or a decimal text, are read and pass
the checks. Both halves are stated of the result, so the result written down as JSON is accepted as itself,
and so is every other way to write it down. The revision alone is kept as the text it has.
-/

open Js Js.Json

namespace Sharing

/-! ## The result as JSON -/

def Reader.toJson (r : Reader) : Json :=
  .object [("did", .string r.did), ("scopes", .number r.scopes), ("validFrom", .number r.validFrom),
    ("expiresAt", .number r.expiresAt), ("historyFrom", .number r.historyFrom),
    ("historyTo", .number r.historyTo), ("allMeasurements", .bool r.allMeasurements),
    ("measurements", .array (r.measurements.map .string))]

def AccessPolicy.toJson (P : AccessPolicy) : Json :=
  .object [("mode", .string P.mode.name), ("publicScopes", .number P.publicScopes),
    ("readers", .array (P.readers.map Reader.toJson)), ("ownerDid", .string P.ownerDid),
    ("revision", .string P.revision), ("updatedAt", .number P.updatedAt), ("source", .string "chain")]

/-! ## Canonical policies -/

/-- What holds of every reader of a policy. -/
structure Reader.Canonical (now : Number) (r : Reader) : Prop where
  scopes : r.scopes ≤ 63
  export_ : hasScope r.scopes 4 → hasScope r.scopes 2
  admin : hasScope r.scopes 32 →
    r.scopes = 63 ∧ r.allMeasurements ∧ r.measurements = [] ∧ r.historyFrom = 0 ∧ r.historyTo = 0
  expiry : r.expiresAt = 0 ∨ r.validFrom < r.expiresAt ∧ (r.expiresAt : Number).le now = false
  history : r.historyTo = 0 ∨ r.historyFrom < r.historyTo
  bounds : hasScope r.scopes 2 ∨ r.historyFrom = 0 ∧ r.historyTo = 0
  all : r.allMeasurements → r.measurements = []
  selected : hasScope r.scopes 3 → r.allMeasurements ∨ r.measurements ≠ []

/-- What holds of every policy. The scopes 1, 8 and 16 are the bits of 25. -/
structure AccessPolicy.Canonical (now : Number) (P : AccessPolicy) : Prop where
  publicScopes : P.publicScopes &&& 25 = P.publicScopes
  public_ : P.mode = .public_ ∨ P.publicScopes = 0
  readers : ∀ r ∈ P.readers, r.Canonical now
  distinct : (P.readers.map (·.did)).Nodup
  private_ : P.mode = .private_ → P.readers = []
  restricted : P.mode = .restricted → P.readers ≠ []

/-! ## Readers -/

section
variable [Runtime] {network : String} {now : Number}

/-- The property under the first of two names, or under the other one. -/
def either (v : Json) (camel snake : String) : Option Json := coalesce (v.get? camel) (v.get? snake)

/-- The values of a reader are read as those of the result. -/
structure Reader.ReadFrom (v : Json) (network : String) (r : Reader) : Prop where
  did : canonicalDid (either v "did" "subject_did") network = .ok r.did
  scopes : integer (v.get? "scopes") "scopes" = .ok r.scopes
  validFrom : integer (coalesce (either v "validFrom" "valid_from") (some (.number 0))) "valid from" =
    .ok r.validFrom
  expiresAt : integer (coalesce (either v "expiresAt" "expires_at") (some (.number 0))) "expiry" =
    .ok r.expiresAt
  historyFrom : integer (coalesce (either v "historyFrom" "history_from") (some (.number 0)))
    "history start" = .ok r.historyFrom
  historyTo : integer (coalesce (either v "historyTo" "history_to") (some (.number 0))) "history end" =
    .ok r.historyTo
  measurements : normalizeMeasurements (either v "allMeasurements" "all_measurements")
    (v.get? "measurements") = .ok (r.allMeasurements, r.measurements)

omit [Runtime] in
theorem strings?_eq_some {items : List Json} {keys : List String} :
    strings? items = some keys ↔ items = keys.map .string := by
  unfold strings?
  induction items generalizing keys with
  | nil =>
    cases keys <;> simp
  | cons v items ih =>
    rw [List.mapM_cons]
    cases v with
    | string s => cases keys <;> simp [Option.bind_eq_some_iff, ih, and_comm]
    | _ => cases keys <;> simp

omit [Runtime] in
theorem normalizeMeasurements_eq_ok {all measurements : Option Json} {b : Bool} {keys : List String} :
    normalizeMeasurements all measurements = .ok (b, keys) ↔
      all = some (.bool b) ∧ measurements = some (.array (keys.map .string)) ∧ keys.length ≤ 64 ∧
        (∀ k ∈ keys, isKeySyntax k ∧ isPrototypeKey k = false) ∧ keys.Nodup := by
  unfold normalizeMeasurements
  split
  case h_1 all items =>
    rw [Except.check_bind_eq_ok, rejectIf_eq_ok]
    cases hstrings : strings? items with
    | none =>
      refine iff_of_false nofun ?_
      rintro ⟨-, hitems, -⟩
      obtain rfl := Json.array.inj (Option.some.inj hitems)
      rw [strings?_eq_some.mpr rfl] at hstrings
      cases hstrings
    | some keys' =>
      obtain rfl := strings?_eq_some.mp hstrings
      rw [Except.check_bind_eq_ok, rejectIf_eq_ok, Except.pure_eq_ok]
      simp only [List.length_map, decide_eq_false_iff_not, not_lt, Bool.or_eq_false_iff, List.any_eq_false,
        Bool.or_eq_true, Bool.not_eq_true', not_or, Bool.not_eq_false, Bool.not_eq_true, Prod.mk.injEq,
        Bool.not_eq_false', decide_eq_true_eq, Option.some.injEq, Json.bool.injEq, Json.array.injEq]
      constructor
      · rintro ⟨hlength, ⟨hkeys, hnodup⟩, rfl, rfl⟩
        exact ⟨rfl, rfl, hlength, hkeys, hnodup⟩
      · rintro ⟨rfl, hmap, hlength, hkeys, hnodup⟩
        obtain rfl := List.map_injective_iff.mpr (fun _ _ => Json.string.inj) hmap
        exact ⟨hlength, ⟨hkeys, hnodup⟩, rfl, rfl⟩
  case h_2 hother =>
    refine iff_of_false nofun ?_
    rintro ⟨rfl, rfl, -⟩
    exact hother _ _ rfl rfl

omit [Runtime] in
theorem truthy?_length (keys : List String) :
    truthy? ((some (Json.array (keys.map .string))).bind length?) = !keys.isEmpty := by
  have htruthy : (Number.ofNat (keys.map Json.string).length).truthy = !keys.isEmpty := by
    rw [List.length_map]
    cases keys with
    | nil => rfl
    | cons k keys =>
      have hne : Number.ofNat (k :: keys).length ≠ .finite 0 := fun h =>
        Nat.succ_ne_zero _ (Number.ofNat_injective (h.trans (rfl : Number.finite 0 = Number.ofNat 0)))
      simp only [Number.ofNat, ne_eq, Number.finite.injEq] at hne
      simpa [Number.ofNat, Number.truthy] using hne
  exact htruthy

/-- The checks that a reader passes are those that hold of the result. -/
theorem normalizeReader_eq_ok {value : Option Json} {r : Reader} :
    normalizeReader value network now = .ok r ↔ r.ReadFrom (object value) network ∧ r.Canonical now := by
  unfold normalizeReader
  simp only [Except.bind_eq_ok, rejectIf_eq_ok, Except.pure_eq_ok, Bool.or_eq_false_iff, Bool.and_eq_false_iff,
    decide_eq_false_iff_not, Bool.not_eq_false', bne_eq_false_iff_eq, Prod.exists, exists_and_left]
  constructor
  · rintro ⟨did, hdid, scopes, hscopes, validFrom, hvalidFrom, expiresAt, hexpiresAt, historyFrom, hhistoryFrom,
      historyTo, hhistoryTo, ⟨hmax, hexport⟩, hadmin, hexpiry, hhistory, hbounds, -, -, -, -, -, all, keys, hkeys,
      hall, hselected, -, -, rfl⟩
    refine ⟨⟨hdid, hscopes, hvalidFrom, hexpiresAt, hhistoryFrom, hhistoryTo, hkeys⟩, ?_⟩
    obtain ⟨hboolean, harray, -⟩ := normalizeMeasurements_eq_ok.mp hkeys
    rw [hboolean, harray, truthy?_length] at hadmin
    refine ⟨Nat.not_lt.mp hmax, fun h4 => ?_, fun h32 => ?_, ?_, ?_, hbounds, fun h => ?_, fun h3 => ?_⟩
    · exact hexport.resolve_left (by simpa using h4)
    · obtain ⟨⟨⟨⟨h63, htrue⟩, hempty⟩, hfrom⟩, hto⟩ := hadmin.resolve_left (by simpa using h32)
      exact ⟨h63, htrue, by simpa using hempty, hfrom, hto⟩
    · exact hexpiry.imp_right fun h => ⟨Nat.not_le.mp h.1, h.2⟩
    · exact hhistory.imp_right Nat.not_le.mp
    · exact List.isEmpty_iff.mp (hall.resolve_left (by simpa using h))
    · refine (hselected.imp_left fun h => h.resolve_left (by simpa using h3)).imp_right fun h => ?_
      exact List.isEmpty_eq_false_iff.mp h
  · rintro ⟨h, hc⟩
    obtain ⟨hboolean, harray, -⟩ := normalizeMeasurements_eq_ok.mp h.measurements
    refine ⟨r.did, h.did, r.scopes, h.scopes, r.validFrom, h.validFrom, r.expiresAt, h.expiresAt, r.historyFrom,
      h.historyFrom, r.historyTo, h.historyTo, ⟨Nat.not_lt.mpr hc.scopes, ?_⟩, ?_, ?_, ?_, hc.bounds, (), (), (),
      (), (), r.allMeasurements, r.measurements, h.measurements, ?_, ?_, (), (), rfl⟩
    · cases h4 : hasScope r.scopes 4 with
      | false => exact .inl rfl
      | true => exact .inr (hc.export_ h4)
    · cases h32 : hasScope r.scopes 32 with
      | false => exact .inl rfl
      | true =>
        obtain ⟨h63, htrue, hempty, hfrom, hto⟩ := hc.admin h32
        refine .inr ⟨⟨⟨⟨h63, ?_⟩, ?_⟩, hfrom⟩, hto⟩
        · exact (congrArg truthy? hboolean).trans htrue
        · rw [harray, truthy?_length, hempty]
          rfl
    · exact hc.expiry.imp_right fun h => ⟨Nat.not_le.mpr h.1, h.2⟩
    · exact hc.history.imp_right Nat.not_le.mpr
    · cases hall : r.allMeasurements with
      | false => exact .inl rfl
      | true => exact .inr (List.isEmpty_iff.mpr (hc.all hall))
    · cases h3 : hasScope r.scopes 3 with
      | false => exact .inl (.inl rfl)
      | true => exact (hc.selected h3).imp .inr List.isEmpty_eq_false_iff.mpr

/-! ## Integers -/

/-- Two values of an integer that differ only in how it is written down. -/
inductive SameInteger : Option Json → Option Json → Prop
  | refl (v : Option Json) : SameInteger v v
  | text {n : Nat} {s : String} (h : isDigits s) (hn : digitsToNat s = n) :
    SameInteger (some (.number n)) (some (.string s))
  | number {n : Nat} {s : String} (h : isDigits s) (hn : digitsToNat s = n) :
    SameInteger (some (.string s)) (some (.number n))

/-- The check that comes before a number is read. -/
def checkDigits (value : Option Json) (label : String) : Except PolicyError Unit :=
  if isNumber value then .ok ()
  else orTypeError (stringOf value) >>= fun text => rejectIf (!isDigits text) ("Invalid " ++ label)

theorem integer_eq (value : Option Json) (label : String) :
    integer value label = (checkDigits value label >>= fun _ => orTypeError (toNumber? value) >>= fun n =>
      n.safeNat?.elim (reject ("Invalid " ++ label)) .ok) := by
  unfold integer checkDigits
  cases isNumber value with
  | true =>
    cases toNumber? value with
    | none => rfl
    | some n =>
      dsimp only [orTypeError, bind, Except.bind, Option.elim]
      cases n.safeNat? <;> rfl
  | false =>
    cases stringOf value with
    | none => rfl
    | some text =>
      dsimp only [orTypeError, bind, Except.bind, Option.elim]
      cases isDigits text with
      | false => rfl
      | true =>
        cases toNumber? value with
        | none => rfl
        | some n =>
          dsimp only
          cases n.safeNat? <;> rfl

theorem integer_number (n : Nat) (label : String) :
    integer (some (.number n)) label = if n ≤ Number.maxSafe then .ok n else reject ("Invalid " ++ label) := by
  have hunfold : integer (some (.number n)) label =
      (Number.safeNat? n).elim (reject ("Invalid " ++ label)) .ok := integer_eq _ _
  rw [hunfold, Number.safeNat?_ofNat]
  split <;> rfl

theorem integer_digits {s : String} (h : isDigits s) (label : String) :
    integer (some (.string s)) label =
      if digitsToNat s ≤ Number.maxSafe then .ok (digitsToNat s) else reject ("Invalid " ++ label) := by
  have hcheck : checkDigits (some (.string s)) label = .ok () := by
    have hunfold : checkDigits (some (.string s)) label = rejectIf (!isDigits s) ("Invalid " ++ label) := rfl
    rw [hunfold, h]
    rfl
  have hunfold : integer (some (.string s)) label =
      (stringToNumber s).safeNat?.elim (reject ("Invalid " ++ label)) .ok := by
    rw [integer_eq, hcheck]
    rfl
  rw [hunfold, Runtime.stringToNumber_digits s h]
  split <;> rfl

theorem SameInteger.integer_eq {v w : Option Json} (h : SameInteger v w) (label : String) :
    integer v label = integer w label := by
  cases h with
  | refl => rfl
  | text h hn => rw [integer_number, integer_digits h, hn]
  | number h hn => rw [integer_number, integer_digits h, hn]

/-- An integer that is read is safe, so as a number it is read as itself. -/
theorem integer_of_integer {v : Option Json} {label : String} {n : Nat} (h : integer v label = .ok n)
    (label' : String) : integer (some (.number n)) label' = .ok n := by
  have hsafe : n ≤ Number.maxSafe := by
    rw [integer_eq] at h
    obtain ⟨-, -, h⟩ := Except.bind_eq_ok.mp h
    obtain ⟨x, -, h⟩ := Except.bind_eq_ok.mp h
    cases hx : x.safeNat? with
    | none =>
      rw [hx] at h
      cases h
    | some m =>
      rw [hx] at h
      obtain rfl := Except.ok.inj h
      unfold Number.safeNat? at hx
      split at hx
      · split at hx
        · exact Option.some.inj hx ▸ ‹_›
        · cases hx
      · cases hx
  rw [integer_number, if_pos hsafe]

/-! ## DIDs -/

/-- A DID in its canonical form is its own canonical form. -/
theorem canonicalDid_of_canonicalDid (hlower : ∀ s : String, toLowerCase (toLowerCase s) = toLowerCase s)
    {value : Option Json} {did : String} (h : canonicalDid value network = .ok did) :
    canonicalDid (some (.string did)) network = .ok did := by
  unfold canonicalDid at h
  obtain ⟨text, -, h⟩ := Except.bind_eq_ok.mp h
  obtain ⟨_, hdid, h⟩ := Except.bind_eq_ok.mp h
  obtain rfl := Except.pure_eq_ok.mp h
  have hdid : isDid (toLowerCase (trim text)) network := by simpa using hdid
  have hsame : toLowerCase (trim (toLowerCase (trim text))) = toLowerCase (trim text) := by
    rw [trim_isDid hdid, hlower]
  have hunfold : canonicalDid (some (.string (toLowerCase (trim text)))) network =
      (rejectIf (!isDid (toLowerCase (trim (toLowerCase (trim text)))) network)
        ("A valid " ++ network ++ " DID is required") >>= fun _ =>
          .ok (toLowerCase (trim (toLowerCase (trim text))))) := rfl
  rw [hunfold, hsame, hdid]
  rfl

/-! ## Readers, written down again -/

/-- The reader of a result is read as itself. -/
theorem Reader.ReadFrom.toJson (hlower : ∀ s : String, toLowerCase (toLowerCase s) = toLowerCase s) {v : Json}
    {r : Reader} (h : r.ReadFrom v network) : r.ReadFrom (object (some r.toJson)) network := by
  obtain ⟨-, -, hkeys⟩ := normalizeMeasurements_eq_ok.mp h.measurements
  exact
    { did := canonicalDid_of_canonicalDid hlower h.did
      scopes := integer_of_integer h.scopes _
      validFrom := integer_of_integer h.validFrom _
      expiresAt := integer_of_integer h.expiresAt _
      historyFrom := integer_of_integer h.historyFrom _
      historyTo := integer_of_integer h.historyTo _
      measurements := normalizeMeasurements_eq_ok.mpr ⟨rfl, rfl, hkeys⟩ }

/-- A time under either name, as a number or as a decimal text, with a zero or without the property. -/
def SameTime (v w : Json) (camel snake : String) : Prop :=
  SameInteger (coalesce (either v camel snake) (some (.number 0)))
    (coalesce (either w camel snake) (some (.number 0)))

/-- Two readers that differ only in how they are written down: with or without a wrapper, under either name
of a property, with an integer as a number or as a decimal text. -/
structure SameReader (v w : Json) : Prop where
  did : either (object (some v)) "did" "subject_did" = either (object (some w)) "did" "subject_did"
  scopes : SameInteger ((object (some v)).get? "scopes") ((object (some w)).get? "scopes")
  validFrom : SameTime (object (some v)) (object (some w)) "validFrom" "valid_from"
  expiresAt : SameTime (object (some v)) (object (some w)) "expiresAt" "expires_at"
  historyFrom : SameTime (object (some v)) (object (some w)) "historyFrom" "history_from"
  historyTo : SameTime (object (some v)) (object (some w)) "historyTo" "history_to"
  allMeasurements : either (object (some v)) "allMeasurements" "all_measurements" =
    either (object (some w)) "allMeasurements" "all_measurements"
  measurements : (object (some v)).get? "measurements" = (object (some w)).get? "measurements"

theorem SameReader.readFrom {v w : Json} (h : SameReader v w) {r : Reader}
    (hr : r.ReadFrom (object (some v)) network) : r.ReadFrom (object (some w)) network where
  did := by
    rw [← h.did]
    exact hr.did
  scopes := (h.scopes.integer_eq _).symm.trans hr.scopes
  validFrom := (SameInteger.integer_eq h.validFrom _).symm.trans hr.validFrom
  expiresAt := (SameInteger.integer_eq h.expiresAt _).symm.trans hr.expiresAt
  historyFrom := (SameInteger.integer_eq h.historyFrom _).symm.trans hr.historyFrom
  historyTo := (SameInteger.integer_eq h.historyTo _).symm.trans hr.historyTo
  measurements := by
    rw [← h.allMeasurements, ← h.measurements]
    exact hr.measurements

theorem SameReader.normalizeReader {v w : Json} (h : SameReader v w) {r : Reader}
    (hr : normalizeReader (some v) network now = .ok r) : Sharing.normalizeReader (some w) network now = .ok r := by
  obtain ⟨hread, hcanonical⟩ := normalizeReader_eq_ok.mp hr
  exact normalizeReader_eq_ok.mpr ⟨h.readFrom hread, hcanonical⟩

omit [Runtime] in
theorem sameReader_of_object_eq {v w : Json} (h : object (some v) = object (some w)) : SameReader v w := by
  constructor <;> rw [h]
  · exact .refl _
  · exact .refl _
  · exact .refl _
  · exact .refl _
  · exact .refl _

omit [Runtime] in
/-- A reader in a wrapper is the reader itself. -/
theorem sameReader_wrapper {fields : Record Json} (h : fields.get? "fields" = none) :
    SameReader (.object fields) (.object [("fields", .object fields)]) := by
  refine sameReader_of_object_eq ?_
  have hnone : Json.get? (.object fields) "fields" = none := h
  rw [object, Option.bind_some, hnone]
  rfl

/-- The names of a reader on the chain. -/
def onChainNames : List (String × String) :=
  [("did", "subject_did"), ("validFrom", "valid_from"), ("expiresAt", "expires_at"),
    ("historyFrom", "history_from"), ("historyTo", "history_to"), ("allMeasurements", "all_measurements")]

def onChainName (k : String) : String := (onChainNames.lookup k).getD k

/-- A record with its keys as they are on the chain. -/
def onChain (fields : Record Json) : Record Json := fields.map fun e => (onChainName e.1, e.2)

omit [Runtime] in
theorem mem_of_lookup {names : List (String × String)} {k name : String} (h : names.lookup k = some name) :
    (k, name) ∈ names := Record.mem_of_get? (o := names) h

omit [Runtime] in
theorem onChainName_eq_iff {k : String} (hk : k ∉ onChainNames.map Prod.snd) {e : String × String}
    (he : e ∈ onChainNames) : onChainName k = e.2 ↔ k = e.1 := by
  have htable : ∀ e ∈ onChainNames, ∀ e' ∈ onChainNames, e.2 = e'.2 ↔ e.1 = e'.1 := by decide
  unfold onChainName
  cases hlookup : onChainNames.lookup k with
  | some name => exact htable _ (mem_of_lookup hlookup) e he
  | none =>
    rw [Option.getD_none]
    refine iff_of_false ?_ ?_
    · rintro rfl
      exact hk (List.mem_map_of_mem he)
    · rintro rfl
      exact Record.get?_eq_none.mp hlookup (List.mem_map_of_mem he)

omit [Runtime] in
theorem get?_onChain {fields : Record Json} {k name : String}
    (h : ∀ e ∈ fields, onChainName e.1 = name ↔ e.1 = k) : Record.get? (onChain fields) name = fields.get? k := by
  induction fields with
  | nil => rfl
  | cons e fields ih =>
    obtain ⟨key, v⟩ := e
    have hkey := h (key, v) List.mem_cons_self
    have hrest := ih fun e he => h e (List.mem_cons_of_mem _ he)
    have hcons : onChain ((key, v) :: fields) = (onChainName key, v) :: onChain fields := rfl
    rw [hcons, Record.get?_cons, Record.get?_cons, hrest]
    exact if_congr (eq_comm.trans (hkey.trans eq_comm)) rfl rfl

omit [Runtime] in
/-- A reader with its keys as they are on the chain is the reader itself. -/
theorem sameReader_onChain {fields : Record Json} (hkeys : ∀ e ∈ fields, e.1 ∉ onChainNames.map Prod.snd)
    (hfields : fields.get? "fields" = none) (hnull : ∀ k, fields.get? k ≠ some .null) :
    SameReader (.object fields) (.object (onChain fields)) := by
  have hsame : ∀ k, k ∉ onChainNames.map Prod.fst → k ∉ onChainNames.map Prod.snd →
      Record.get? (onChain fields) k = fields.get? k := by
    intro k hfirst hsecond
    refine get?_onChain fun e he => ?_
    by_cases hname : e.1 ∈ onChainNames.map Prod.fst
    · obtain ⟨names, hnames, hfst⟩ := List.mem_map.mp hname
      have hsnd : onChainName e.1 = names.2 := (onChainName_eq_iff (hkeys e he) hnames).mpr hfst.symm
      refine iff_of_false (fun h => hsecond ?_) (fun h => hfirst (h ▸ hname))
      exact h ▸ hsnd ▸ List.mem_map_of_mem hnames
    · have hself : onChainName e.1 = e.1 := by
        rw [onChainName, show onChainNames.lookup e.1 = none from Record.get?_eq_none.mpr hname]
        rfl
      rw [hself]
  have hobject : object (some (.object fields)) = .object fields := by
    rw [object, Option.bind_some, show Json.get? (.object fields) "fields" = none from hfields]
    rfl
  have hobject' : object (some (.object (onChain fields))) = .object (onChain fields) := by
    have hnone : Json.get? (.object (onChain fields)) "fields" = none :=
      (hsame "fields" (by decide) (by decide)).trans hfields
    rw [object, Option.bind_some, hnone]
    rfl
  have heither : ∀ names ∈ onChainNames, either (object (some (.object fields))) names.1 names.2 =
      either (object (some (.object (onChain fields)))) names.1 names.2 := by
    intro names hnames
    have htable : ∀ names ∈ onChainNames, ∀ names' ∈ onChainNames, names.1 ≠ names'.2 := by decide
    have hold : fields.get? names.2 = none := by
      refine Record.get?_eq_none.mpr fun hmem => ?_
      obtain ⟨e, he, heq⟩ := List.mem_map.mp hmem
      exact hkeys e he (heq ▸ List.mem_map_of_mem hnames)
    have hnew : Record.get? (onChain fields) names.2 = fields.get? names.1 :=
      get?_onChain fun e he => onChainName_eq_iff (hkeys e he) hnames
    have hgone : Record.get? (onChain fields) names.1 = none := by
      refine Record.get?_eq_none.mpr fun hmem => ?_
      obtain ⟨e', he', heq⟩ := List.mem_map.mp hmem
      obtain ⟨e, he, rfl⟩ := List.mem_map.mp he'
      have hname : onChainName e.1 = names.1 := heq
      unfold onChainName at hname
      cases hlookup : onChainNames.lookup e.1 with
      | some name =>
        rw [hlookup] at hname
        exact htable names hnames _ (mem_of_lookup hlookup) hname.symm
      | none =>
        rw [hlookup] at hname
        have hmem : e.1 ∈ onChainNames.map Prod.fst := by
          rw [show e.1 = names.1 from hname]
          exact List.mem_map_of_mem hnames
        exact Record.get?_eq_none.mp hlookup hmem
    rw [hobject, hobject']
    show coalesce (Record.get? fields names.1) (Record.get? fields names.2) =
      coalesce (Record.get? (onChain fields) names.1) (Record.get? (onChain fields) names.2)
    rw [hold, hnew, hgone]
    cases hvalue : fields.get? names.1 with
    | none => rfl
    | some v =>
      cases v with
      | null => exact absurd hvalue (hnull _)
      | _ => rfl
  have htime (names : String × String) (hnames : names ∈ onChainNames) :
      SameTime (object (some (.object fields))) (object (some (.object (onChain fields)))) names.1 names.2 := by
    rw [SameTime, heither names hnames]
    exact .refl _
  have hplain (k : String) (h : k ∉ onChainNames.map Prod.fst) (h' : k ∉ onChainNames.map Prod.snd) :
      (object (some (.object fields))).get? k = (object (some (.object (onChain fields)))).get? k := by
    rw [hobject, hobject']
    exact (hsame k h h').symm
  constructor
  · exact heither ("did", "subject_did") (by simp [onChainNames])
  · rw [hplain "scopes" (by decide) (by decide)]
    exact .refl _
  · exact htime ("validFrom", "valid_from") (by simp [onChainNames])
  · exact htime ("expiresAt", "expires_at") (by simp [onChainNames])
  · exact htime ("historyFrom", "history_from") (by simp [onChainNames])
  · exact htime ("historyTo", "history_to") (by simp [onChainNames])
  · exact heither ("allMeasurements", "all_measurements") (by simp [onChainNames])
  · exact hplain "measurements" (by decide) (by decide)

/-! ## Policies -/

omit [Runtime] in
theorem policyShape_eq_ok {input : Option Json} {mode : Mode} {items : List Json} :
    policyShape input = .ok (mode, items) ↔ Mode.parse (input.bind (·.get? "mode")) = some mode ∧
      input.bind (·.get? "readers") = some (.array items) ∧ items.length ≤ 100 := by
  unfold policyShape
  split
  case h_1 mode' items' hmode hitems =>
    rw [hmode, hitems]
    simp only [Option.some.injEq, Json.array.injEq]
    split
    case isTrue hlength =>
      refine iff_of_false nofun ?_
      rintro ⟨-, rfl, hle⟩
      exact absurd hle (Nat.not_le.mpr hlength)
    case isFalse hlength =>
      simp only [Except.ok.injEq, Prod.mk.injEq]
      refine and_congr_right fun _ => ⟨?_, And.left⟩
      rintro rfl
      exact ⟨rfl, Nat.not_lt.mp hlength⟩
  case h_2 hother =>
    refine iff_of_false nofun ?_
    rintro ⟨hmode, hitems, -⟩
    exact hother _ _ hmode hitems

/-- The values of a policy are read as those of the result. -/
structure AccessPolicy.ReadFrom (input : Option Json) (network : String) (ownerDid : Option Json) (now : Number)
    (P : AccessPolicy) : Prop where
  shape : ∃ items, policyShape input = .ok (P.mode, items) ∧
    List.Forall₂ (fun v r => normalizeReader (some v) network now = .ok r) items P.readers
  publicScopes : integer (coalesce (input.bind (·.get? "publicScopes")) (some (.number 0))) "public scopes" =
    .ok P.publicScopes
  revision : normalizeRevision (input.bind (·.get? "revision")) = .ok P.revision
  ownerDid : canonicalDid ownerDid network = .ok P.ownerDid
  updatedAt : integer (coalesce (input.bind (·.get? "updatedAt")) (some (.number 0))) "updated time" =
    .ok P.updatedAt

theorem normalizePolicy_eq_ok {input ownerDid : Option Json} {P : AccessPolicy} :
    normalizePolicy input network ownerDid now = .ok P ↔
      P.ReadFrom input network ownerDid now ∧ P.Canonical now := by
  simp only [normalizePolicy, Except.bind_eq_ok, Except.pure_eq_ok, rejectIf_eq_ok, Bool.or_eq_false_iff,
    Bool.and_eq_false_iff, Except.mapM_eq_ok, Prod.exists, exists_and_left]
  constructor
  · rintro ⟨mode, items, hshape, publicScopes, hpublicScopes, ⟨⟨hbits, -⟩, hpublic⟩, -, readers, hreaders,
      hdistinct, ⟨hprivate, hrestricted⟩, -, -, revision, hrevision, ownerDid, hownerDid, updatedAt, hupdatedAt, rfl⟩
    have hcanonical : ∀ r ∈ readers, r.Canonical now := by
      intro r hr
      obtain ⟨v, -, hv⟩ := (Except.mem_of_mapM_eq_ok (Except.mapM_eq_ok.mpr hreaders) r).mp hr
      exact (normalizeReader_eq_ok.mp hv).2
    refine ⟨⟨⟨items, hshape, hreaders⟩, hpublicScopes, hrevision, hownerDid, hupdatedAt⟩, ?_⟩
    refine ⟨by simpa using hbits, ?_, hcanonical, by simpa using hdistinct, ?_, ?_⟩
    · exact hpublic.imp (by simp) (by simp)
    · rintro rfl
      exact List.isEmpty_iff.mp (by simpa using hprivate)
    · rintro rfl
      exact List.isEmpty_eq_false_iff.mp (by simpa using hrestricted)
  · rintro ⟨⟨⟨items, hshape, hreaders⟩, hpublicScopes, hrevision, hownerDid, hupdatedAt⟩, hc⟩
    have hmax : P.publicScopes ≤ 25 := hc.publicScopes ▸ Nat.and_le_right
    refine ⟨P.mode, items, hshape, P.publicScopes, hpublicScopes, ⟨⟨by simpa using hc.publicScopes, ?_⟩, ?_⟩, (),
      P.readers, hreaders, by simpa using hc.distinct, ⟨?_, ?_⟩, (), (), P.revision, hrevision, P.ownerDid,
      hownerDid, P.updatedAt, hupdatedAt, rfl⟩
    · exact decide_eq_false (by omega)
    · exact hc.public_.imp (by simp) (by simp)
    · cases hmode : P.mode with
      | private_ => exact .inr (by simp [hc.private_ hmode])
      | _ => exact .inl rfl
    · cases hmode : P.mode with
      | restricted => exact .inr (by simpa using hc.restricted hmode)
      | _ => exact .inl rfl

/-- The policy of a result is read as itself. -/
theorem AccessPolicy.ReadFrom.toJson (hlower : ∀ s : String, toLowerCase (toLowerCase s) = toLowerCase s)
    {input ownerDid : Option Json} {P : AccessPolicy} (h : P.ReadFrom input network ownerDid now) :
    P.ReadFrom (some P.toJson) network ownerDid now := by
  obtain ⟨items, hshape, hreaders⟩ := h.shape
  refine ⟨⟨P.readers.map Reader.toJson, ?_, ?_⟩, integer_of_integer h.publicScopes _, ?_, h.ownerDid,
    integer_of_integer h.updatedAt _⟩
  · obtain ⟨-, -, hlength⟩ := policyShape_eq_ok.mp hshape
    refine policyShape_eq_ok.mpr ⟨?_, rfl, ?_⟩
    · have hmode : Mode.parse (some (.string P.mode.name)) = some P.mode := by cases P.mode <;> rfl
      exact hmode
    · rw [List.length_map, ← hreaders.length_eq]
      exact hlength
  · rw [List.forall₂_map_left_iff, List.forall₂_same]
    intro r hr
    obtain ⟨v, -, hv⟩ := (Except.mem_of_mapM_eq_ok (Except.mapM_eq_ok.mpr hreaders) r).mp hr
    obtain ⟨hread, hcanonical⟩ := normalizeReader_eq_ok.mp hv
    exact normalizeReader_eq_ok.mpr ⟨hread.toJson hlower, hcanonical⟩
  · have hrevision := h.revision
    unfold normalizeRevision at hrevision
    obtain ⟨text, -, hrevision⟩ := Except.bind_eq_ok.mp hrevision
    obtain ⟨u, hcheck, hrevision⟩ := Except.bind_eq_ok.mp hrevision
    obtain rfl := Except.pure_eq_ok.mp hrevision
    have hunfold : normalizeRevision (some (.string P.revision)) = (rejectIf
        (!isDigits P.revision || digitsToNat P.revision > maxRevision) "Invalid policy revision" >>= fun _ =>
          .ok P.revision) := rfl
    refine hunfold.trans ?_
    rw [hcheck]
    rfl

/-- Two policies that differ only in how they are written down. The revision is a text, which they share. -/
structure SamePolicy (v w : Json) : Prop where
  mode : v.get? "mode" = w.get? "mode"
  publicScopes : SameInteger (coalesce (v.get? "publicScopes") (some (.number 0)))
    (coalesce (w.get? "publicScopes") (some (.number 0)))
  readers : ∀ items, v.get? "readers" = some (.array items) →
    ∃ items', w.get? "readers" = some (.array items') ∧ List.Forall₂ SameReader items items'
  revision : stringOf (coalesce (v.get? "revision") (some (.string "0"))) =
    stringOf (coalesce (w.get? "revision") (some (.string "0")))
  updatedAt : SameInteger (coalesce (v.get? "updatedAt") (some (.number 0)))
    (coalesce (w.get? "updatedAt") (some (.number 0)))

theorem forall₂_of_same {items items' : List Json} {readers : List Reader}
    (hsame : List.Forall₂ SameReader items items')
    (h : List.Forall₂ (fun v r => normalizeReader (some v) network now = .ok r) items readers) :
    List.Forall₂ (fun v r => normalizeReader (some v) network now = .ok r) items' readers := by
  induction hsame generalizing readers with
  | nil => exact h
  | cons hvw _ ih =>
    cases h with
    | cons hr hrest => exact .cons (hvw.normalizeReader hr) (ih hrest)

theorem SamePolicy.readFrom {v w : Json} (h : SamePolicy v w) {ownerDid : Option Json} {P : AccessPolicy}
    (hP : P.ReadFrom (some v) network ownerDid now) : P.ReadFrom (some w) network ownerDid now := by
  obtain ⟨items, hshape, hreaders⟩ := hP.shape
  obtain ⟨hmode, hitems, hlength⟩ := policyShape_eq_ok.mp hshape
  obtain ⟨items', hitems', hsame⟩ := h.readers items hitems
  refine ⟨⟨items', policyShape_eq_ok.mpr ⟨?_, hitems', hsame.length_eq ▸ hlength⟩, ?_⟩, ?_, ?_,
    hP.ownerDid, ?_⟩
  · rw [Option.bind_some, ← h.mode]
    exact hmode
  · exact forall₂_of_same hsame hreaders
  · exact (h.publicScopes.integer_eq _).symm.trans hP.publicScopes
  · have hrevision := hP.revision
    unfold normalizeRevision at hrevision ⊢
    rw [Option.bind_some] at hrevision ⊢
    rw [← h.revision]
    exact hrevision
  · exact (h.updatedAt.integer_eq _).symm.trans hP.updatedAt

/-! ## The canonical form -/

/-- **Normalisation.** The result of an accepted policy is accepted as itself, another way to write the policy
down has the same result, and the result is canonical. -/
theorem normalizePolicy_canonical (hlower : ∀ s : String, toLowerCase (toLowerCase s) = toLowerCase s)
    {input ownerDid : Option Json} {P : AccessPolicy} (h : normalizePolicy input network ownerDid now = .ok P) :
    normalizePolicy (some P.toJson) network ownerDid now = .ok P ∧
      (∀ v w, input = some v → SamePolicy v w → normalizePolicy (some w) network ownerDid now = .ok P) ∧
      P.Canonical now := by
  obtain ⟨hread, hcanonical⟩ := normalizePolicy_eq_ok.mp h
  refine ⟨normalizePolicy_eq_ok.mpr ⟨hread.toJson hlower, hcanonical⟩, ?_, hcanonical⟩
  rintro v w rfl hsame
  exact normalizePolicy_eq_ok.mpr ⟨hsame.readFrom hread, hcanonical⟩

end

/-- A policy of one reader, accepted once more. -/
theorem normalizePolicy_canonical_pvPower :
    @normalizePolicy Runtime.ascii (some pvPowerAccepted.toJson) "mainnet"
      (some (.string pvPowerAccepted.ownerDid)) 1000 = .ok pvPowerAccepted := by
  let _ := Runtime.ascii
  have hlower : ∀ s : String, toLowerCase (toLowerCase s) = toLowerCase s := asciiLower_asciiLower
  exact (normalizePolicy_canonical hlower normalizePolicy_pvPowerPolicy).1

/-! ## Revisions -/

/-- A runtime that writes the sixtieth power of two as the shortest decimal does. -/
@[reducible] def Runtime.shortest : Runtime where
  toLowerCase := Runtime.ascii.toLowerCase
  numberToString x := if x = .ofNat (2 ^ 60) then "1152921504606847000" else Runtime.ascii.numberToString x
  stringToNumber := Runtime.ascii.stringToNumber
  toLowerCase_ascii := Runtime.ascii.toLowerCase_ascii
  numberToString_nat n hn := by
    have hne : Number.ofNat n ≠ .ofNat (2 ^ 60) := fun h => by
      have := Number.ofNat_injective h
      simp only [Number.maxSafe] at hn
      omega
    rw [if_neg hne]
    exact Runtime.ascii.numberToString_nat n hn
  stringToNumber_digits := Runtime.ascii.stringToNumber_digits

/-- A private policy of a revision. -/
def privatePolicy (revision : Json) : Json :=
  .object [("mode", .string "private"), ("readers", .array []), ("revision", revision)]

theorem normalizePolicy_private [Runtime] {owner text : String} {revision : Json}
    (howner : canonicalDid (some (.string owner)) "mainnet" = .ok owner)
    (hrevision : normalizeRevision (some revision) = .ok text) :
    normalizePolicy (some (privatePolicy revision)) "mainnet" (some (.string owner)) 0 =
      .ok { mode := .private_, publicScopes := 0, readers := [], ownerDid := owner, revision := text, updatedAt := 0 } := by
  refine (show _ = (normalizeRevision (some revision) >>= fun text =>
    canonicalDid (some (.string owner)) "mainnet" >>= _) from rfl).trans ?_
  rw [hrevision]
  refine (show _ = (canonicalDid (some (.string owner)) "mainnet" >>= _) from rfl).trans ?_
  rw [howner]
  rfl

/-- The revision is a text: the sixtieth power of two as a number and as a decimal text are two revisions, and
so are the seven as a number and as a decimal text that begins with a zero. -/
theorem revision_keeps_text :
    (∃ P Q, @normalizePolicy Runtime.shortest (some (privatePolicy (.number (.ofNat (2 ^ 60))))) "mainnet"
        (some (.string pvPowerAccepted.ownerDid)) 0 = .ok P ∧
      @normalizePolicy Runtime.shortest (some (privatePolicy (.string "1152921504606846976"))) "mainnet"
        (some (.string pvPowerAccepted.ownerDid)) 0 = .ok Q ∧ P ≠ Q) ∧
    ∃ P Q, @normalizePolicy Runtime.shortest (some (privatePolicy (.number 7))) "mainnet"
        (some (.string pvPowerAccepted.ownerDid)) 0 = .ok P ∧
      @normalizePolicy Runtime.shortest (some (privatePolicy (.string "07"))) "mainnet"
        (some (.string pvPowerAccepted.ownerDid)) 0 = .ok Q ∧ P ≠ Q := by
  have howner : @canonicalDid Runtime.shortest (some (.string pvPowerAccepted.ownerDid)) "mainnet" =
      .ok pvPowerAccepted.ownerDid := @canonicalDid_digit Runtime.shortest _ rfl
  have hne {text text' : String} (h : text ≠ text') : (⟨.private_, 0, [], pvPowerAccepted.ownerDid, text, 0⟩ : AccessPolicy) ≠
      ⟨.private_, 0, [], pvPowerAccepted.ownerDid, text', 0⟩ :=
    fun heq => h (congrArg AccessPolicy.revision heq)
  exact ⟨⟨_, _, @normalizePolicy_private Runtime.shortest _ "1152921504606847000" _ howner rfl,
      @normalizePolicy_private Runtime.shortest _ "1152921504606846976" _ howner rfl, hne (by decide)⟩,
    _, _, @normalizePolicy_private Runtime.shortest _ "7" _ howner rfl,
      @normalizePolicy_private Runtime.shortest _ "07" _ howner rfl, hne (by decide)⟩

end Sharing
