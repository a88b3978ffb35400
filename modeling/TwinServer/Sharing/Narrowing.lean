-- SUMMARY: The payload filter on its own output: an export narrowed to selected measurements is filtered by one stricter grant.
import TwinServer.Base.Errors
import TwinServer.Base.Records
import TwinServer.Sharing.Filter

/-!
# Narrowing

`collect` of `src/sharing/datasets.ts` filters a sample with the rights of the reader, and what comes out
once more with rights that are cut down to the selected measurements. Every rule of the filter leaves its
own output as it is, so the second pass only drops measurements.
-/

open Js Js.Json

namespace Sharing

/-! ## The selection -/

/-- `validateMeasurements`. -/
def validateMeasurements (measurements : Option (List String)) (rights : Rights) : Except Thrown Unit :=
  throwIf (measurements.any fun keys => !rights.owner && !rights.reader.any (·.allMeasurements) &&
      keys.any fun k => !rights.reader.any (·.measurements.contains k))
    { code := "DATASET_MEASUREMENT_DENIED"
      message := "A requested measurement is outside your authorization"
      status := 403, category := .AUTHORIZATION }

/-- A grant of some scopes without bounds, for some measurements. -/
def Reader.unbounded (scopes : Nat) (measurements : List String) : Reader where
  did := ""
  scopes
  validFrom := 0
  expiresAt := 0
  historyFrom := 0
  historyTo := 0
  allMeasurements := false
  measurements

/-- The rights of the second pass. -/
def Rights.narrowed (rights : Rights) (measurements : List String) : Rights :=
  { rights with
    legacy := false, owner := false, publicScopes := 0
    reader := some (.unbounded rights.scopes measurements) }

/-- The rights with the selected measurements in place of those that are granted: to the owner, who needs
no grant, and to a reader, whose grant and whose share of what is public keep their bounds. -/
def Rights.stricter (rights : Rights) (measurements : List String) : Rights :=
  { rights with
    owner := false, publicScopes := 0
    reader := some (match rights.owner, rights.reader with
      | false, some r =>
        { r with scopes := r.scopes ||| rights.publicScopes, allMeasurements := false, measurements }
      | _, _ => .unbounded rights.scopes measurements) }

/-! ## The rules of the filter on their own output -/

theorem annotations_object (value v : Json) :
    annotations (.object (("value", value) :: annotations v)) = annotations v := by
  unfold annotations
  generalize asString? (v.get? "unit") = unit
  generalize asString? (v.get? "label") = label
  cases hkey : (asString? (v.get? "semanticKey")).filter isKeySyntax with
  | none => cases unit <;> cases label <;> simp [Json.get?, Record.get?_cons, asString?]
  | some key =>
    have hkept : Option.filter isKeySyntax (some key) = some key :=
      Option.filter_eq_some_iff.mpr ⟨rfl, (Option.filter_eq_some_iff.mp hkey).2⟩
    cases unit <;> cases label <;> simp [Json.get?, Record.get?_cons, asString?, hkept]

theorem reading_reading (v : Json) : (reading v).bind reading = reading v := by
  cases hv : scalar v with
  | true => simp [reading, hv]
  | false =>
    cases hvalue : (v.get? "value").filter scalar with
    | none => simp [reading, hv, hvalue]
    | some value =>
      have hscalar : scalar value := (Option.filter_eq_some_iff.mp hvalue).2
      have hone : reading v = some (.object (("value", value) :: annotations v)) := by
        simp [reading, hv, hvalue]
      rw [hone, Option.bind_some]
      have hkept : (some value).filter scalar = some value := Option.filter_eq_some_iff.mpr ⟨rfl, hscalar⟩
      have hget : Json.get? (.object (("value", value) :: annotations v)) "value" = some value := by
        simp [Json.get?, Record.get?_cons]
      have hobject : ¬ scalar (.object (("value", value) :: annotations v)) := Bool.false_ne_true
      rw [reading, if_neg hobject, hget, hkept, annotations_object]
      rfl

theorem coordinate_congr {p q : Json} {k : String} (h : q.get? k = coordinate p k) :
    coordinate q k = coordinate p k := by
  unfold coordinate at h ⊢
  rw [h]
  cases hx : (asNumber? (p.get? k)).filter Number.isFinite with
  | none => rfl
  | some x =>
    have hkept : (some x).filter Number.isFinite = some x :=
      Option.filter_eq_some_iff.mpr ⟨rfl, (Option.filter_eq_some_iff.mp hx).2⟩
    exact congrArg (Option.map Json.number) hkept

theorem coordinateList_self {v : Option Json} {cs : List Json} (h : coordinateList v = some cs) :
    coordinateList (some (.array cs)) = some cs := by
  unfold coordinateList at h
  split at h
  · split at h
    case isTrue hcs =>
      obtain rfl := Option.some.inj h
      exact if_pos hcs
    case isFalse => cases h
  · cases h

theorem cleanPosition_congr {p q : Json} (hcoordinate : ∀ k ∈ coordinateKeys, coordinate p k = coordinate q k)
    (hpoint : pointCoordinates p = pointCoordinates q) : cleanPosition p = cleanPosition q := by
  unfold cleanPosition
  rw [Record.assignAll_congr hcoordinate, hpoint]

/-- What a cleaned position holds. -/
theorem get?_cleanPosition (p : Json) (k : String) :
    (cleanPosition p).get? k =
      if k ∈ coordinateKeys then coordinate p k
      else (pointCoordinates p).bind fun cs =>
        if k = "crs" then some (.string "EPSG:4326")
        else if k = "coordinates" then some (.array cs)
        else if k = "type" then some (.string "Point")
        else none := by
  have hnew : ∀ k' ∈ ["type", "coordinates", "crs"], k' ∉ coordinateKeys := by decide
  unfold cleanPosition
  cases pointCoordinates p with
  | none =>
    rw [Record.get?_assignAll]
    split
    · exact Option.or_none
    · rfl
  | some cs =>
    simp only [Record.get?_set, Record.get?_assignAll, Option.bind_some]
    by_cases hk : k ∈ coordinateKeys
    · have hne : ∀ k' ∈ ["type", "coordinates", "crs"], k ≠ k' := fun k' hk' heq => hnew k' hk' (heq ▸ hk)
      simp [hk, hne "type", hne "coordinates", hne "crs"]
    · simp [hk]

theorem cleanPosition_clean (p : Json) : cleanPosition (.object (cleanPosition p)) = cleanPosition p := by
  have hget := get?_cleanPosition p
  refine cleanPosition_congr (fun k hk => coordinate_congr ?_) ?_
  · exact (hget k).trans (if_pos hk)
  · have htype := hget "type"
    have hcoordinates := hget "coordinates"
    rw [if_neg (by decide)] at htype hcoordinates
    cases hcs : pointCoordinates p with
    | none =>
      rw [hcs] at htype
      have hnone : Json.get? (.object (cleanPosition p)) "type" = none := htype
      rw [pointCoordinates, hnone]
      rfl
    | some cs =>
      rw [hcs] at htype hcoordinates
      have hpoint : Json.get? (.object (cleanPosition p)) "type" = some (.string "Point") := htype
      have hlist : Json.get? (.object (cleanPosition p)) "coordinates" = some (.array cs) := hcoordinates
      rw [pointCoordinates, hpoint, hlist, asString?, if_pos rfl]
      unfold pointCoordinates at hcs
      split at hcs
      · exact coordinateList_self hcs
      · cases hcs

/-! ## The loops on their own output -/

/-- Rights that admit a measurement when two others do. -/
def Meet (r r' s : Rights) (scope : Nat) (observedAt : Number) : Prop :=
  ∀ key, measurementAllowed s scope key observedAt =
    (measurementAllowed r scope key observedAt && measurementAllowed r' scope key observedAt)

section
variable {r r' s : Rights} {scope : Nat} {observedAt : Number}

theorem Meet.admitsKey (h : Meet r r' s scope observedAt) (key : String) :
    admitsKey s scope observedAt key = (admitsKey r scope observedAt key && admitsKey r' scope observedAt key) := by
  unfold Sharing.admitsKey
  rw [h key, Bool.eq_iff_iff]
  simp only [Bool.and_eq_true]
  tauto

theorem Meet.admitsFlat (h : Meet r r' s scope observedAt) (key : String) :
    admitsFlat s scope observedAt key =
      (admitsFlat r scope observedAt key && admitsFlat r' scope observedAt key) := by
  unfold Sharing.admitsFlat
  rw [h key, Bool.eq_iff_iff]
  simp only [Bool.and_eq_true]
  tauto

/-- The entries of the loop over the measurements. -/
theorem filterMeasurements_eq (measurements : Record Json) (r : Rights) (scope : Nat) (observedAt : Number) :
    filterMeasurements measurements r scope observedAt = (measurements.entries.map Prod.fst).filterMap fun k =>
      (if admitsKey r scope observedAt k then (measurements.get? k).bind reading else none).map
        fun v => (k, v) :=
  Record.assignAll_of_new (Record.nodup_entries measurements) fun _ _ => rfl

theorem filterMeasurements_filterMeasurements (h : Meet r r' s scope observedAt) (measurements : Record Json) :
    filterMeasurements (filterMeasurements measurements r scope observedAt) r' scope observedAt =
      filterMeasurements measurements s scope observedAt := by
  have hentries : (filterMeasurements measurements r scope observedAt).entries.map Prod.fst =
      (measurements.entries.map Prod.fst).filter fun k =>
        (if admitsKey r scope observedAt k then (measurements.get? k).bind reading else none).isSome := by
    have hkeys := Record.map_fst_filterMap (fun k =>
      if admitsKey r scope observedAt k then (measurements.get? k).bind reading else none)
      (measurements.entries.map Prod.fst)
    rw [← filterMeasurements_eq] at hkeys
    have hnodup : ((filterMeasurements measurements r scope observedAt).map Prod.fst).Nodup := by
      rw [hkeys]
      exact (Record.nodup_entries measurements).filter _
    rw [Record.entries_eq_self hnodup, hkeys]
  rw [filterMeasurements_eq, hentries, filterMeasurements_eq measurements s, List.filterMap_filter]
  refine List.filterMap_congr fun k _ => ?_
  rw [get?_filterMeasurements, h.admitsKey k]
  cases admitsKey r scope observedAt k with
  | false => simp
  | true =>
    cases hvalue : measurements.get? k with
    | none => simp
    | some v =>
      have hreading := reading_reading v
      cases hv : reading v with
      | none => simp [hv]
      | some w =>
        rw [hv, Option.bind_some] at hreading
        simp [hv, hreading]

/-- The entries of the loop over a flat payload. -/
theorem foldl_flatStep_eq {es : Record Json} (hes : (es.map Prod.fst).Nodup) (out : Record Json) :
    es.foldl (flatStep r scope observedAt) out = out ++ es.filter fun e =>
      !out.hasOwn e.1 && (admitsFlat r scope observedAt e.1 && scalar e.2) := by
  induction es generalizing out with
  | nil => exact (List.append_nil out).symm
  | cons e es ih =>
    obtain ⟨k, v⟩ := e
    obtain ⟨hk, hrest⟩ := List.nodup_cons.mp hes
    have hcond : (!out.hasOwn k && !isLocationKey k && flatKeys.contains k && scalar v &&
        measurementAllowed r scope k observedAt) =
          (!out.hasOwn k && (admitsFlat r scope observedAt k && scalar v)) := by
      simp only [admitsFlat]
      ac_rfl
    rw [List.foldl_cons, List.filter_cons]
    cases hadmitted : !out.hasOwn k && (admitsFlat r scope observedAt k && scalar v) with
    | false =>
      have hsame : flatStep r scope observedAt out (k, v) = out := by
        simp only [flatStep, hcond, hadmitted, Bool.false_eq_true, if_false]
      rw [hsame, ih hrest, if_neg Bool.false_ne_true]
    | true =>
      have hnew : out.hasOwn k = false := by
        simp only [Bool.and_eq_true, Bool.not_eq_true'] at hadmitted
        exact hadmitted.1
      have hset : flatStep r scope observedAt out (k, v) = out ++ [(k, v)] := by
        simp only [flatStep, hcond, hadmitted, if_true]
        exact Record.set_of_new hnew v
      rw [hset, ih hrest, List.append_assoc]
      congr 1
      simp only [if_true, List.singleton_append, List.cons.injEq, true_and]
      refine List.filter_congr fun e he => ?_
      have hne : e.1 ≠ k := fun heq => hk (List.mem_map.mpr ⟨e, he, heq⟩)
      rw [Record.hasOwn, Record.hasOwn, Record.get?_append, Record.get?_cons, if_neg hne, Record.get?_nil,
        Option.or_none]

end

/-! ## The response on its own -/

theorem get?_filterHeader (payload : Json) (k : String) :
    (filterHeader payload).get? k =
      if k = "simulation" then (syntheticFlag payload).map fun b => .object [("synthetic", .bool b)]
      else if k ∈ identityKeys then identityField payload k
      else none := by
  have hsimulation : "simulation" ∉ identityKeys := by decide
  unfold filterHeader
  by_cases hk : k = "simulation"
  · subst hk
    cases syntheticFlag payload <;> simp [Record.get?_assignAll, hsimulation]
  · cases syntheticFlag payload <;> simp [Record.get?_assignAll, hk]

theorem nodup_filterHeader (payload : Json) : ((filterHeader payload).map Prod.fst).Nodup := by
  have hstart : (([] : Record Json).map Prod.fst).Nodup := List.nodup_nil
  unfold filterHeader
  dsimp only
  split
  · exact Record.nodup_set (Record.nodup_assignAll _ _ hstart) _ _
  · exact Record.nodup_assignAll _ _ hstart

theorem filterHeader_congr {p q : Json} (hidentity : ∀ k ∈ identityKeys, identityField p k = identityField q k)
    (hsynthetic : syntheticFlag p = syntheticFlag q) : filterHeader p = filterHeader q := by
  unfold filterHeader
  rw [Record.assignAll_congr hidentity, hsynthetic]

/-- A header is the header of every object that holds its fields. -/
theorem filterHeader_of_get? {p q : Json} (h : ∀ k, k = "simulation" ∨ k ∈ identityKeys →
    q.get? k = (filterHeader p).get? k) : filterHeader q = filterHeader p := by
  refine filterHeader_congr (fun k hk => ?_) ?_
  · have hne : k ≠ "simulation" := by
      rintro rfl
      exact absurd hk (by decide)
    have hget := h k (.inr hk)
    rw [get?_filterHeader, if_neg hne, if_pos hk] at hget
    unfold identityField at hget ⊢
    rw [hget]
    cases asString? (p.get? k) with
    | some s => rfl
    | none => cases asNumber? (p.get? k) <;> rfl
  · have hget := h "simulation" (.inl rfl)
    rw [get?_filterHeader, if_pos rfl] at hget
    unfold syntheticFlag at hget ⊢
    rw [hget]
    cases asBool? ((p.get? "simulation").bind (·.get? "synthetic")) <;> rfl

theorem positionField_congr {p q : Json} {k : String} (h : q.get? k = positionField p k) :
    positionField q k = positionField p k := by
  cases hp : p.get? k with
  | none =>
    simp only [positionField, hp] at h
    simp only [positionField, hp, h]
  | some v =>
    cases v with
    | object fields =>
      simp only [positionField, hp] at h
      simp only [positionField, hp, h, cleanPosition_clean]
    | array items =>
      simp only [positionField, hp] at h
      simp only [positionField, hp, h, cleanPosition_clean]
    | _ =>
      simp only [positionField, hp] at h
      simp only [positionField, hp, h]

section
variable {r r' s : Rights} {scope : Nat} {observedAt : Number}

variable (r scope observedAt) in
theorem admitsFlat_eq_false {k : String} (h : k ∉ flatKeys) : admitsFlat r scope observedAt k = false := by
  have hcontains : flatKeys.contains k = false := by simpa using h
  unfold admitsFlat
  rw [hcontains, Bool.and_false, Bool.false_and]

theorem get?_filterTelemetry {payload : Record Json} {k : String} (hflat : k ∉ flatKeys)
    (hmeasurements : k ≠ "measurements") :
    (filterTelemetry payload r scope observedAt).get? k = (filterHeader (.object payload)).get? k := by
  unfold filterTelemetry
  cases measurementsOf (.object payload) with
  | some measurements => simp [hmeasurements]
  | none => simp [get?_filterFlat, admitsFlat_eq_false r scope observedAt hflat]

theorem get?_filterFields_position {payload : Record Json} {k : String} (hk : k ∈ positionKeys) :
    (filterFields payload r scope observedAt).get? k =
      if hasScope r.scopes 8 then positionField (.object payload) k else none := by
  have hother : ∀ k ∈ positionKeys, k ∉ flatKeys ∧ k ≠ "measurements" ∧ k ≠ "simulation" ∧
      k ∉ identityKeys := by decide
  obtain ⟨hflat, hmeasurements, hsimulation, hidentity⟩ := hother k hk
  have hnone : (filterTelemetry payload r scope observedAt).get? k = none := by
    rw [get?_filterTelemetry hflat hmeasurements, get?_filterHeader, if_neg hsimulation, if_neg hidentity]
  unfold filterFields
  dsimp only
  split
  · rw [Record.get?_assignAll, if_pos hk, hnone, Option.or_none]
  · exact hnone

theorem get?_filterFields {payload : Record Json} {k : String} (hk : k ∉ positionKeys) :
    (filterFields payload r scope observedAt).get? k =
      (filterTelemetry payload r scope observedAt).get? k := by
  unfold filterFields
  dsimp only
  split
  · rw [Record.get?_assignAll, if_neg hk]
  · rfl

theorem nodup_filterTelemetry (payload : Record Json) :
    ((filterTelemetry payload r scope observedAt).map Prod.fst).Nodup := by
  have hheader := nodup_filterHeader (.object payload)
  unfold filterTelemetry
  cases measurementsOf (.object payload) with
  | some measurements => exact Record.nodup_set hheader _ _
  | none =>
    refine List.foldlRecOn (motive := fun out : Record Json => (out.map Prod.fst).Nodup) _ _ hheader ?_
    intro out hout e _
    unfold flatStep
    dsimp only
    split
    · exact Record.nodup_set hout _ _
    · exact hout

theorem nodup_filterFields (payload : Record Json) :
    ((filterFields payload r scope observedAt).map Prod.fst).Nodup := by
  unfold filterFields
  dsimp only
  split
  · exact Record.nodup_assignAll _ _ (nodup_filterTelemetry payload)
  · exact nodup_filterTelemetry payload

variable (r scope observedAt) in
theorem filterHeader_filterFields (payload : Record Json) :
    filterHeader (.object (filterFields payload r scope observedAt)) = filterHeader (.object payload) := by
  have hother : ∀ k ∈ "simulation" :: identityKeys, k ∉ positionKeys ∧ k ∉ flatKeys ∧
      k ≠ "measurements" := by decide
  refine filterHeader_of_get? fun k hk => ?_
  obtain ⟨hposition, hflat, hmeasurements⟩ := hother k (List.mem_cons.mpr hk)
  exact (get?_filterFields hposition).trans (get?_filterTelemetry hflat hmeasurements)

/-! ## The response, filtered once more -/

variable (r scope observedAt) in
/-- The measurements of a response, or of a flat response none. -/
theorem measurementsOf_filterFields (payload : Record Json) :
    measurementsOf (.object (filterFields payload r scope observedAt)) =
      (measurementsOf (.object payload)).map fun measurements =>
        filterMeasurements measurements r scope observedAt := by
  have hget : Json.get? (.object (filterFields payload r scope observedAt)) "measurements" =
      (measurementsOf (.object payload)).map fun measurements =>
        .object (filterMeasurements measurements r scope observedAt) := by
    cases hm : measurementsOf (.object payload) with
    | some measurements => exact get?_filterFields_measurements r scope observedAt hm
    | none =>
      have hheader : (filterHeader (.object payload)).get? "measurements" = none := by
        rw [get?_filterHeader, if_neg (by decide), if_neg (by decide)]
      refine (get?_filterFields (by decide)).trans ?_
      simp [filterTelemetry, hm, get?_filterFlat, hheader,
        admitsFlat_eq_false r scope observedAt (show "measurements" ∉ flatKeys by decide)]
  generalize measurementsOf (.object payload) = found at hget ⊢
  rw [measurementsOf, hget]
  cases found <;> rfl

variable (r scope observedAt) in
/-- The entries of a flat response. -/
theorem filterFields_flat {payload : Record Json} (hm : measurementsOf (.object payload) = none) :
    ∃ positions : Record Json, (∀ e ∈ positions, e.1 ∈ positionKeys) ∧
      filterFields payload r scope observedAt = filterHeader (.object payload) ++
        (payload.entries.filter fun e => !(filterHeader (.object payload)).hasOwn e.1 &&
          (admitsFlat r scope observedAt e.1 && scalar e.2)) ++ positions := by
  have htelemetry : filterTelemetry payload r scope observedAt = filterHeader (.object payload) ++
      payload.entries.filter fun e => !(filterHeader (.object payload)).hasOwn e.1 &&
        (admitsFlat r scope observedAt e.1 && scalar e.2) := by
    simp only [filterTelemetry, hm, filterFlat]
    exact foldl_flatStep_eq (Record.nodup_entries payload) _
  rw [← htelemetry]
  unfold filterFields
  dsimp only
  split
  case isFalse => exact ⟨[], fun e he => absurd he List.not_mem_nil, (List.append_nil _).symm⟩
  case isTrue =>
    have hnew : ∀ k ∈ positionKeys, (filterTelemetry payload r scope observedAt).hasOwn k = false := by
      intro k hk
      have hother : ∀ k ∈ positionKeys, k ∉ flatKeys ∧ k ≠ "measurements" ∧ k ≠ "simulation" ∧
          k ∉ identityKeys := by decide
      obtain ⟨hflat, hmeasurements, hsimulation, hidentity⟩ := hother k hk
      rw [Record.hasOwn_eq_false, get?_filterTelemetry hflat hmeasurements, get?_filterHeader,
        if_neg hsimulation, if_neg hidentity]
    refine ⟨_, fun e he => ?_, Record.assignAll_of_new (by decide) hnew⟩
    obtain ⟨k, hk, he⟩ := List.mem_filterMap.mp he
    obtain ⟨v, -, rfl⟩ := Option.map_eq_some_iff.mp he
    exact hk

/-- The telemetry of a response that is filtered once more. -/
theorem filterTelemetry_filterFields (h : Meet r r' s scope observedAt) (payload : Record Json) :
    filterTelemetry (filterFields payload r scope observedAt) r' scope observedAt =
      filterTelemetry payload s scope observedAt := by
  have hheader := filterHeader_filterFields r scope observedAt payload
  have hmeasurements := measurementsOf_filterFields r scope observedAt payload
  cases hm : measurementsOf (.object payload) with
  | some measurements =>
    rw [hm] at hmeasurements
    simp only [filterTelemetry, hm, hmeasurements, hheader, Option.map_some,
      filterMeasurements_filterMeasurements h]
  | none =>
    rw [hm] at hmeasurements
    simp only [filterTelemetry, hm, hmeasurements, hheader, Option.map_none, filterFlat]
    rw [Record.entries_eq_self (nodup_filterFields payload),
      foldl_flatStep_eq (nodup_filterFields payload), foldl_flatStep_eq (Record.nodup_entries payload)]
    obtain ⟨positions, hpositions, hfields⟩ := filterFields_flat r scope observedAt hm
    rw [hfields, List.filter_append, List.filter_append]
    -- the header is not assigned again, and no position is a measurement
    have hown : (filterHeader (.object payload)).filter (fun e =>
        !(filterHeader (.object payload)).hasOwn e.1 && (admitsFlat r' scope observedAt e.1 && scalar e.2)) =
        [] := by
      refine List.filter_eq_nil_iff.mpr fun e he => ?_
      have hkey : (filterHeader (.object payload)).hasOwn e.1 := by
        rw [Record.hasOwn, Option.isSome_iff_ne_none, ne_eq, Record.get?_eq_none, not_not]
        exact List.mem_map_of_mem he
      simp [hkey]
    have hnone : positions.filter (fun e =>
        !(filterHeader (.object payload)).hasOwn e.1 && (admitsFlat r' scope observedAt e.1 && scalar e.2)) =
        [] := by
      have hflat : ∀ k ∈ positionKeys, k ∉ flatKeys := by decide
      refine List.filter_eq_nil_iff.mpr fun e he => ?_
      simp [admitsFlat_eq_false r' scope observedAt (hflat _ (hpositions e he))]
    rw [hown, hnone, List.nil_append, List.append_nil, List.filter_filter]
    congr 1
    refine List.filter_congr fun e _ => ?_
    rw [h.admitsFlat e.1, Bool.eq_iff_iff]
    simp only [Bool.and_eq_true]
    tauto

/-- A response that is filtered once more is the one that both rights admit. -/
theorem filterFields_filterFields (h : Meet r r' s scope observedAt)
    (hr' : hasScope r'.scopes 8 = hasScope r.scopes 8) (hs : hasScope s.scopes 8 = hasScope r.scopes 8)
    (payload : Record Json) :
    filterFields (filterFields payload r scope observedAt) r' scope observedAt =
      filterFields payload s scope observedAt := by
  have htelemetry := filterTelemetry_filterFields h payload
  rw [filterFields, filterFields.eq_def payload s, htelemetry, hr', hs]
  cases h8 : hasScope r.scopes 8 with
  | false => rfl
  | true =>
    refine Record.assignAll_congr (fun k hk => ?_) _
    exact positionField_congr ((get?_filterFields_position hk).trans (if_pos h8))

end

/-! ## Stricter rights -/

section
variable {rights : Rights} {keys : List String} {scope : Nat} {observedAt : Number}

theorem validateMeasurements_eq_ok :
    validateMeasurements (some keys) rights = .ok () ↔ rights.owner = true ∨
      (∃ r, rights.reader = some r ∧ (r.allMeasurements = true ∨ ∀ k ∈ keys, k ∈ r.measurements)) ∨
      rights.reader = none ∧ keys = [] := by
  unfold validateMeasurements
  rw [throwIf_eq_ok]
  cases rights.owner with
  | true => simp
  | false =>
    cases rights.reader with
    | none => simp [List.eq_nil_iff_forall_not_mem]
    | some r => cases hall : r.allMeasurements <;> simp [hall]

/-- A time that is not outside of the history of a grant is inside, unless it is no time. -/
theorem historyContains_eq {r : Reader}
    (h : (observedAt.lt r.historyFrom || (r.historyTo != 0 && (r.historyTo : Number).le observedAt)) = false) :
    r.historyContains observedAt = (Number.ofNat 0).le observedAt := by
  by_cases hnan : observedAt = .nan
  · subst hnan
    rfl
  · simp only [Bool.or_eq_false_iff, Bool.and_eq_false_iff, bne_eq_false_iff_eq] at h
    have hfrom := Number.le_of_lt_eq_false h.1 hnan (Number.ofNat_ne_nan _)
    have hzero : (Number.ofNat 0).le observedAt :=
      Number.le_trans ((Number.ofNat_le 0 r.historyFrom).trans (decide_eq_true (Nat.zero_le _))) hfrom
    have hto : r.historyTo = 0 ∨ observedAt.lt r.historyTo :=
      h.2.imp_right fun hle => Number.lt_of_le_eq_false hle (Number.ofNat_ne_nan _) hnan
    rw [hzero, Reader.historyContains, hfrom, Bool.true_and, Bool.or_eq_true, beq_iff_eq]
    exact hto

theorem unbounded_historyContains (scopes : Nat) (keys : List String) (observedAt : Number) :
    (Reader.unbounded scopes keys).historyContains observedAt = (Number.ofNat 0).le observedAt := by
  simp [Reader.historyContains, Reader.unbounded]

/-- What a grant of the selected keys without bounds admits. -/
theorem measurementAllowed_unbounded {r : Rights} {scopes : Nat} (hscope : scope = 2 ∨ scope = 4)
    (howner : r.owner = false) (hpublic : r.publicScopes = 0)
    (hreader : r.reader = some (.unbounded scopes keys)) (key : String) :
    measurementAllowed r scope key observedAt = (hasScope r.scopes scope && (hasScope scopes scope &&
      keys.contains key && (Number.ofNat 0).le observedAt)) := by
  have hmember : [1, 2, 4].contains scope = true := by rcases hscope with rfl | rfl <;> rfl
  have hone : (scope == 1) = false := by rcases hscope with rfl | rfl <;> rfl
  have hnone : hasScope 0 scope = false := by simp [hasScope]
  unfold measurementAllowed
  rw [hmember, howner, hpublic, hnone, hreader, Option.any_some, unbounded_historyContains, hone]
  cases hasScope r.scopes scope with
  | false => rfl
  | true => simp [Reader.grants, Reader.unbounded]

theorem stricter_reader (h : rights.owner = true ∨ rights.reader = none) :
    (rights.stricter keys).reader = some (.unbounded rights.scopes keys) := by
  rcases h with h | h
  · simp [Rights.stricter, h]
  · cases howner : rights.owner <;> simp [Rights.stricter, h, howner]

/-- The stricter rights admit what the rights admit of the selection. -/
theorem meet_stricter (hscope : scope = 2 ∨ scope = 4)
    (hvalid : validateMeasurements (some keys) rights = .ok ())
    (hinside : outsideHistory rights scope observedAt = false) :
    Meet rights (rights.narrowed keys) (rights.stricter keys) scope observedAt := by
  intro key
  rw [measurementAllowed_unbounded (r := rights.narrowed keys) hscope rfl rfl rfl]
  have hmember : [1, 2, 4].contains scope = true := by rcases hscope with rfl | rfl <;> rfl
  have hone : (scope == 1) = false := by rcases hscope with rfl | rfl <;> rfl
  have hnarrowed : (rights.narrowed keys).scopes = rights.scopes := rfl
  rw [hnarrowed]
  cases hscopes : hasScope rights.scopes scope with
  | false =>
    have hnone : (rights.stricter keys).scopes = rights.scopes := rfl
    simp only [measurementAllowed, hnone, hscopes, Bool.not_false, Bool.or_true, if_true, Bool.false_and]
  | true =>
    by_cases hfree : rights.owner = true ∨ rights.reader = none
    · rw [measurementAllowed_unbounded (r := rights.stricter keys) hscope rfl rfl (stricter_reader hfree)]
      have hstricter : (rights.stricter keys).scopes = rights.scopes := rfl
      rw [hstricter, hscopes]
      have hfull (howner : rights.owner = true) : measurementAllowed rights scope key observedAt = true := by
        rw [measurementAllowed, hmember, hscopes, howner]
        rfl
      rcases validateMeasurements_eq_ok.mp hvalid with howner | ⟨r, hr, -⟩ | ⟨-, rfl⟩
      · simp only [hfull howner, Bool.true_and]
      · simp only [hfull (hfree.resolve_right (by rw [hr]; exact nofun)), Bool.true_and]
      · simp
    · obtain ⟨howner, hreader⟩ := not_or.mp hfree
      have howner := Bool.not_eq_true _ ▸ howner
      obtain ⟨r, hr⟩ := Option.ne_none_iff_exists'.mp hreader
      have hgrants : keys.contains key = true → r.grants key = true := by
        intro hkey
        rcases validateMeasurements_eq_ok.mp hvalid with h | ⟨r', hr', hall⟩ | ⟨h, -⟩
        · rw [howner] at h; cases h
        · obtain rfl := Option.some.inj (hr.symm.trans hr')
          unfold Reader.grants
          rcases hall with hall | hall
          · rw [hall, Bool.true_or]
          · rw [Bool.or_eq_true]
            exact .inr (List.contains_iff_mem.mpr (hall key (List.contains_iff_mem.mp hkey)))
        · exact absurd h hreader
      have hhistory : r.historyContains observedAt = (Number.ofNat 0).le observedAt := by
        have hscope1 : (scope != 1) = true := by rcases hscope with rfl | rfl <;> rfl
        rw [outsideHistory, hscope1, howner, hr] at hinside
        exact historyContains_eq hinside
      have hstricter : measurementAllowed (rights.stricter keys) scope key observedAt =
          ((hasScope r.scopes scope || hasScope rights.publicScopes scope) && keys.contains key &&
            (Number.ofNat 0).le observedAt) := by
        have hnone : hasScope 0 scope = false := by simp [hasScope]
        have hgrant : (rights.stricter keys).reader = some { r with
            scopes := r.scopes ||| rights.publicScopes, allMeasurements := false, measurements := keys } := by
          simp [Rights.stricter, howner, hr]
        have hbounds : Reader.historyContains { r with
            scopes := r.scopes ||| rights.publicScopes, allMeasurements := false, measurements := keys }
            observedAt = (Number.ofNat 0).le observedAt := hhistory
        have hscopes' : hasScope (rights.stricter keys).scopes scope = true := hscopes
        have howner' : (rights.stricter keys).owner = false := rfl
        have hpublic' : (rights.stricter keys).publicScopes = 0 := rfl
        rw [measurementAllowed, hmember, hscopes', howner', hpublic', hnone, hgrant, Option.any_some, hone,
          hasScope_or, hbounds]
        simp [Reader.grants]
      rw [hstricter, measurementAllowed, hmember, hscopes, howner, hr, Option.any_some, hone, hhistory]
      revert hgrants
      cases hasScope rights.publicScopes scope <;> cases hasScope r.scopes scope <;>
        cases keys.contains key <;> cases r.grants key <;> cases (Number.ofNat 0).le observedAt <;> simp

/-- The stricter rights are outside of their history where the rights are or the second pass is. -/
theorem outsideHistory_stricter (hscope : scope = 2 ∨ scope = 4) :
    outsideHistory (rights.stricter keys) scope observedAt =
      (outsideHistory rights scope observedAt || outsideHistory (rights.narrowed keys) scope observedAt) := by
  have hscope1 : (scope != 1) = true := by rcases hscope with rfl | rfl <;> rfl
  have hnarrowed : outsideHistory (rights.narrowed keys) scope observedAt = observedAt.lt (Number.ofNat 0) := by
    simp [outsideHistory, hscope1, Rights.narrowed, Reader.unbounded]
  rw [hnarrowed]
  by_cases hfree : rights.owner = true ∨ rights.reader = none
  · have hfirst : outsideHistory rights scope observedAt = false := by
      rcases hfree with h | h <;> simp [outsideHistory, h]
    have hstricter : (rights.stricter keys).owner = false := rfl
    rw [hfirst, outsideHistory, hscope1, stricter_reader hfree, hstricter]
    simp [Reader.unbounded]
  · obtain ⟨howner, hreader⟩ := not_or.mp hfree
    have howner := Bool.not_eq_true _ ▸ howner
    obtain ⟨r, hr⟩ := Option.ne_none_iff_exists'.mp hreader
    have hearlier : observedAt.lt (Number.ofNat 0) = true → observedAt.lt r.historyFrom = true := by
      intro hlt
      by_contra hnot
      have hnan : observedAt ≠ .nan := by
        rintro rfl
        cases hlt
      have hfrom := Number.le_of_lt_eq_false (Bool.not_eq_true _ ▸ hnot) hnan (Number.ofNat_ne_nan _)
      have hzero := Number.le_trans
        ((Number.ofNat_le 0 r.historyFrom).trans (decide_eq_true (Nat.zero_le _))) hfrom
      rw [Number.lt_eq_false_of_le hzero] at hlt
      cases hlt
    have hstricter : outsideHistory (rights.stricter keys) scope observedAt =
        outsideHistory rights scope observedAt := by
      simp [outsideHistory, Rights.stricter, howner, hr]
    rw [hstricter, outsideHistory, hscope1, howner, hr, Option.any_some]
    revert hearlier
    cases observedAt.lt (Number.ofNat 0) <;> cases observedAt.lt r.historyFrom <;> simp

/-! ## Narrowing -/

/-- What the filter makes of an object. -/
theorem filterPayload_object (hlegacy : rights.legacy = false) (hscopes : hasScope rights.scopes scope = true)
    (fields : Record Json) :
    filterPayload (.object fields) rights scope observedAt =
      if isEncrypted (.object fields) then
        reject "Encrypted data requires source-side filtering before sharing" 409
      else if outsideHistory rights scope observedAt then
        reject "Historical sample is outside the authorized interval" 403
      else .ok (.object (filterFields fields rights scope observedAt)) := by
  cases hencrypted : isEncrypted (.object fields) <;> cases houtside : outsideHistory rights scope observedAt <;>
    simp only [filterPayload, hlegacy, hscopes, hencrypted, houtside] <;> rfl

/-- Of other values the filter reads no more of the rights than the scopes. -/
theorem filterPayload_of_scopes {r : Rights} {payload : Json} (hlegacy : rights.legacy = false)
    (hlegacy' : r.legacy = false) (hscopes : r.scopes = rights.scopes)
    (hobject : ∀ fields, payload ≠ .object fields) :
    filterPayload payload r scope observedAt = filterPayload payload rights scope observedAt := by
  unfold filterPayload
  rw [hlegacy, hlegacy', hscopes]
  cases payload with
  | object fields => exact absurd rfl (hobject fields)
  | _ => rfl

theorem isEncrypted_filterFields (r : Rights) (payload : Record Json) :
    isEncrypted (.object (filterFields payload r scope observedAt)) = false := by
  have hnone : ∀ k ∈ ["encrypted", "ciphertext", "cipherText"],
      Json.get? (.object (filterFields payload r scope observedAt)) k = none := by
    intro k hk
    have hother : ∀ k ∈ ["encrypted", "ciphertext", "cipherText"], k ∉ positionKeys ∧ k ∉ flatKeys ∧
        k ≠ "measurements" ∧ k ≠ "simulation" ∧ k ∉ identityKeys := by decide
    obtain ⟨hposition, hflat, hmeasurements, hsimulation, hidentity⟩ := hother k hk
    refine (get?_filterFields hposition).trans ?_
    rw [get?_filterTelemetry hflat hmeasurements, get?_filterHeader, if_neg hsimulation, if_neg hidentity]
  simp [isEncrypted, encryptedFlag, hnone, truthy?]

/-- Without the scope nothing passes. -/
theorem filterPayload_of_not_scope (hlegacy : rights.legacy = false) (hscopes : hasScope rights.scopes scope = false)
    (payload : Json) :
    filterPayload payload rights scope observedAt = reject "This data scope is not authorized" 403 := by
  simp only [filterPayload, hlegacy, hscopes]
  rfl

/-- What is no object is rejected, unless it is `null`. -/
theorem filterPayload_stable {r : Rights} {payload p : Json} (hlegacy : rights.legacy = false)
    (hlegacy' : r.legacy = false) (hscopes : r.scopes = rights.scopes)
    (hobject : ∀ fields, payload ≠ .object fields)
    (h : filterPayload payload rights scope observedAt = .ok p) :
    filterPayload p r scope observedAt = .ok p := by
  cases hscope : hasScope rights.scopes scope with
  | false =>
    rw [filterPayload_of_not_scope hlegacy hscope] at h
    cases h
  | true =>
    cases payload with
    | object fields => exact absurd rfl (hobject fields)
    | null =>
      have hnull : filterPayload .null rights scope observedAt = .ok .null := by
        simp only [filterPayload, hlegacy, hscope]
        rfl
      obtain rfl := Except.ok.inj (hnull.symm.trans h)
      exact (filterPayload_of_scopes hlegacy hlegacy' hscopes hobject).trans hnull
    | _ =>
      simp only [filterPayload, hlegacy, hscope] at h
      revert h
      cases isEncrypted _ <;> intro h <;> cases h

/-- A payload that is filtered with two rights that have the same scopes. -/
theorem filterPayload_twice {r s : Rights} (hlegacy : rights.legacy = false) (hr : r.legacy = false)
    (hs : s.legacy = false) (hrscopes : r.scopes = rights.scopes) (hsscopes : s.scopes = rights.scopes)
    (houtside : outsideHistory s scope observedAt =
      (outsideHistory rights scope observedAt || outsideHistory r scope observedAt))
    (hmeet : outsideHistory rights scope observedAt = false → Meet rights r s scope observedAt)
    (payload : Json) :
    (filterPayload payload rights scope observedAt >>= fun v => filterPayload v r scope observedAt) =
      filterPayload payload s scope observedAt := by
  cases hscope : hasScope rights.scopes scope with
  | false =>
    rw [filterPayload_of_not_scope hlegacy hscope, filterPayload_of_not_scope hs (hsscopes ▸ hscope)]
    rfl
  | true =>
    by_cases hobject : ∃ fields, payload = .object fields
    · obtain ⟨fields, rfl⟩ := hobject
      rw [filterPayload_object hlegacy hscope, filterPayload_object hs (hsscopes ▸ hscope)]
      cases isEncrypted (.object fields) with
      | true => rfl
      | false =>
        cases hfirst : outsideHistory rights scope observedAt with
        | true =>
          rw [houtside, hfirst]
          rfl
        | false =>
          have hagain : filterPayload (.object (filterFields fields rights scope observedAt)) r scope observedAt =
              _ := filterPayload_object hr (hrscopes ▸ hscope) _
          rw [isEncrypted_filterFields, filterFields_filterFields (hmeet hfirst) (by rw [hrscopes])
            (by rw [hsscopes])] at hagain
          rw [houtside, hfirst]
          exact hagain
    · have hobject' : ∀ fields, payload ≠ .object fields := fun fields h => hobject ⟨fields, h⟩
      rw [filterPayload_of_scopes hlegacy hs hsscopes hobject']
      cases hfirst : filterPayload payload rights scope observedAt with
      | error e => rfl
      | ok p => exact filterPayload_stable hlegacy hr hrscopes hobject' hfirst

/-! ## What the second pass leaves -/

/-- The second value has no more than the first: no key is added, a value is changed at `measurements` only,
where measurements are dropped, and the position is kept. -/
structure Narrows (p q : Json) : Prop where
  keys : ∀ k, (q.get? k).isSome → (p.get? k).isSome
  values : ∀ k v, k ≠ "measurements" → q.get? k = some v → p.get? k = some v
  measurements : ∀ narrowed, measurementsOf q = some narrowed → ∃ measurements,
    measurementsOf p = some measurements ∧ ∀ k v, narrowed.get? k = some v → measurements.get? k = some v
  position : ∀ k ∈ positionKeys, q.get? k = p.get? k

theorem Narrows.refl (p : Json) : Narrows p p where
  keys _ := id
  values _ _ _ := id
  measurements measurements h := ⟨measurements, h, fun _ _ => id⟩
  position _ _ := rfl

theorem reading_of_reading {v w : Json} {u : Option Json} (hv : (u.bind reading) = some v)
    (hw : reading v = some w) : w = v := by
  obtain ⟨x, -, hx⟩ := Option.bind_eq_some_iff.mp hv
  have hagain := reading_reading x
  rw [hx, Option.bind_some, hw] at hagain
  exact Option.some.inj hagain

theorem isSome_measurements {p : Json} {measurements : Record Json} (h : measurementsOf p = some measurements) :
    (p.get? "measurements").isSome := by
  unfold measurementsOf at h
  split at h
  case h_1 fields hfields =>
    rw [hfields]
    rfl
  case h_2 => cases h

/-- The position of a response is the one of the response filtered once more. -/
theorem get?_position_stable {r r' : Rights} {fields : Record Json} {k : String}
    (hscopes : hasScope r'.scopes 8 = hasScope r.scopes 8) (hk : k ∈ positionKeys) :
    (filterFields (filterFields fields r scope observedAt) r' scope observedAt).get? k =
      (filterFields fields r scope observedAt).get? k := by
  have hfirst : Json.get? (.object (filterFields fields r scope observedAt)) k =
      if hasScope r.scopes 8 then positionField (.object fields) k else none := get?_filterFields_position hk
  rw [get?_filterFields_position hk, hscopes]
  cases h8 : hasScope r.scopes 8 with
  | false =>
    rw [h8] at hfirst
    exact hfirst.symm
  | true =>
    rw [h8, if_pos rfl] at hfirst
    exact (positionField_congr hfirst).trans hfirst.symm

theorem get?_filterFields_of_some {r r' : Rights} {fields : Record Json} {k : String} {v : Json}
    (hscopes : hasScope r'.scopes 8 = hasScope r.scopes 8) (hk : k ≠ "measurements")
    (h : (filterFields (filterFields fields r scope observedAt) r' scope observedAt).get? k = some v) :
    (filterFields fields r scope observedAt).get? k = some v := by
  by_cases hposition : k ∈ positionKeys
  · exact (get?_position_stable hscopes hposition).symm.trans h
  · rw [get?_filterFields hposition] at h
    by_cases hflat : k ∈ flatKeys
    · -- a flat key is not of the header
      have hother : ∀ k ∈ flatKeys, k ≠ "simulation" ∧ k ∉ identityKeys := by decide
      obtain ⟨hsimulation, hidentity⟩ := hother k hflat
      have hheader : (filterHeader (.object (filterFields fields r scope observedAt))).get? k = none := by
        rw [get?_filterHeader, if_neg hsimulation, if_neg hidentity]
      unfold filterTelemetry at h
      cases hm : measurementsOf (.object (filterFields fields r scope observedAt)) with
      | some measurements =>
        simp only [hm, Record.get?_set, if_neg hk, hheader] at h
        cases h
      | none =>
        simp only [hm, get?_filterFlat, hheader, Option.none_or] at h
        split at h
        · exact (Option.filter_eq_some_iff.mp h).1
        · cases h
    · rw [get?_filterTelemetry hflat hk, filterHeader_filterFields] at h
      rw [get?_filterFields hposition, get?_filterTelemetry hflat hk]
      exact h

theorem narrows_filterFields {r r' : Rights} (hscopes : hasScope r'.scopes 8 = hasScope r.scopes 8)
    (fields : Record Json) :
    Narrows (.object (filterFields fields r scope observedAt))
      (.object (filterFields (filterFields fields r scope observedAt) r' scope observedAt)) := by
  have hmeasurements := measurementsOf_filterFields r scope observedAt fields
  have hagain := measurementsOf_filterFields r' scope observedAt
    (filterFields fields r scope observedAt)
  have hvalues : ∀ k v, k ≠ "measurements" →
      (filterFields (filterFields fields r scope observedAt) r' scope observedAt).get? k = some v →
      (filterFields fields r scope observedAt).get? k = some v :=
    fun k v hk => get?_filterFields_of_some hscopes hk
  refine ⟨fun k hk => ?_, hvalues, fun narrowed hnarrowed => ?_, fun k hk => ?_⟩
  · by_cases hm : k = "measurements"
    · subst hm
      have hheader : (filterHeader (.object (filterFields fields r scope observedAt))).get? "measurements" =
          none := by
        rw [get?_filterHeader, if_neg (by decide), if_neg (by decide)]
      cases hfound : measurementsOf (.object (filterFields fields r scope observedAt)) with
      | some measurements =>
        exact isSome_measurements hfound
      | none =>
        have hnone : (filterFields (filterFields fields r scope observedAt) r' scope observedAt).get?
            "measurements" = none := by
          refine (get?_filterFields (by decide)).trans ?_
          simp [filterTelemetry, hfound, get?_filterFlat, hheader,
            admitsFlat_eq_false r' scope observedAt (show "measurements" ∉ flatKeys by decide)]
        have hk : (Record.get? (filterFields (filterFields fields r scope observedAt) r' scope observedAt)
          "measurements").isSome := hk
        rw [hnone] at hk
        cases hk
    · obtain ⟨v, hv⟩ := Option.isSome_iff_exists.mp hk
      exact Option.isSome_iff_exists.mpr ⟨v, hvalues k v hm hv⟩
  · rw [hagain] at hnarrowed
    obtain ⟨measurements, hfirst, rfl⟩ := Option.map_eq_some_iff.mp hnarrowed
    refine ⟨measurements, hfirst, fun k v hv => ?_⟩
    rw [hmeasurements] at hfirst
    obtain ⟨given, -, rfl⟩ := Option.map_eq_some_iff.mp hfirst
    rw [get?_filterMeasurements] at hv
    split at hv
    · obtain ⟨w, hw, hread⟩ := Option.bind_eq_some_iff.mp hv
      rw [get?_filterMeasurements] at hw ⊢
      split at hw
      · rw [if_pos ‹_›, reading_of_reading hw hread]
        exact hw
      · cases hw
    · cases hv
  · exact get?_position_stable hscopes hk

theorem filterPayload_narrows {r r' : Rights} {payload p q : Json} (hlegacy : r.legacy = false)
    (hlegacy' : r'.legacy = false) (hscopes : r'.scopes = r.scopes)
    (hp : filterPayload payload r scope observedAt = .ok p)
    (hq : filterPayload p r' scope observedAt = .ok q) : Narrows p q := by
  cases hscope : hasScope r.scopes scope with
  | false =>
    rw [filterPayload_of_not_scope hlegacy hscope] at hp
    cases hp
  | true =>
    by_cases hobject : ∃ fields, payload = .object fields
    · obtain ⟨fields, rfl⟩ := hobject
      rw [filterPayload_object hlegacy hscope] at hp
      split at hp
      · cases hp
      · split at hp
        · cases hp
        · obtain rfl := Except.ok.inj hp
          rw [filterPayload_object hlegacy' (hscopes ▸ hscope), isEncrypted_filterFields] at hq
          split at hq
          · contradiction
          · split at hq
            · cases hq
            · obtain rfl := Except.ok.inj hq
              exact narrows_filterFields (by rw [hscopes]) fields
    · have hkept := filterPayload_stable hlegacy hlegacy' hscopes (fun fields h => hobject ⟨fields, h⟩) hp
      obtain rfl := Except.ok.inj (hkept.symm.trans hq)
      exact .refl p

/-! ## A single stricter grant -/

/-- **Narrowing.** A payload that is filtered with the rights and once more with the rights of the selection
is the payload filtered with one stricter grant. The second pass adds no key and keeps the position, and a
second pass with the same rights changes nothing. -/
theorem narrowing_is_one_grant {rights : Rights} {keys : List String} {scope : Nat}
    (hlegacy : rights.legacy = false) (hscope : scope = 2 ∨ scope = 4)
    (hvalid : validateMeasurements (some keys) rights = .ok ()) (observedAt : Number) (payload : Json) :
    (filterPayload payload rights scope observedAt >>= fun value =>
        filterPayload value (rights.narrowed keys) scope observedAt) =
      filterPayload payload (rights.stricter keys) scope observedAt ∧
    (∀ p q, filterPayload payload rights scope observedAt = .ok p →
      filterPayload p (rights.narrowed keys) scope observedAt = .ok q → Narrows p q) ∧
    (filterPayload payload rights scope observedAt >>= fun value =>
        filterPayload value rights scope observedAt) =
      filterPayload payload rights scope observedAt := by
  have hnarrowed : (rights.narrowed keys).legacy = false := rfl
  refine ⟨?_, fun p q => filterPayload_narrows hlegacy hnarrowed rfl, ?_⟩
  · have hstricter : (rights.stricter keys).legacy = false := hlegacy
    exact filterPayload_twice hlegacy hnarrowed hstricter rfl rfl (outsideHistory_stricter hscope)
      (fun hinside => meet_stricter hscope hvalid hinside) payload
  · refine filterPayload_twice hlegacy hlegacy hlegacy rfl rfl (Bool.or_self _).symm ?_ payload
    exact fun _ key => (Bool.and_self _).symm

/-- A reader of everything selects the temperature. -/
theorem narrowing_is_one_grant_temperature :
    (let rights : Rights :=
      { discover := true, scopes := 2, publicScopes := 0, owner := false, revision := none, expiresAt := 0
        reader := some { Reader.unbounded 2 [] with allMeasurements := true } }
    let payload : Json := .object [("measurements", .object [("temperature", .string "20"),
      ("humidity", .string "40")])]
    (filterPayload payload rights 2 (.ofNat 5) >>= fun value =>
        filterPayload value (rights.narrowed ["temperature"]) 2 (.ofNat 5)) =
      filterPayload payload (rights.stricter ["temperature"]) 2 (.ofNat 5)) :=
  (narrowing_is_one_grant rfl (.inl rfl) rfl _ _).1

end

end Sharing
